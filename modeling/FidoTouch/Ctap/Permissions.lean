import FidoTouch.Ctap.Authorization
import FidoTouch.Ctap.Issue

/-! The permissions of a pinUvAuthToken between two issues, and what they allow. -/
namespace FidoTouch.Ctap
open FidoTouch.Program Handler FidoTouch.Storage

-- The search for `Keeps` follows whole commands.
set_option synthInstance.maxSize 4096

variable {ε α : Type} {d d' : Device} {m : UInt8}

/-- None of the permissions in the mask. -/
def Lacks (m : UInt8) (t : PinUvAuthToken) : Prop := t.permissions &&& m = 0

/-- A token in use may write large blobs. -/
def HoldsLbw (t : PinUvAuthToken) : Prop := t.inUse = true → t.permissions &&& permissionLbw ≠ 0

/-! ### What the changes of the other kinds keep -/

private theorem lacks_of_token {k : Change} {t t' : PinUvAuthToken} (hissue : k ≠ .issue) (hclear : k ≠ .clear)
    (htoken : k.Token t t') (ht : Lacks m t) : Lacks m t' := by
  cases k with
  | other | keep => rwa [show t' = t from htoken]
  | load =>
    obtain ⟨data, rfl⟩ := htoken
    exact ht
  | lower =>
    obtain ⟨up, uv, -, rfl⟩ := htoken
    exact ht
  | bind =>
    obtain ⟨-, rpIdHash, rfl⟩ := htoken
    exact ht
  | reset =>
    obtain ⟨data, rfl⟩ := htoken
    exact UInt8.zero_and
  | stop | powerUp =>
    rw [htoken]
    exact UInt8.zero_and
  | clear => exact absurd rfl hclear
  | issue => exact absurd rfl hissue

private theorem lbw_of_and {x : UInt8} (h : x &&& permissionLbw ≠ 0) : x &&& permissionLbw = permissionLbw := by
  revert x
  decide +kernel

/-- The clearing adds nothing to a token that holds the one permission it assigns. -/
private theorem lacks_clear {t : PinUvAuthToken} (hlbw : t.permissions &&& permissionLbw ≠ 0) (ht : Lacks m t) :
    permissionLbw &&& m = 0 := by
  rw [← lbw_of_and hlbw, UInt8.and_assoc, UInt8.and_comm permissionLbw, ← UInt8.and_assoc, show _ = _ from ht,
    UInt8.zero_and]

private theorem lacks_holdsLbw_of_token {k : Change} {t t' : PinUvAuthToken} (hissue : k ≠ .issue) (hreset : k ≠ .reset)
    (htoken : k.Token t t') (ht : Lacks m t ∧ HoldsLbw t) : Lacks m t' ∧ HoldsLbw t' := by
  cases k with
  | other | keep => rwa [show t' = t from htoken]
  | load =>
    obtain ⟨data, rfl⟩ := htoken
    exact ht
  | lower =>
    obtain ⟨up, uv, -, rfl⟩ := htoken
    exact ht
  | bind =>
    obtain ⟨-, rpIdHash, rfl⟩ := htoken
    exact ht
  | clear =>
    obtain ⟨hinUse, rfl⟩ := htoken
    exact ⟨lacks_clear (ht.2 hinUse) ht.1, fun _ => show permissionLbw &&& permissionLbw ≠ 0 by decide⟩
  | stop | powerUp =>
    rw [htoken]
    exact ⟨UInt8.zero_and, fun hinUse => absurd hinUse (by simp)⟩
  | reset => exact absurd rfl hreset
  | issue => exact absurd rfl hissue

instance (k : Change) [hissue : Fact (k ≠ .issue)] [hclear : Fact (k ≠ .clear)] :
    Admits (Preserves fun d => Lacks m d.paut) k :=
  admits_preserves fun _ _ => lacks_of_token hissue.out hclear.out

instance (k : Change) [hissue : Fact (k ≠ .issue)] [hreset : Fact (k ≠ .reset)] :
    Admits (Preserves fun d => Lacks m d.paut ∧ HoldsLbw d.paut) k :=
  admits_preserves fun _ _ => lacks_holdsLbw_of_token hissue.out hreset.out

/-! ### The ceremonies -/

section
variable [Sdk]

/-- A ceremony that clears the permissions finds no token in use, or one that holds the permission it assigns. -/
def ClearsHeld (d : Device) (i : Input) : Prop :=
  ((∃ p, i = .cbor (.makeCredential (.params p)) ∧ p.up = some true) ∨
    ∃ p, i = .cbor (.getAssertion (.params p)) ∧ p.opts.up ≠ some false) →
  HoldsLbw (ticked d).paut

variable [ObjectLibrary]

private theorem cborMakeCredential_lacks {p : MakeCredentialParams} (hheld : p.up = some true → HoldsLbw d.paut)
    (hd : Lacks m d.paut) : Lacks m (cborMakeCredential (.params p) d).2.paut := by
  by_cases hup : p.up = some true
  · exact ((inferInstance : Keeps (Preserves fun d => Lacks m d.paut ∧ HoldsLbw d.paut)
      (cborMakeCredential (.params p))).rel d ⟨hd, hheld hup⟩).1
  · have hpresence : Keeps (Preserves fun d => Lacks m d.paut) (mcUserPresence p) := by
      unfold mcUserPresence
      rw [runIf_false hup]
      infer_instance
    have hkeeps : Keeps (Preserves fun d => Lacks m d.paut) (cborMakeCredential (.params p)) := by
      unfold cborMakeCredential
      rw [Parsed.result, ofExcept_ok_bind]
      infer_instance
    exact hkeeps.rel d hd

private theorem cborGetAssertion_lacks {p : GetAssertionParams} (hheld : p.opts.up ≠ some false → HoldsLbw d.paut)
    (hd : Lacks m d.paut) : Lacks m (cborGetAssertion (.params p) d).2.paut := by
  by_cases hup : p.opts.up = some false
  · have hpresence : Keeps (Preserves fun d => Lacks m d.paut) (gaUserPresence p) := by
      unfold gaUserPresence
      rw [if_pos hup]
      infer_instance
    have hfirst : Keeps (Preserves fun d => Lacks m d.paut) (firstAssertion (.params p)) := by
      unfold firstAssertion
      rw [Parsed.result, ofExcept_ok_bind]
      infer_instance
    have hkeeps : Keeps (Preserves fun d => Lacks m d.paut) (cborGetAssertion (.params p)) := by
      unfold cborGetAssertion
      refine .bind inferInstance fun answer => ?_
      split <;> infer_instance
    exact hkeeps.rel d hd
  · exact ((inferInstance : Keeps (Preserves fun d => Lacks m d.paut ∧ HoldsLbw d.paut)
      (cborGetAssertion (.params p))).rel d ⟨hd, hheld hup⟩).1

/-- Between two issues no permission comes to the token. -/
private theorem move_lacks {t : AuthMove} (ht : t = authenticator.move t.before t.input)
    (hheld : ClearsHeld t.before t.input) : (∃ p, Issues p t) ∨ (Lacks m t.before.paut → Lacks m t.after.paut) := by
  have hmove := move_or_issue (R := Preserves fun d => Lacks m d.paut) (d := t.before) (i := t.input)
    (fun q hq hd => ?_) fun q hq hd => ?_
  · rw [← ht] at hmove
    exact hmove.symm
  · cases q with
    | empty e => exact hd
    | malformed e => exact hd
    | params p => exact cborMakeCredential_lacks (fun hup => hheld (.inl ⟨p, hq, hup⟩)) hd
  · cases q with
    | empty e => exact hd
    | malformed e => exact hd
    | params p => exact cborGetAssertion_lacks (fun hup => hheld (.inr ⟨p, hq, hup⟩)) hd

/-! ### What takes a permission -/

/-- The fragment to write, with a parameter that verifies under a token that may write large blobs. -/
def LbwAuthorized (p : LargeBlobsParams) (d : Device) : Prop :=
  ∃ fragment param, p.set = some fragment ∧ p.pinUvAuthParam = some param ∧
    verify p.pinUvAuthProtocol.toUInt8 d.paut.data (largeBlobsVerifyData p fragment) param = true ∧
    d.paut.permissions &&& permissionLbw ≠ 0

/-- A parameter that verifies under a token that may configure the authenticator. -/
def AcfgAuthorized (p : ConfigParams) (d : Device) : Prop :=
  ∃ param, p.pinUvAuthParam = some param ∧
    verify p.pinUvAuthProtocol.toUInt8 d.paut.data (configVerifyPayload p) param = true ∧
    d.paut.permissions &&& permissionAcfg ≠ 0

/-- The files, the fragments collected and the token are the same. -/
structure SameBlobs (d d' : Device) : Prop where
  store : d'.store = d.store
  tempLba : d'.largeBlobs.tempLba = d.largeBlobs.tempLba
  paut : d'.paut = d.paut

omit [Sdk] [ObjectLibrary] in
instance : Std.Refl SameBlobs := ⟨fun _ => ⟨rfl, rfl, rfl⟩⟩
omit [Sdk] [ObjectLibrary] in
instance : IsTrans Device SameBlobs :=
  ⟨fun _ _ _ h h' => ⟨h'.store.trans h.store, h'.tempLba.trans h.tempLba, h'.paut.trans h.paut⟩⟩

omit [Sdk] [ObjectLibrary] in
instance (p : LargeBlobsParams) : Keeps SameBlobs (largeBlobsBegin p) := by
  unfold largeBlobsBegin
  have : Keeps SameBlobs (modify fun d =>
      { d with largeBlobs := { d.largeBlobs with expectedLength := p.length.toNat, expectedNextOffset := 0 } } : CtapOp Unit) :=
    keeps_of fun _ => ⟨rfl, rfl, rfl⟩
  infer_instance

omit [ObjectLibrary] in
private theorem largeBlobsAuthorize_refuses {p : LargeBlobsParams} {fragment : Bytes} (hset : p.set = some fragment)
    (h : ¬ LbwAuthorized p d) : Refuses (largeBlobsAuthorize p fragment) d := by
  unfold largeBlobsAuthorize
  refine refuses_guarded fun hparam => refuses_guarded fun _ => refuses_guarded fun _ => refuses_guarded fun _ => ?_
  obtain ⟨param, hparam⟩ := Option.ne_none_iff_exists'.mp hparam
  rw [Refuses, bind_eq (get_run d)]
  refine refuses_guarded fun hverified => refuses_refuseIf ?_ _ d
  by_contra hpermitted
  exact h ⟨fragment, param, hset, hparam, by simpa [hparam] using hverified, hpermitted⟩

omit [ObjectLibrary] in
theorem configAuthorize_refuses {p : ConfigParams} (h : ¬ AcfgAuthorized p d) : Refuses (configAuthorize p) d := by
  unfold configAuthorize
  refine refuses_guarded fun hparam => refuses_guarded fun _ => refuses_guarded fun _ => refuses_guarded fun _ => ?_
  obtain ⟨param, hparam⟩ := Option.ne_none_iff_exists'.mp hparam
  rw [Refuses, bind_eq (get_run d)]
  refine refuses_guarded fun hverified => refuses_refuseIf ?_ _ d
  by_contra hpermitted
  exact h ⟨param, hparam, by simpa [hparam] using hverified, hpermitted⟩

omit [ObjectLibrary] in
private theorem cborConfig_refuses {p : ConfigParams} (h : ¬ AcfgAuthorized p d) : Refuses (cborConfig (.params p)) d := by
  unfold cborConfig
  rw [Parsed.result, ofExcept_ok_bind]
  exact (configAuthorize_refuses h).bind _

omit [ObjectLibrary] in
private theorem largeBlobsSet_refuses {p : LargeBlobsParams} {fragment : Bytes} (hset : p.set = some fragment)
    (h : ¬ LbwAuthorized p d) : RefusesWithin SameBlobs (largeBlobsSet p fragment) d := by
  unfold largeBlobsSet
  refine .after inferInstance fun _ s hs => .after inferInstance fun _ t ht => .after inferInstance fun _ u hu =>
    .after inferInstance fun _ v hv => ?_
  obtain ⟨-, rfl⟩ := refuseIf_ok hs
  cases hu
  obtain ⟨-, rfl⟩ := refuseIf_ok hv
  have hpaut := ((inferInstance : Keeps SameBlobs (largeBlobsBegin p)).of_run ht).paut
  refine ((largeBlobsAuthorize_refuses hset fun hauth => h ?_).within).bind _
  rwa [LbwAuthorized, hpaut] at hauth

omit [ObjectLibrary] in
instance (p : LargeBlobsParams) (count : UInt64) : Keeps SameBlobs (largeBlobsGet p count) := by
  unfold largeBlobsGet getFiles
  infer_instance

omit [ObjectLibrary] in
/-- A request that is not authorized reads a part of the array or changes nothing that counts. -/
private theorem cborLargeBlobs_refuses {p : LargeBlobsParams} (h : ¬ LbwAuthorized p d) :
    SameBlobs d (cborLargeBlobs (.params p) d).2 ∧ (cborLargeBlobs (.params p) d).1 ≠ .ok none := by
  unfold cborLargeBlobs
  rw [Parsed.result, ofExcept_ok_bind]
  by_cases hoffset : p.offset = noOffset
  · rw [refuseIf_true hoffset]
    exact ⟨Std.Refl.refl d, by rintro ⟨⟩⟩
  rw [refuseIf_false hoffset, pure_bind]
  rcases hget : p.get with _ | count <;> rcases hset : p.set with _ | fragment <;> dsimp only
  · exact ⟨Std.Refl.refl d, by rintro ⟨⟩⟩
  · obtain ⟨e, s, hs, hsame⟩ := (largeBlobsSet_refuses hset h).bind fun _ => (pure none : CtapOp (Option Bytes))
    rw [hs]
    exact ⟨hsame, by rintro ⟨⟩⟩
  · rcases hx : largeBlobsGet p count d with ⟨e | blob, s⟩ <;> rw [bind_run, hx] <;>
      exact ⟨(inferInstance : Keeps SameBlobs (largeBlobsGet p count)).of_run hx, by rintro ⟨⟩⟩
  · exact ⟨Std.Refl.refl d, by rintro ⟨⟩⟩

/-! ### Effects -/

/-- A fragment was accepted: the answer says so, or the array or what is collected for it changed. -/
def WritesFragment (p : LargeBlobsParams) (t : AuthMove) : Prop :=
  t.input = .cbor (.largeBlobs (.params p)) ∧ (t.output = .ok (some (.largeBlobs none)) ∨
    t.after.largeBlobs.tempLba ≠ t.before.largeBlobs.tempLba ∨ t.after.store ≠ t.before.store)

/-- A request for configuration was answered, or changed more than every message does. -/
def Configures (r : Parsed ConfigParams) (t : AuthMove) : Prop :=
  t.input = .cbor (.config r) ∧ ((∃ response, t.output = .ok response) ∨
    t.after ≠ ticked t.before ∧ t.after ≠ (ticked t.before).forgotten)

/-- A stored credential was deleted or updated by the command proper. -/
def ManagesCredential (p : CredMgmtParams) (t : AuthMove) : Prop :=
  t.input = .cbor (.credMgmt (.params p)) ∧ p.isPreview = false ∧ (p.subcommand = 0x06 ∨ p.subcommand = 0x07) ∧ Effective t

theorem WritesFragment.authorized {p : LargeBlobsParams} {t : AuthMove} (h : WritesFragment p t)
    (ht : t = authenticator.move t.before t.input) : LbwAuthorized p (ticked t.before) := by
  obtain ⟨hinput, heffect⟩ := h
  by_contra hnone
  obtain ⟨hsame, hout⟩ := cborLargeBlobs_refuses (d := (ticked t.before).forgotten) (p := p) hnone
  rw [hinput] at ht
  rcases move_message (r := .largeBlobs (.params p)) rfl t.before with ⟨hmoved, hafter⟩ | ⟨hmoved, hafter⟩ <;>
    (rw [← ht] at hmoved hafter; rw [hmoved, hafter] at heffect)
  · rcases heffect with heffect | heffect | heffect
    · cases heffect
    · exact heffect (by rw [ticked_largeBlobs])
    · exact heffect (ticked_store _)
  · rw [cborCommand, map_snd] at heffect
    rcases heffect with heffect | heffect | heffect
    · rw [map_run] at heffect
      rcases hrun : cborLargeBlobs (.params p) (ticked t.before).forgotten with ⟨e | blob, s⟩ <;> rw [hrun] at heffect hout <;>
        cases heffect
      exact hout rfl
    · exact heffect (hsame.tempLba.trans (by rw [Device.forgotten, ticked_largeBlobs]))
    · exact heffect (hsame.store.trans (ticked_store _))

private theorem Configures.authorized {r : Parsed ConfigParams} {t : AuthMove} (h : Configures r t)
    (ht : t = authenticator.move t.before t.input) : ∃ p, r = .params p ∧ AcfgAuthorized p (ticked t.before) := by
  obtain ⟨hinput, heffect⟩ := h
  by_contra hnone
  have hrefuses : Refuses (cborConfig r) (ticked t.before).forgotten := by
    cases r with
    | empty e => exact ⟨e, rfl⟩
    | malformed e => exact ⟨e, rfl⟩
    | params p => exact cborConfig_refuses fun hauth => hnone ⟨p, rfl, hauth⟩
  obtain ⟨e, hrun⟩ := hrefuses.bind fun _ => (pure .done : CtapOp Response)
  rw [hinput] at ht
  rcases move_message (r := .config r) rfl t.before with ⟨hmoved, hafter⟩ | ⟨hmoved, hafter⟩ <;>
    (rw [← ht] at hmoved hafter; rw [hmoved, hafter] at heffect)
  · rcases heffect with ⟨response, heffect⟩ | ⟨hticked, -⟩
    · cases heffect
    · exact hticked rfl
  · rw [cborCommand, hrun] at heffect
    rcases heffect with ⟨response, heffect⟩ | ⟨-, hforgotten⟩
    · cases heffect
    · exact hforgotten rfl

private theorem ManagesCredential.authorized {p : CredMgmtParams} {t : AuthMove} (h : ManagesCredential p t)
    (ht : t = authenticator.move t.before t.input) :
    verify p.protocol (ticked t.before).paut.data p.verifyPayload p.param = true ∧
      (ticked t.before).paut.permissions &&& permissionCm ≠ 0 := by
  obtain ⟨hinput, hproper, hsub, heffective⟩ := h
  have hnext : p.subcommand ≠ 0x03 ∧ p.subcommand ≠ 0x05 := by
    rcases hsub with h | h <;> (rw [h]; decide)
  obtain ⟨q, hq, hpassed⟩ := heffective.passed ht hinput (by rintro q ⟨⟩; exact hnext)
  cases hq
  rcases hpassed with hread | ⟨hverified, hpermitted⟩
  · rcases hread.subcommand with h | h | h <;> rcases hsub with h' | h' <;> exact absurd (h.symm.trans h') (by decide)
  · exact ⟨hverified, hpermitted hproper⟩

/-! ### Runs -/

/-- The last token issued in these moves was granted the permission. -/
def Granted (m : UInt8) (moves : List AuthMove) : Prop :=
  ∃ l t r p, moves = l ++ t :: r ∧ Issues p t ∧ grantedPermissions p &&& m ≠ 0 ∧ ∀ v ∈ r, ¬ ∃ q, Issues q v

omit [Sdk] [ObjectLibrary] in
private theorem ticked_lacks (h : Lacks m d.paut) : Lacks m (ticked d).paut :=
  (inferInstance : Keeps (Preserves fun d => Lacks m d.paut) (pinUvAuthTokenTick : CtapOp Unit)).rel d h

omit [ObjectLibrary] in
private theorem boot_lacks (d : Device) : Lacks m d.boot.paut :=
  (inferInstance : Keeps (Preserves fun d => Lacks m d.paut) (initFido : Handler Device PicoError Unit)).rel d.powerUp
    UInt8.zero_and

private theorem granted_of_permitted {is : List Input}
    (hheld : ∀ t ∈ authenticator.trace d.boot is, ClearsHeld t.before t.input) {before after : List AuthMove} {u : AuthMove}
    (htrace : authenticator.trace d.boot is = before ++ u :: after)
    (hpermitted : (ticked u.before).paut.permissions &&& m ≠ 0) : Granted m before := by
  have hstep : ∀ t ∈ authenticator.trace d.boot is, ¬ Lacks m t.after.paut →
      (∃ p, Issues p t ∧ grantedPermissions p &&& m ≠ 0) ∨ ¬ Lacks m t.before.paut ∧ ¬ ∃ p, Issues p t := by
    intro t ht hafter
    have hmove := Machine.trace_move ht
    by_cases hissues : ∃ p, Issues p t
    · obtain ⟨p, hissues⟩ := hissues
      rw [Lacks, (hissues.issued hmove).permissions] at hafter
      exact .inl ⟨p, hissues, hafter⟩
    · exact .inr ⟨fun hlacks => hafter ((move_lacks hmove (hheld t ht)).resolve_left hissues hlacks), hissues⟩
  have hstart : ¬ ¬ Lacks m d.boot.paut := not_not.mpr (boot_lacks d)
  have hnow : ¬ Lacks m u.before.paut := fun hlacks => hpermitted (ticked_lacks hlacks)
  obtain ⟨l, t, r, hbefore, ⟨p, hissues, hgranted⟩, hno⟩ := Machine.trace_since (I := fun d : Device => ¬ Lacks m d.paut)
    (E := fun t => ∃ p, Issues p t) hstep hstart htrace hnow
  exact ⟨l, t, r, p, hbefore, hissues, hgranted, hno⟩

/-- In every run since power came up whose ceremonies clear the permissions only of tokens that hold the permission
assigned, a token has none but those it was issued with, and what takes a permission was granted it. -/
theorem token_permissions_granted {is : List Input}
    (hheld : ∀ t ∈ authenticator.trace d.boot is, ClearsHeld t.before t.input) :
    (∀ before t mid u after p, authenticator.trace d.boot is = before ++ t :: (mid ++ u :: after) → Issues p t →
      (∀ v ∈ mid, ¬ ∃ q, Issues q v) → u.before.paut.permissions &&& ~~~grantedPermissions p = 0) ∧
    ∀ before u after, authenticator.trace d.boot is = before ++ u :: after →
      (∀ p, WritesFragment p u → LbwAuthorized p (ticked u.before) ∧ Granted permissionLbw before) ∧
      (∀ r, Configures r u → (∃ p, r = .params p ∧ AcfgAuthorized p (ticked u.before)) ∧ Granted permissionAcfg before) ∧
      ∀ p, ManagesCredential p u → verify p.protocol (ticked u.before).paut.data p.verifyPayload p.param = true ∧
        Granted permissionCm before := by
  refine ⟨fun before t mid u after p htrace hissues hno => ?_, fun before u after htrace => ?_⟩
  · refine Machine.trace_between (I := fun d : Device => Lacks (~~~grantedPermissions p) d.paut)
      (fun v hv hlacks => (move_lacks (Machine.trace_move hv) (hheld v hv)).imp_right fun h => h hlacks) htrace ?_ hno
    have hissued := hissues.issued (Machine.trace_move (show t ∈ authenticator.trace d.boot is by simp [htrace]))
    rw [Lacks, hissued.permissions]
    exact UInt8.and_not_self
  · have hmove := Machine.trace_move (show u ∈ authenticator.trace d.boot is by simp [htrace])
    refine ⟨fun p hwrites => ?_, fun r hconfigures => ?_, fun p hmanages => ?_⟩
    · have hauth := hwrites.authorized hmove
      have ⟨_, _, _, _, _, hpermitted⟩ := hauth
      exact ⟨hauth, granted_of_permitted hheld htrace hpermitted⟩
    · obtain ⟨p, rfl, hauth⟩ := hconfigures.authorized hmove
      have ⟨_, _, _, hpermitted⟩ := hauth
      exact ⟨⟨p, rfl, hauth⟩, granted_of_permitted hheld htrace hpermitted⟩
    · obtain ⟨hverified, hpermitted⟩ := hmanages.authorized hmove
      exact ⟨hverified, granted_of_permitted hheld htrace hpermitted⟩

end
section Plain
attribute [local instance] plainSdk plainLibrary

/-- A request for the whole of a large-blob array of 17 bytes, with its MAC under the token of `d`. -/
def wholeArray (d : Device) : LargeBlobsParams :=
  let p : LargeBlobsParams := ⟨none, some (List.replicate 17 0), 0, 17, none, 1⟩
  { p with pinUvAuthParam := some (plainMac d (largeBlobsVerifyData p (List.replicate 17 0))) }

/-- A device with a token for large blobs. -/
def lbwDevice : Device := (authenticate (tokenRequest 0x9 0x10 none) optionalPinDevice.boot).2

def tokenThenArray : List Input := [tokenRequest 0x9 0x10 none, .cbor (.largeBlobs (.params (wholeArray lbwDevice)))]

def arrayAfterToken : AuthMove := authenticator.move lbwDevice (.cbor (.largeBlobs (.params (wholeArray lbwDevice))))

private theorem tokenThenArray_trace : authenticator.trace optionalPinDevice.boot tokenThenArray =
    [authenticator.move optionalPinDevice.boot (tokenRequest 0x9 0x10 none)] ++ arrayAfterToken :: [] := rfl

private theorem writesFragment_of_answered {t : AuthMove} {p : LargeBlobsParams}
    (hinput : t.input = .cbor (.largeBlobs (.params p)))
    (h : (match t.output with
      | .ok (some (.largeBlobs none)) => true
      | _ => false) = true) : WritesFragment p t := by
  split at h
  · exact ⟨hinput, .inl ‹_›⟩
  · cases h

theorem granted_array_written :
    WritesFragment (wholeArray lbwDevice) arrayAfterToken ∧
      LbwAuthorized (wholeArray lbwDevice) (ticked arrayAfterToken.before) ∧
      Granted permissionLbw [authenticator.move optionalPinDevice.boot (tokenRequest 0x9 0x10 none)] := by
  have hwrites : WritesFragment (wholeArray lbwDevice) arrayAfterToken :=
    writesFragment_of_answered rfl (by decide +kernel)
  have hheld : ∀ t ∈ authenticator.trace optionalPinDevice.boot tokenThenArray, ClearsHeld t.before t.input := by
    intro t ht hceremony
    simp only [tokenThenArray_trace, List.mem_append, List.mem_singleton] at ht
    rcases ht with rfl | rfl <;> rcases hceremony with ⟨_, hinput, -⟩ | ⟨_, hinput, -⟩ <;> cases hinput
  exact ⟨hwrites, ((token_permissions_granted hheld).2 _ _ _ tokenThenArray_trace).1 _ hwrites⟩

/-- A device whose token for new credentials and assertions was used for one with `up` among its options. -/
def usedDevice : Device :=
  (authenticate (.cbor (.makeCredential (.params
    { verifiedMakeCredential with options := some ⟨none, some true, none⟩ }))) verifiedDevice).2

def credentialThenArray : List Input :=
  [tokenRequest 0x5 0 none,
    .cbor (.makeCredential (.params { verifiedMakeCredential with options := some ⟨none, some true, none⟩ })),
    .cbor (.largeBlobs (.params (wholeArray usedDevice)))]

private theorem credentialThenArray_trace : authenticator.trace optionalPinDevice.boot credentialThenArray =
    [] ++ authenticator.move optionalPinDevice.boot (tokenRequest 0x5 0 none) ::
      ([authenticator.move verifiedDevice
        (.cbor (.makeCredential (.params { verifiedMakeCredential with options := some ⟨none, some true, none⟩ })))] ++
        authenticator.move usedDevice (.cbor (.largeBlobs (.params (wholeArray usedDevice)))) :: []) := rfl

private theorem tokenAnswered_of {out : Except CtapError (Option Response)}
    (h : (match out with
      | .ok (some (.clientPin (.pinUvAuthToken _))) => true
      | _ => false) = true) : ∃ enc, out = .ok (some (.clientPin (.pinUvAuthToken enc))) := by
  split at h
  · exact ⟨_, rfl⟩
  · cases h

/-- After the ceremony a token issued for new credentials and assertions writes large blobs. -/
theorem permissions_grow :
    ∃ before t mid u after p q, authenticator.trace optionalPinDevice.boot credentialThenArray =
        before ++ t :: (mid ++ u :: after) ∧ Issues p t ∧ (∀ v ∈ mid, ¬ ∃ q, Issues q v) ∧
      u.before.paut.permissions &&& ~~~grantedPermissions p ≠ 0 ∧ WritesFragment q u ∧
      grantedPermissions p &&& permissionLbw = 0 := by
  obtain ⟨p, hp, hasks, hgranted⟩ : ∃ p, tokenRequest 0x5 0 none = .cbor (.clientPin (.params p)) ∧ p.AsksToken ∧
      grantedPermissions p = permissionMc ||| permissionGa := ⟨_, rfl, ⟨.inr rfl, rfl⟩, rfl⟩
  have hanswer : ∃ enc, (authenticator.move optionalPinDevice.boot (tokenRequest 0x5 0 none)).output =
      .ok (some (.clientPin (.pinUvAuthToken enc))) := tokenAnswered_of (by decide +kernel)
  refine ⟨_, _, _, _, _, p, _, credentialThenArray_trace, ⟨hp, hasks, hanswer⟩, ?_, ?_,
    writesFragment_of_answered rfl (by decide +kernel), ?_⟩
  · intro v hv
    rw [List.mem_singleton.mp hv]
    rintro ⟨_, hinput, -⟩
    cases hinput
  · rw [hgranted]
    exact (by decide +kernel)
  · rw [hgranted]
    decide

end Plain
end FidoTouch.Ctap
