import FidoTouch.Ctap.Issue

/-! What a pinUvAuthToken is good for between two issues: one relying party, and one ceremony with
user presence. -/
namespace FidoTouch.Ctap
open FidoTouch.Program Handler FidoTouch.Storage

-- The search for `Keeps` follows whole commands.
set_option synthInstance.maxSize 4096

variable {ε α : Type} {d d' : Device} {h h' rpIdHash : Block 32}

/-- A token in use is bound to this RP. -/
def BoundTo (h : Block 32) (t : PinUvAuthToken) : Prop := t.inUse = true → t.hasRpId = true ∧ t.rpIdHash = h

/-- The token is good for no further ceremony. -/
structure Spent (t : PinUvAuthToken) : Prop where
  mc : t.permissions &&& permissionMc = 0
  ga : t.permissions &&& permissionGa = 0
  userVerified : t.userVerified = false

/-! ### What all changes but an issue keep -/

private theorem boundTo_of_token {k : Change} {t t' : PinUvAuthToken} (hk : k ≠ .issue) (htoken : k.Token t t')
    (ht : BoundTo h t) : BoundTo h t' := by
  cases k with
  | other | keep => rwa [show t' = t from htoken]
  | load | reset =>
    obtain ⟨data, rfl⟩ := htoken
    exact ht
  | lower =>
    obtain ⟨up, uv, -, rfl⟩ := htoken
    exact ht
  | clear =>
    obtain ⟨-, rfl⟩ := htoken
    exact ht
  | bind =>
    -- A token that is bound already is not bound again.
    obtain ⟨hfree, rpIdHash, rfl⟩ := htoken
    exact fun hinUse => absurd (hfree.symm.trans (ht hinUse).1) (by simp)
  | stop | powerUp =>
    rw [htoken]
    exact fun hinUse => absurd hinUse (by simp)
  | issue => exact absurd rfl hk

private theorem spent_of_token {k : Change} {t t' : PinUvAuthToken} (hk : k ≠ .issue) (htoken : k.Token t t')
    (ht : Spent t) : Spent t' := by
  cases k with
  | other | keep => rwa [show t' = t from htoken]
  | load =>
    obtain ⟨data, rfl⟩ := htoken
    exact ⟨ht.mc, ht.ga, ht.userVerified⟩
  | lower =>
    obtain ⟨up, uv, huv, rfl⟩ := htoken
    refine ⟨ht.mc, ht.ga, Bool.eq_false_iff.mpr fun h => ?_⟩
    exact absurd (ht.userVerified.symm.trans (huv h)) (by simp)
  | bind =>
    obtain ⟨-, rpIdHash, rfl⟩ := htoken
    exact ⟨ht.mc, ht.ga, ht.userVerified⟩
  | reset =>
    obtain ⟨data, rfl⟩ := htoken
    exact ⟨UInt8.zero_and, UInt8.zero_and, ht.userVerified⟩
  | clear =>
    obtain ⟨-, rfl⟩ := htoken
    exact ⟨show permissionLbw &&& permissionMc = 0 by decide, show permissionLbw &&& permissionGa = 0 by decide,
      ht.userVerified⟩
  | stop | powerUp =>
    rw [htoken]
    exact ⟨UInt8.zero_and, UInt8.zero_and, rfl⟩
  | issue => exact absurd rfl hk

instance (k : Change) [hk : Fact (k ≠ .issue)] : Admits (Preserves fun d => BoundTo h d.paut) k :=
  admits_preserves fun _ _ => boundTo_of_token hk.out

instance (k : Change) [hk : Fact (k ≠ .issue)] : Admits (Preserves fun d => Spent d.paut) k :=
  admits_preserves fun _ _ => spent_of_token hk.out

private def InUse (d : Device) : Prop := d.paut.inUse = true

private instance : Admits (Preserves InUse) .other := admits_preserves (I := fun t => t.inUse = true) fun _ _ h ht => by
  rwa [show _ = _ from h]

private instance : Admits (Preserves InUse) .lower := admits_preserves (I := fun t => t.inUse = true) fun _ _ h ht => by
  obtain ⟨_, _, -, rfl⟩ := h
  exact ht

private instance : Admits (Preserves InUse) .bind := admits_preserves (I := fun t => t.inUse = true) fun _ _ h ht => by
  obtain ⟨-, _, rfl⟩ := h
  exact ht

/-! ### The ceremonies -/

private theorem clearPermissions_lbw {u : Unit} (hinUse : InUse d)
    (h : (clearPinUvAuthTokenPermissionsExceptLbw : CtapOp Unit) d = (.ok u, d')) :
    InUse d' ∧ d'.paut.permissions = permissionLbw := by
  obtain ⟨s, _, hs, h⟩ := bind_ok h
  cases hs
  by_cases hc : d.paut.inUse = true ∧ d.paut.permissions ≠ permissionLbw
  · rw [runIf_true hc] at h
    cases h
    exact ⟨hinUse, rfl⟩
  · rw [runIf_false hc] at h
    obtain ⟨-, rfl⟩ := pure_ok h
    exact ⟨hinUse, by_contra fun hne => hc ⟨hinUse, hne⟩⟩

/-- A token in use that goes through the clearing is spent. -/
private theorem clearTokenFlags_spent {u : Unit} (hinUse : InUse d) (h : (clearTokenFlags : CtapOp Unit) d = (.ok u, d')) :
    Spent d'.paut := by
  have hverified := clearTokenFlags_unverified h
  obtain ⟨_, s₁, h₁, h⟩ := bind_ok h
  obtain ⟨_, s₂, h₂, h⟩ := bind_ok h
  have hinUse₁ : InUse s₁ :=
    (inferInstance : Keeps (Preserves InUse) (clearUserPresentFlag : CtapOp Unit)).of_run h₁ hinUse
  have hinUse₂ : InUse s₂ :=
    (inferInstance : Keeps (Preserves InUse) (clearUserVerifiedFlag : CtapOp Unit)).of_run h₂ hinUse₁
  obtain ⟨hinUse', hlbw⟩ := clearPermissions_lbw hinUse₂ h
  refine ⟨by rw [hlbw]; decide, by rw [hlbw]; decide, ?_⟩
  rwa [show d'.paut.inUse = true from hinUse', Bool.true_and] at hverified

private theorem mcUserPresence_spent {p : MakeCredentialParams} {up : UInt8} (hinUse : InUse d) (hup : p.up = some true)
    (h : mcUserPresence p d = (.ok up, d')) : Spent d'.paut := by
  rw [mcUserPresence, if_neg (by rw [hup]; decide)] at h
  obtain ⟨_, s, hs, h⟩ := bind_ok h
  have hinUse' : InUse s :=
    (inferInstance : Keeps (Preserves InUse) (runIf (p.pinUvAuthParam.isSome = true) requireUserPresent)).of_run hs hinUse
  obtain ⟨_, t, ht, h⟩ := bind_ok h
  obtain ⟨-, rfl⟩ := pure_ok h
  rw [runIf_true hup] at ht
  exact clearTokenFlags_spent hinUse' ht

/-- Every assertion with the UP bit went through the clearing. -/
private theorem gaUserPresence_spent {p : GetAssertionParams} {up : UInt8} (hinUse : InUse d)
    (h : gaUserPresence p d = (.ok up, d')) : up = 0 ∨ Spent d'.paut := by
  unfold gaUserPresence at h
  split at h
  · exact .inl (pure_ok h).1
  · obtain ⟨_, s, hs, h⟩ := bind_ok h
    have hinUse' : InUse s := (inferInstance : Keeps (Preserves InUse) (gaAskUser p)).of_run hs hinUse
    obtain ⟨_, t, ht, h⟩ := bind_ok h
    obtain ⟨-, rfl⟩ := pure_ok h
    exact .inr (clearTokenFlags_spent hinUse' ht)

section
variable [Sdk] [ObjectLibrary]

/-- A new credential authorized by the token binds it, and with `up` it spends it. -/
private theorem mcAnswer_token {p : MakeCredentialParams} {param : Bytes} {a : MakeCredentialAnswer}
    (h : cborMakeCredential (.params p) d = (.ok a, d')) (hparam : p.pinUvAuthParam = some param) :
    ParamVerified p.pinUvAuthProtocol (p.clientDataHash.getD []) param permissionMc p.rpIdHash d ∧
      BoundTo p.rpIdHash d'.paut ∧ (p.up ≠ none → Spent d'.paut) := by
  obtain ⟨curve, alg, uv, up, s₁, s₂, h₁, h₂, h₃⟩ := cborMakeCredential_ok h
  obtain ⟨hup, s, hs, hstorage⟩ := mcPrepare_ok h₁
  rcases mcVerifyParam_ok hs with ⟨hnone, -, -⟩ | ⟨param', hparam', -, rfl, hverified⟩
  · rw [hnone] at hparam
    cases hparam
  cases hparam'.symm.trans hparam
  have hinUse : InUse s₁ := by
    rw [InUse, hstorage.paut]
    exact hverified.inUse
  have hbound : BoundTo p.rpIdHash s₁.paut := by
    rw [hstorage.paut]
    exact fun _ => ⟨rfl, rfl⟩
  refine ⟨hverified, ?_, fun hnamed => ?_⟩
  · have hbound₂ := (inferInstance : Keeps (Preserves fun d => BoundTo p.rpIdHash d.paut) (mcUserPresence p)).of_run h₂ hbound
    exact (inferInstance : Keeps (Preserves fun d => BoundTo p.rpIdHash d.paut) (attest p curve alg _)).of_run h₃ hbound₂
  · have htrue : p.up = some true := by
      cases hp : p.up with
      | none => exact absurd hp hnamed
      | some b => cases b with
        | false => exact absurd hp hup
        | true => rfl
    exact (inferInstance : Keeps (Preserves fun d => Spent d.paut) (attest p curve alg _)).of_run h₃
      (mcUserPresence_spent hinUse htrue h₂)

omit [Sdk] [ObjectLibrary] in
private theorem up_of_flags {uv ed : UInt8} (huv : uv = 0 ∨ uv = autFlagUv) (hed : ed = 0 ∨ ed = autFlagEd) :
    ((uv ||| 0) ||| ed) &&& autFlagUp = 0 := by
  rcases huv with rfl | rfl <;> rcases hed with rfl | rfl <;> decide

/-- An assertion authorized by the token binds it, and with the UP bit it has spent it. -/
private theorem gaAnswer_token {p : GetAssertionParams} {param : Bytes} {a : GetAssertionAnswer}
    (h : cborGetAssertion (.params p) d = (.ok a, d')) (hparam : p.pinUvAuthParam = some param) :
    ParamVerified p.pinUvAuthProtocol (p.clientDataHash.getD []) param permissionGa p.rpIdHash d ∧
      BoundTo p.rpIdHash d'.paut ∧ (a.authData.Up → Spent d'.paut) := by
  obtain ⟨uv, found, creds, count, up, choice, s₁, s₂, s₃, h₁, h₂, h₃, h₄⟩ := firstAssertion_ok (cborGetAssertion_ok h)
  obtain ⟨s, hs, hstorage⟩ := gaPrepare_ok h₁
  rcases gaVerifyParam_ok hs with ⟨hnone, -, -⟩ | ⟨param', hparam', huv, rfl, hverified⟩
  · rw [hnone] at hparam
    cases hparam
  cases hparam'.symm.trans hparam
  have hinUse : InUse s₁ := by
    rw [InUse, hstorage.paut]
    exact hverified.inUse
  have hbound : BoundTo p.rpIdHash s₁.paut := by
    rw [hstorage.paut]
    exact fun _ => ⟨rfl, rfl⟩
  refine ⟨hverified, ?_, fun hflag => ?_⟩
  · have hbound₂ := (inferInstance : Keeps (Preserves fun d => BoundTo p.rpIdHash d.paut) (gaUserPresence p)).of_run h₂ hbound
    have hbound₃ := (inferInstance : Keeps (Preserves fun d => BoundTo p.rpIdHash d.paut)
      (chooseCredential p found creds count (uv ||| up))).of_run h₃ hbound₂
    exact (inferInstance : Keeps (Preserves fun d => BoundTo p.rpIdHash d.paut) (makeAssertion p choice _)).of_run h₄ hbound₃
  · obtain ⟨ed, hed, hflags⟩ := makeAssertion_flags h₄
    rcases gaUserPresence_spent hinUse h₂ with rfl | hspent
    · rw [AuthData.Up, hflags] at hflag
      exact absurd (up_of_flags (.inr huv) hed) hflag
    · have hspent₃ := (inferInstance : Keeps (Preserves fun d => Spent d.paut)
        (chooseCredential p found creds count (uv ||| up))).of_run h₃ hspent
      exact (inferInstance : Keeps (Preserves fun d => Spent d.paut) (makeAssertion p choice _)).of_run h₄ hspent₃

/-! ### Runs -/

/-- A request that succeeded with a pinUvAuthParam, for this RP. -/
def AuthorizedFor (h : Block 32) (t : AuthMove) : Prop :=
  (∃ p param a, t.input = .cbor (.makeCredential (.params p)) ∧ t.output = .ok (some (.makeCredential a)) ∧
    p.pinUvAuthParam = some param ∧ p.rpIdHash = h) ∨
  ∃ p param a, t.input = .cbor (.getAssertion (.params p)) ∧ t.output = .ok (some (.getAssertion a)) ∧
    p.pinUvAuthParam = some param ∧ p.rpIdHash = h

/-- The new credential is asked for without a pinUvAuthParam, or with `up` among the options. -/
def NamesUp (i : Input) : Prop :=
  ∀ p, i = .cbor (.makeCredential (.params p)) → p.pinUvAuthParam.isSome = true → p.up ≠ none

/-- The ceremonies make no change of another kind either. -/
private theorem move_keeps {R : Device → Device → Prop} [Std.Refl R] [IsTrans Device R]
    [Admits R .other] [Admits R .load] [Admits R .lower] [Admits R .stop] [Admits R .reset] [Admits R .clear]
    [Admits R .bind] [Admits R .keep] [Admits R .powerUp] {t : AuthMove} (ht : t = authenticator.move t.before t.input) :
    (∃ p, Issues p t) ∨ R t.before t.after := by
  rw [ht]
  exact (move_or_issue (fun q _ => (inferInstance : Keeps R (cborMakeCredential q)).rel _)
    fun q _ => (inferInstance : Keeps R (cborGetAssertion q)).rel _).symm

theorem mc_answered {t : AuthMove} {p : MakeCredentialParams} {a : MakeCredentialAnswer}
    (ht : t = authenticator.move t.before t.input) (hinput : t.input = .cbor (.makeCredential (.params p)))
    (hout : t.output = .ok (some (.makeCredential a))) :
    cborMakeCredential (.params p) (ticked t.before).forgotten = (.ok a, t.after) := by
  rw [hinput] at ht
  rw [ht] at hout
  obtain ⟨b, hb, hsame⟩ := map_ok (move_answered rfl hout)
  cases hsame
  rw [ht]
  exact hb

theorem ga_answered {t : AuthMove} {p : GetAssertionParams} {a : GetAssertionAnswer}
    (ht : t = authenticator.move t.before t.input) (hinput : t.input = .cbor (.getAssertion (.params p)))
    (hout : t.output = .ok (some (.getAssertion a))) :
    cborGetAssertion (.params p) (ticked t.before).forgotten = (.ok a, t.after) := by
  rw [hinput] at ht
  rw [ht] at hout
  obtain ⟨b, hb, hsame⟩ := map_ok (move_answered rfl hout)
  cases hsame
  rw [ht]
  exact hb

private theorem AuthorizedFor.bound {t : AuthMove} (h : AuthorizedFor rpIdHash t)
    (ht : t = authenticator.move t.before t.input) :
    BoundTo rpIdHash t.after.paut ∧ (ticked t.before).paut.inUse = true ∧
      ((ticked t.before).paut.hasRpId = true → (ticked t.before).paut.rpIdHash = rpIdHash) := by
  rcases h with ⟨p, param, a, hinput, hout, hparam, rfl⟩ | ⟨p, param, a, hinput, hout, hparam, rfl⟩
  · obtain ⟨hverified, hbound, -⟩ := mcAnswer_token (mc_answered ht hinput hout) hparam
    exact ⟨hbound, hverified.inUse, hverified.bound⟩
  · obtain ⟨hverified, hbound, -⟩ := gaAnswer_token (ga_answered ht hinput hout) hparam
    exact ⟨hbound, hverified.inUse, hverified.bound⟩

/-- In every run, between the issue of a token and the next one, what the token authorizes is for one RP, and for the
one it was issued for where it was issued for one. -/
theorem one_token_one_rp {is : List Input} {before mid after : List AuthMove} {t u : AuthMove}
    (htrace : authenticator.trace d is = before ++ t :: (mid ++ u :: after))
    (hno : ∀ v ∈ mid, ¬ ∃ p, Issues p v) (hu : AuthorizedFor h' u) :
    (∀ h, AuthorizedFor h t → h = h') ∧ ∀ p rpId, Issues p t → p.rpId = some rpId → Sdk.sha256 rpId = h' := by
  have ht := Machine.trace_move (show t ∈ authenticator.trace d is by simp [htrace])
  have hu' := Machine.trace_move (show u ∈ authenticator.trace d is by simp [htrace])
  obtain ⟨-, hinUse, hbound⟩ := hu.bound hu'
  have same : ∀ h, BoundTo h t.after.paut → h = h' := fun h hnow => by
    have hbefore : BoundTo h u.before.paut :=
      Machine.trace_between (I := fun d : Device => BoundTo h d.paut) (fun v hv hb =>
        (move_keeps (R := Preserves fun d => BoundTo h d.paut) (Machine.trace_move hv)).imp_right fun hkeeps => hkeeps hb)
        htrace hnow hno
    have hticked : BoundTo h (ticked u.before).paut :=
      (inferInstance : Keeps (Preserves fun d => BoundTo h d.paut) (pinUvAuthTokenTick : CtapOp Unit)).rel u.before hbefore
    obtain ⟨hrp, rfl⟩ := hticked hinUse
    exact hbound hrp
  refine ⟨fun h hauth => same h (hauth.bound ht).1, fun p rpId hissues hrp => same _ fun _ => ?_⟩
  exact (hissues.issued ht).bound rpId hrp

/-- A request that succeeded with the UP bit, authorized by the token. -/
def Paid (t : AuthMove) : Prop := ∃ a, authDataOf t.output = some a ∧ a.Up ∧ (VerifiedMc t ∨ VerifiedGa t)

private theorem Paid.spent {t : AuthMove} (hpaid : Paid t) (ht : t = authenticator.move t.before t.input)
    (hnamed : NamesUp t.input) : Spent t.after.paut := by
  obtain ⟨a, ha, hup, hverified⟩ := hpaid
  obtain ⟨response, hout⟩ : ∃ response, t.output = .ok (some response) := by
    rcases ho : t.output with e | (_ | response)
    · rw [ho] at ha; cases ha
    · rw [ho] at ha; cases ha
    · exact ⟨response, rfl⟩
  have hanswer := hout
  rw [hout] at ha
  rcases hverified with ⟨p, param, hinput, hparam, -⟩ | ⟨p, param, hinput, hparam, -⟩ <;>
    (rw [ht, hinput] at hanswer; obtain ⟨m, -, rfl⟩ := map_ok (move_answered rfl hanswer); cases ha)
  · exact (mcAnswer_token (mc_answered ht hinput hout) hparam).2.2 (hnamed p hinput (hparam ▸ rfl))
  · exact (gaAnswer_token (ga_answered ht hinput hout) hparam).2.2 hup

/-- In every run in which new credentials are asked for without a pinUvAuthParam or with `up` among the options, a
token that has paid for a ceremony authorizes no other before the next is issued. -/
theorem token_pays_once {is : List Input} (hnamed : ∀ t ∈ authenticator.trace d is, NamesUp t.input)
    {before mid after : List AuthMove} {t u : AuthMove}
    (htrace : authenticator.trace d is = before ++ t :: (mid ++ u :: after)) (hno : ∀ v ∈ mid, ¬ ∃ p, Issues p v)
    (hpaid : Paid t) : Spent u.before.paut ∧ ¬ VerifiedMc u ∧ ¬ VerifiedGa u := by
  have hmem : t ∈ authenticator.trace d is := by simp [htrace]
  have hspent : Spent u.before.paut :=
    Machine.trace_between (I := fun d : Device => Spent d.paut) (fun v hv hs =>
      (move_keeps (R := Preserves fun d => Spent d.paut) (Machine.trace_move hv)).imp_right fun hkeeps => hkeeps hs)
      htrace (hpaid.spent (Machine.trace_move hmem) (hnamed t hmem)) hno
  have hticked : Spent (ticked u.before).paut :=
    (inferInstance : Keeps (Preserves fun d => Spent d.paut) (pinUvAuthTokenTick : CtapOp Unit)).rel u.before hspent
  refine ⟨hspent, ?_, ?_⟩
  · rintro ⟨_, _, -, -, hverified⟩
    exact hverified.permitted hticked.mc
  · rintro ⟨_, _, -, -, hverified⟩
    exact hverified.permitted hticked.ga

end
section Plain
attribute [local instance] plainSdk plainLibrary

/-- Two requests for a credential under one token. -/
def tokenThenTwice (p : MakeCredentialParams) : List Input :=
  [tokenRequest 0x5 0 none, .cbor (.makeCredential (.params p)), .cbor (.makeCredential (.params p))]

def secondCredential (p : MakeCredentialParams) : AuthMove :=
  authenticator.move (authenticate (.cbor (.makeCredential (.params p))) verifiedDevice).2 (.cbor (.makeCredential (.params p)))

private theorem tokenThenTwice_trace (p : MakeCredentialParams) :
    authenticator.trace optionalPinDevice.boot (tokenThenTwice p) =
      [authenticator.move optionalPinDevice.boot (tokenRequest 0x5 0 none)] ++
        credentialAfterToken p :: ([] ++ secondCredential p :: []) := rfl

private theorem authorizedFor_of_made {t : AuthMove} {p : MakeCredentialParams} {param : Bytes}
    (hinput : t.input = .cbor (.makeCredential (.params p))) (hparam : p.pinUvAuthParam = some param)
    (h : (match t.output with
      | .ok (some (.makeCredential _)) => true
      | _ => false) = true) : AuthorizedFor p.rpIdHash t := by
  split at h
  · exact .inl ⟨p, param, _, hinput, ‹_›, hparam, rfl⟩
  · cases h

theorem two_credentials_one_rp :
    AuthorizedFor verifiedMakeCredential.rpIdHash (secondCredential verifiedMakeCredential) ∧
      (∀ h, AuthorizedFor h (credentialAfterToken verifiedMakeCredential) → h = verifiedMakeCredential.rpIdHash) ∧
      ∀ p rpId, Issues p (credentialAfterToken verifiedMakeCredential) → p.rpId = some rpId →
        Sdk.sha256 rpId = verifiedMakeCredential.rpIdHash := by
  have hauthorized : AuthorizedFor verifiedMakeCredential.rpIdHash (secondCredential verifiedMakeCredential) :=
    authorizedFor_of_made rfl rfl (by decide +kernel)
  exact ⟨hauthorized, one_token_one_rp (tokenThenTwice_trace _) (by simp) hauthorized⟩

private theorem verifiedMc_of_param {d : Device} {p : MakeCredentialParams} {param : Bytes}
    (hparam : p.pinUvAuthParam = some param)
    (h : verify p.pinUvAuthProtocol.toUInt8 (ticked d).paut.data (p.clientDataHash.getD []) param = true ∧
      (ticked d).paut.permissions &&& permissionMc ≠ 0 ∧ (ticked d).paut.inUse = true ∧
      (ticked d).paut.userVerified = true ∧ ((ticked d).paut.hasRpId = true → (ticked d).paut.rpIdHash = p.rpIdHash)) :
    VerifiedMc (authenticator.move d (.cbor (.makeCredential (.params p)))) :=
  ⟨p, param, rfl, hparam, h.1, h.2.1, h.2.2.2.2, h.2.2.1, h.2.2.2.1⟩

private theorem paid_of_flags {t : AuthMove} (hverified : VerifiedMc t)
    (h : ((authDataOf t.output).any fun a => decide a.Up) = true) : Paid t := by
  obtain ⟨a, ha, hup⟩ := (Option.any_eq_true _ _).mp h
  exact ⟨a, ha, of_decide_eq_true hup, .inl hverified⟩

/-- The request with `up` among the options. -/
def namedMakeCredential : MakeCredentialParams := { verifiedMakeCredential with options := some ⟨none, some true, none⟩ }

theorem named_credential_spends :
    Paid (credentialAfterToken namedMakeCredential) ∧ Spent (secondCredential namedMakeCredential).before.paut ∧
      ¬ VerifiedMc (secondCredential namedMakeCredential) ∧ ¬ VerifiedGa (secondCredential namedMakeCredential) := by
  have hpaid : Paid (credentialAfterToken namedMakeCredential) :=
    paid_of_flags (verifiedMc_of_param rfl (by decide +kernel)) (by decide +kernel)
  have hnamed : ∀ t ∈ authenticator.trace optionalPinDevice.boot (tokenThenTwice namedMakeCredential), NamesUp t.input := by
    intro t ht p hp _
    simp only [tokenThenTwice_trace, List.mem_append, List.mem_cons, List.not_mem_nil, or_false, false_or] at ht
    rcases ht with rfl | rfl | rfl
    · cases hp
    · cases hp
      exact (by decide)
    · cases hp
      exact (by decide)
  exact ⟨hpaid, token_pays_once hnamed (tokenThenTwice_trace _) (by simp) hpaid⟩

/-- A request without options sets the UP bit and leaves the token good for the next one. -/
theorem token_pays_twice :
    ∃ before t mid u after, authenticator.trace optionalPinDevice.boot (tokenThenTwice verifiedMakeCredential) =
        before ++ t :: (mid ++ u :: after) ∧ (∀ v ∈ mid, ¬ ∃ p, Issues p v) ∧ Paid t ∧ VerifiedMc u ∧ Paid u :=
  have hfirst : VerifiedMc (credentialAfterToken verifiedMakeCredential) := verifiedMc_of_param rfl (by decide +kernel)
  have hsecond : VerifiedMc (secondCredential verifiedMakeCredential) := verifiedMc_of_param rfl (by decide +kernel)
  ⟨_, _, _, _, _, tokenThenTwice_trace _, by simp, paid_of_flags hfirst (by decide +kernel), hsecond,
    paid_of_flags hsecond (by decide +kernel)⟩

end Plain
end FidoTouch.Ctap
