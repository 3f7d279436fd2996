import FidoTouch.Ctap.Verification

/-! The issue of a pinUvAuthToken by clientPIN. Between two issues an input makes only the other
kinds of change, so that what these keep holds until the next issue. -/
namespace FidoTouch.Ctap
open FidoTouch.Program Handler FidoTouch.Storage

-- The search for `Keeps` follows whole commands.
set_option synthInstance.maxSize 4096

variable {ε α : Type} {d d' : Device}

/-- The request is one for a pinUvAuthToken, not for the persistent one. -/
def ClientPinParams.AsksToken (p : ClientPinParams) : Prop :=
  (p.subcommand = 0x9 ∨ p.subcommand = 0x5) ∧ p.permissions &&& 0x40 = 0

/-- The move issues a pinUvAuthToken. -/
def Issues (p : ClientPinParams) (t : AuthMove) : Prop :=
  t.input = .cbor (.clientPin (.params p)) ∧ p.AsksToken ∧ ∃ enc, t.output = .ok (some (.clientPin (.pinUvAuthToken enc)))

variable [Sdk]

/-- What a token is right after its issue. -/
structure Issued (p : ClientPinParams) (t : PinUvAuthToken) : Prop where
  permissions : t.permissions = grantedPermissions p
  bound : ∀ rpId, p.rpId = some rpId → t.hasRpId = true ∧ t.rpIdHash = Sdk.sha256 rpId

/-! ### The command -/

omit [Sdk] in
/-- The branch of the command that gives out tokens. -/
private theorem subcommand_token {p : ClientPinParams} (hsub : p.subcommand = 0x9 ∨ p.subcommand = 0x5) :
    p.subcommand ≠ 0x0 ∧ p.subcommand ≠ 0x1 ∧ p.subcommand ≠ 0x2 ∧ p.subcommand ≠ 0x3 ∧ p.subcommand ≠ 0x4 := by
  rcases hsub with h | h <;> (rw [h]; decide)

private theorem issueToken_ok {p : ClientPinParams} {token : Bytes} (h : (issueToken p : CtapOp Bytes) d = (.ok token, d')) :
    Issued p d'.paut := by
  obtain ⟨_, s, -, h⟩ := bind_ok h
  obtain ⟨_, t, ht, h⟩ := bind_ok h
  obtain ⟨-, rfl⟩ := gets_ok h
  cases ht
  refine ⟨rfl, fun rpId hrp => ?_⟩
  rw [hrp]
  exact ⟨rfl, rfl⟩

private theorem getPinToken_ok {p : ClientPinParams} {enc : Bytes} (hpersistent : p.permissions &&& 0x40 = 0)
    (h : getPinToken p d = (.ok enc, d')) : Issued p d'.paut := by
  obtain ⟨_, _, -, h⟩ := bind_ok h
  obtain ⟨sharedSecret, _, -, h⟩ := bind_ok h
  obtain ⟨_, _, -, h⟩ := bind_ok h
  obtain ⟨_, _, -, h⟩ := bind_ok h
  obtain ⟨_, _, -, h⟩ := bind_ok h
  obtain ⟨_, _, -, h⟩ := bind_ok h
  obtain ⟨-, h⟩ := refuseIf_bind_ok h
  obtain ⟨-, h⟩ := refuseIf_bind_ok h
  obtain ⟨token, s, hs, h⟩ := bind_ok h
  obtain ⟨enc', t, ht, h⟩ := bind_ok h
  rw [grantToken, if_neg (not_not.mpr hpersistent)] at hs
  cases h
  have hpaut : t.paut = s.paut :=
    ((inferInstance : Keeps OnlyStorage (encrypt p.protocol sharedSecret (readPast 32 token) : CtapOp Bytes)).of_run ht).paut
  exact hpaut ▸ issueToken_ok hs

private theorem cborClientPin_issued {p : ClientPinParams} {enc : Bytes} (hasks : p.AsksToken)
    (h : cborClientPin (.params p) d = (.ok (.pinUvAuthToken enc), d')) : Issued p d'.paut := by
  obtain ⟨_, _, -, h⟩ := bind_ok h
  obtain ⟨_, s, -, h⟩ := bind_ok h
  obtain ⟨q, _, hq, h⟩ := bind_ok h
  obtain ⟨hq, rfl⟩ := ofExcept_ok hq
  cases hq
  obtain ⟨h0, h1, h2, h3, h4⟩ := subcommand_token hasks.1
  rw [if_neg h0, if_neg h1, if_neg h2, if_neg h3, if_neg h4, if_pos hasks.1] at h
  obtain ⟨enc', t, ht, h⟩ := bind_ok h
  obtain ⟨-, rfl⟩ := pure_ok h
  exact getPinToken_ok hasks.2 ht

section
variable {R : Device → Device → Prop} [Std.Refl R] [IsTrans Device R] [Admits R .other]

theorem encrypt_run (protocol : UInt8) (key input : Bytes) (d : Device) :
    ∃ enc d', (encrypt protocol key input : Handler Device ε Bytes) d = (.ok enc, d') := by
  unfold encrypt
  split
  · exact ⟨_, _, rfl⟩
  · split <;> exact ⟨_, _, rfl⟩

variable [Admits R .reset]

/-- The command ends with a token given out. -/
private def Grants (p : ClientPinParams) (run : Except CtapError α × Device) : Prop := p.AsksToken ∧ ∃ a, run.1 = .ok a

/-- Once the token is issued nothing fails any more. -/
private theorem answerToken_grants {p : ClientPinParams} (hsub : p.subcommand = 0x9 ∨ p.subcommand = 0x5)
    (sharedSecret : Bytes) (d : Device) : R d (answerToken p sharedSecret d).2 ∨ Grants p (answerToken p sharedSecret d) := by
  unfold answerToken
  refine Keeps.bind_or inferInstance fun files s _ => Keeps.bind_or inferInstance fun _ s _ =>
    Keeps.bind_or inferInstance fun _ s _ => ?_
  by_cases hpersistent : p.permissions &&& 0x40 = 0
  · rw [grantToken, if_neg (not_not.mpr hpersistent), issueToken, bind_assoc, bind_assoc]
    refine Keeps.bind_or inferInstance fun _ t _ => .inr ⟨⟨hsub, hpersistent⟩, ?_⟩
    obtain ⟨u, hu⟩ : ∃ u, (beginToken p : CtapOp Unit) t = (.ok (), u) := ⟨_, rfl⟩
    obtain ⟨enc, v, hv⟩ := encrypt_run p.protocol sharedSecret (readPast 32 u.paut.data) u
    rw [bind_eq hu, bind_eq (gets_run _ u), bind_eq hv]
    exact ⟨enc, rfl⟩
  · rw [grantToken, if_pos hpersistent]
    exact .inl ((inferInstance : Keeps R _).rel s)

private theorem getPinToken_grants {p : ClientPinParams} (hsub : p.subcommand = 0x9 ∨ p.subcommand = 0x5) (d : Device) :
    R d (getPinToken p d).2 ∨ Grants p (getPinToken p d) := by
  unfold getPinToken
  exact Keeps.bind_or inferInstance fun d' s _ => Keeps.bind_or inferInstance fun sharedSecret s _ =>
    Keeps.bind_or inferInstance fun _ s _ => Keeps.bind_or inferInstance fun _ s _ =>
    Keeps.bind_or inferInstance fun _ s _ => answerToken_grants hsub sharedSecret s

/-- A run of clientPIN that has given out the token of its request. -/
private def GrantsRequest (request : Parsed ClientPinParams) (run : Except CtapError ClientPinAnswer × Device) : Prop :=
  ∃ p, request = .params p ∧ p.AsksToken ∧ ∃ enc, run.1 = .ok (.pinUvAuthToken enc)

/-- A request to clientPIN makes changes of the other kinds only, or it gives out a token. -/
private theorem cborClientPin_grants (request : Parsed ClientPinParams) (d : Device) :
    R d (cborClientPin request d).2 ∨ GrantsRequest request (cborClientPin request d) := by
  unfold cborClientPin
  split
  · exact .inl ((inferInstance : Keeps R _).rel d)
  · refine Keeps.bind_or inferInstance fun d' s _ => Keeps.bind_or inferInstance fun _ s _ =>
      Keeps.bind_or inferInstance fun p s hp => ?_
    by_cases hsub : p.subcommand = 0x9 ∨ p.subcommand = 0x5
    · obtain ⟨h0, h1, h2, h3, h4⟩ := subcommand_token hsub
      rw [if_neg h0, if_neg h1, if_neg h2, if_neg h3, if_neg h4, if_pos hsub]
      have hrel := getPinToken_grants (R := R) hsub s
      rw [bind_run]
      rcases hrun : getPinToken p s with ⟨e | enc, t⟩ <;> rw [hrun] at hrel <;> rcases hrel with h | ⟨hasks, a, ha⟩
      · exact .inl h
      · cases ha
      · exact .inl h
      · exact .inr ⟨p, Parsed.eq_params (ofExcept_ok hp).1, hasks, enc, rfl⟩
    · refine .inl ?_
      rw [if_neg hsub]
      exact (inferInstance : Keeps R _).rel s

/-! ### One input -/

variable [ObjectLibrary] [Admits R .load] [Admits R .keep]

private theorem cborCommand_grants {r : Request} {d : Device}
    (hmc : ∀ q, r = .makeCredential q → R d (cborMakeCredential q d).2)
    (hga : ∀ q, r = .getAssertion q → R d (cborGetAssertion q d).2) :
    R d (cborCommand r d).2 ∨ ∃ p, r = .clientPin (.params p) ∧ p.AsksToken ∧
      ∃ enc, (cborCommand r d).1 = .ok (.clientPin (.pinUvAuthToken enc)) := by
  cases r with
  | makeCredential q =>
    rw [cborCommand, map_snd]
    exact .inl (hmc q rfl)
  | getAssertion q =>
    rw [cborCommand, map_snd]
    exact .inl (hga q rfl)
  | clientPin q =>
    rw [cborCommand, map_snd]
    refine (cborClientPin_grants q d).imp_right ?_
    rintro ⟨p, rfl, hasks, enc, henc⟩
    refine ⟨p, rfl, hasks, enc, ?_⟩
    rw [map_run, run_of_ok henc]
  | getNextAssertion => exact .inl ((inferInstance : Keeps R (Response.getAssertion <$> cborGetNextAssertion)).rel d)
  | credMgmt q => exact .inl ((inferInstance : Keeps R (Response.credMgmt <$> cborCredMgmt q)).rel d)
  | largeBlobs q => exact .inl ((inferInstance : Keeps R (Response.largeBlobs <$> cborLargeBlobs q)).rel d)
  | config q | reset | selection | getInfo | unknown =>
    rw [cborCommand]
    exact .inl ((inferInstance : Keeps R _).rel d)

variable [Admits R .lower] [Admits R .stop] [Admits R .powerUp]

/-- What an input does to the token unless it issues one, given what the two ceremonies do. -/
theorem move_or_issue {d : Device} {i : Input}
    (hmc : ∀ q, i = .cbor (.makeCredential q) → R (ticked d).forgotten (cborMakeCredential q (ticked d).forgotten).2)
    (hga : ∀ q, i = .cbor (.getAssertion q) → R (ticked d).forgotten (cborGetAssertion q (ticked d).forgotten).2) :
    R d (authenticator.move d i).after ∨ ∃ p, Issues p (authenticator.move d i) := by
  cases i with
  | cbor r =>
    have htick : R d (ticked d) := (inferInstance : Keeps R (pinUvAuthTokenTick : CtapOp Unit)).rel d
    have hforget : R d (ticked d).forgotten := IsTrans.trans _ _ _ htick ((inferInstance : Admits R .keep).rel ⟨rfl, fun h => absurd rfl h⟩)
    have hafter : (authenticator.move d (.cbor r)).after = (cborParse r d).2 := map_snd _ _ _
    rw [hafter, cborParse_run]
    by_cases hrefused : capSupported (ticked d).files capFido2 = false
    · rw [if_pos hrefused]
      exact .inl htick
    rw [if_neg hrefused]
    by_cases hends : continuesAssertion r = false
    · rw [if_pos hends]
      rcases cborCommand_grants (fun q hq => hmc q (hq ▸ rfl)) (fun q hq => hga q (hq ▸ rfl)) with
        h | ⟨p, rfl, hasks, enc, henc⟩
      · exact .inl (IsTrans.trans _ _ _ hforget h)
      · refine .inr ⟨p, rfl, hasks, enc, ?_⟩
        simp only [Machine.move, authenticator, authenticate, map_run, cborParse_run]
        rw [if_neg hrefused, if_pos hends, run_of_ok henc]
    · rw [if_neg hends]
      cases r with
      | getNextAssertion =>
        exact .inl (IsTrans.trans _ _ _ htick
          ((inferInstance : Keeps R (Response.getAssertion <$> cborGetNextAssertion)).rel (ticked d)))
      | _ => exact absurd rfl hends
  | vendor cmd p => exact .inl ((inferInstance : Keeps R (some <$> vendorParse cmd p)).rel d)
  | emptyMessage => exact .inl ((inferInstance : Keeps R (some <$> emptyMessage)).rel d)
  | elapse ms => exact .inl ((inferInstance : Admits R .other).rel ⟨rfl, fun _ _ => rfl⟩)
  | powerCycle =>
    have hup : R d d.powerUp := (inferInstance : Admits R .powerUp).rel ⟨rfl, fun _ h => absurd rfl h⟩
    exact .inl (IsTrans.trans _ _ _ hup ((inferInstance : Keeps R (initFido : Handler Device PicoError Unit)).rel d.powerUp))

end

/-- A token that a move issues is what its request asked for. -/
theorem Issues.issued [ObjectLibrary] {p : ClientPinParams} {t : AuthMove} (hissues : Issues p t)
    (ht : t = authenticator.move t.before t.input) : Issued p t.after.paut := by
  obtain ⟨hinput, hasks, enc, hout⟩ := hissues
  rw [ht, hinput] at hout
  obtain ⟨a, ha, henc⟩ := map_ok (move_answered rfl hout)
  cases henc
  rw [ht, hinput]
  exact cborClientPin_issued hasks ha

end FidoTouch.Ctap
