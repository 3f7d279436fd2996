import FidoTouch.Ctap.Authorization
import FidoTouch.Ctap.Steps

/-! The length of a pinUvAuthParam and of a saltAuth: `verify` is told none, so what it compares is a
matter of each request. -/
namespace FidoTouch.Ctap
open FidoTouch.Program Handler FidoTouch.Storage

/-- What a handler hands to `verify`. -/
structure MacCheck where
  protocol : UInt8
  key : Bytes
  data : Bytes
  sign : Bytes

section
variable [Sdk]

namespace MacCheck

def Accepts (c : MacCheck) : Prop := verify c.protocol c.key c.data c.sign = true

/-- The MAC that the parameter is compared with, where it comes to a comparison. -/
def mac (c : MacCheck) : Option Bytes :=
  (Sdk.mdHmac .sha256 (readPast 32 c.key) c.data).bind fun hmac =>
    if c.protocol = 1 then some (hmac.1.take 16)
    else if c.protocol = 2 then some hmac.1
    else none

/-- The comparison stays within the parameter, and nothing but the MAC passes it. -/
structure Exact (c : MacCheck) : Prop where
  inside : ∀ m, c.mac = some m → m.length ≤ c.sign.length
  only : c.Accepts → c.mac = some c.sign

/-- The parameter has the length of the MAC, or more without going on from the MAC. -/
def Fits (c : MacCheck) : Prop :=
  ∀ m, c.mac = some m → c.sign.length = m.length ∨ m.length < c.sign.length ∧ ¬ m <+: c.sign

variable {c : MacCheck} {m : Bytes}

theorem mac_length (h : c.mac = some m) : m.length = if c.protocol = 1 then 16 else 32 := by
  obtain ⟨hmac, -, h⟩ := Option.bind_eq_some_iff.mp h
  split at h
  · rename_i hone
    cases h
    rw [if_pos hone, List.length_take, hmac.2]
    rfl
  · rename_i hone
    rw [Option.ite_none_right_eq_some] at h
    cases h.2
    rw [if_neg hone]
    exact hmac.2

theorem accepts_iff : c.Accepts ↔ ∃ m, c.mac = some m ∧ readPast m.length c.sign = m := by
  unfold Accepts verify mac
  cases hhmac : Sdk.mdHmac .sha256 (readPast 32 c.key) c.data with
  | none => simp
  | some hmac =>
    have hlen : hmac.1.length = 32 := hmac.2
    by_cases hone : c.protocol = 1
    · simp [hone, hlen]
    · by_cases htwo : c.protocol = 2 <;> simp [hone, htwo, hlen]

/-- Within the parameter the comparison asks only how it begins. -/
theorem acceptsPrefix (hmac : c.mac = some m) (h : m.length ≤ c.sign.length) : c.Accepts ↔ m <+: c.sign := by
  rw [accepts_iff, List.prefix_iff_eq_take]
  constructor
  · rintro ⟨n, hn, heq⟩
    cases hmac.symm.trans hn
    rw [← readPast_take h, heq]
  · exact fun heq => ⟨m, hmac, (readPast_take h).trans heq.symm⟩

theorem exact_iff : c.Exact ↔ c.Fits := by
  constructor
  · intro h m hmac
    rcases Nat.eq_or_lt_of_le (h.inside m hmac) with heq | hlt
    · exact .inl heq.symm
    · refine .inr ⟨hlt, fun hprefix => Nat.ne_of_lt hlt ?_⟩
      have hsign := hmac.symm.trans (h.only ((acceptsPrefix hmac (h.inside m hmac)).mpr hprefix))
      rw [Option.some.inj hsign]
  · intro h
    have hinside : ∀ m, c.mac = some m → m.length ≤ c.sign.length := fun m hmac =>
      (h m hmac).elim (fun heq => Nat.le_of_eq heq.symm) fun hlong => Nat.le_of_lt hlong.1
    refine ⟨hinside, fun haccepts => ?_⟩
    obtain ⟨m, hmac, -⟩ := accepts_iff.mp haccepts
    have hprefix := (acceptsPrefix hmac (hinside m hmac)).mp haccepts
    rcases h m hmac with heq | ⟨-, hother⟩
    · rw [hmac, hprefix.eq_of_length heq.symm]
    · exact absurd hprefix hother

end MacCheck

end

/-! ### The requests -/

/-- What comes with a MAC; the hmac-secret extension asks for the seed of its credential too. -/
inductive AuthRequest where
  | makeCredential (p : MakeCredentialParams)
  | getAssertion (p : GetAssertionParams)
  | credMgmt (p : CredMgmtParams)
  | setPin (p : ClientPinParams)
  | changePin (p : ClientPinParams)
  | hmacSecret (h : HmacSecretParams) (seed : Bytes) (uv : Bool)

namespace CredMgmtParams

/-- Reading goes by either token. -/
def Reads (p : CredMgmtParams) : Prop :=
  p.subcommand = 0x01 ∨ p.subcommand = 0x02 ∨ p.subcommand = 0x04 ∧ p.rpIdHash ≠ none

def Writes (p : CredMgmtParams) : Prop :=
  p.credentialId ≠ none ∧ (p.subcommand = 0x06 ∨ p.subcommand = 0x07 ∧ p.userId ≠ none)

end CredMgmtParams

section
variable [Sdk] [ObjectLibrary]

namespace AuthRequest

/-- The part of the handler that the check belongs to. -/
def run : AuthRequest → CtapOp Unit
  | makeCredential p => (fun _ => ()) <$> mcPrepare p
  | getAssertion p => (fun _ => ()) <$> gaPrepare p
  | credMgmt p => (fun _ => ()) <$> cborCredMgmt (.params p)
  | setPin p => Ctap.setPin p
  | changePin p => Ctap.changePin p
  | hmacSecret h seed uv => (fun _ => ()) <$> hmacSecretOutput h seed uv

/-- The checks that a request comes to: each where the conditions before it let the request through. -/
inductive Makes (d : Device) : AuthRequest → MacCheck → Prop
  | makeCredential {p : MakeCredentialParams} {param : Bytes} {curve alg : Int}
      (hhmac : hmacSecretMcChecks p = .ok ())
      (hparam : pinUvAuthParamChecks p.pinUvAuthParam p.pinUvAuthProtocol d = (.ok (), d))
      (halg : selectAlgorithm p = .ok (curve, alg)) (hoptions : optionChecks d.files p = .ok ())
      (huv : uvChecks d.files p = .ok ()) (hatt : attestationChecks d.files p = .ok ())
      (hsome : p.pinUvAuthParam = some param) :
      Makes d (.makeCredential p) ⟨p.pinUvAuthProtocol.toUInt8, d.paut.data, p.clientDataHash.getD [], param⟩
  | getAssertion {p : GetAssertionParams} {param : Bytes} (hrequired : gaRequired p = .ok ())
      (hparam : pinUvAuthParamChecks p.pinUvAuthParam p.pinUvAuthProtocol d = (.ok (), d))
      (hoptions : gaOptionChecks p = .ok ()) (hsome : p.pinUvAuthParam = some param) :
      Makes d (.getAssertion p) ⟨p.pinUvAuthProtocol.toUInt8, d.paut.data, p.clientDataHash.getD [], param⟩
  | persistent {p : CredMgmtParams} (hchecks : credMgmtChecks p = .ok ()) (hreads : p.Reads) :
      Makes d (.credMgmt p) ⟨p.protocol, d.ppaut.data, p.verifyPayload, p.param⟩
  | token {p : CredMgmtParams} (hchecks : credMgmtChecks p = .ok ())
      (hwrites : p.Writes ∨ p.Reads ∧ ¬ MacCheck.Accepts ⟨p.protocol, d.ppaut.data, p.verifyPayload, p.param⟩) :
      Makes d (.credMgmt p) ⟨p.protocol, d.paut.data, p.verifyPayload, p.param⟩
  | setPin {p : ClientPinParams} {sharedSecret : Bytes}
      (hpresent : ¬ (p.kax = none ∨ p.kay = none ∨ p.pinUvAuthProtocol = 0 ∨ p.newPinEnc = none ∨
        p.pinUvAuthParam = none ∨ p.alg = 0))
      (hprotocol : ¬ (p.pinUvAuthProtocol ≠ 1 ∧ p.pinUvAuthProtocol ≠ 2)) (hrecord : pinRecord d.files = none)
      (hfits : p.newPinEncFits = true) (hsecret : p.sharedSecret d = some sharedSecret) :
      Makes d (.setPin p) ⟨p.protocol, sharedSecret, p.newPin, p.param⟩
  | changePin {p : ClientPinParams} {stored sharedSecret : Bytes}
      (hpresent : ¬ (p.kax = none ∨ p.kay = none ∨ p.pinUvAuthProtocol = 0 ∨ p.newPinEnc = none ∨
        p.pinUvAuthParam = none ∨ p.alg = 0 ∨ p.pinHashEnc = none))
      (hprotocol : ¬ (p.pinUvAuthProtocol ≠ 1 ∧ p.pinUvAuthProtocol ≠ 2))
      (hrecord : pinRecord d.files = some stored) (hretries : byteAt stored 0 ≠ 0)
      (hfits : ¬ (p.newPinEncFits = false ∨ p.pinHashEncFits = false)) (hlen : ¬ p.newPinPlainLen > 256)
      (hcycle : d.needsPowerCycle = false) (hsecret : p.sharedSecret d = some sharedSecret) :
      Makes d (.changePin p) ⟨p.protocol, sharedSecret, p.newPin ++ p.pinHash, p.param⟩
  | hmacSecret {h : HmacSecretParams} {seed sharedSecret : Bytes} {uv : Bool}
      (hsecret : ecdh d h.protocol (h.kax.getD []) (h.kay.getD []) = some sharedSecret) :
      Makes d (.hmacSecret h seed uv) ⟨h.protocol, sharedSecret, h.saltEnc.getD [], h.saltAuth.getD []⟩

/-- The requests that come to nothing without a MAC. -/
def Asks : AuthRequest → Prop
  | makeCredential p => p.pinUvAuthParam ≠ none
  | getAssertion p => p.pinUvAuthParam ≠ none
  | credMgmt p => p.subcommand = 0x01 ∨ p.subcommand = 0x02 ∨ p.subcommand = 0x04 ∨ p.subcommand = 0x06 ∨
      p.subcommand = 0x07
  | _ => True

variable {d : Device} {r : AuthRequest} {c : MacCheck}

section
omit [ObjectLibrary]

omit [Sdk] in
private theorem refuses_discard {α : Type} {x : CtapOp α} (h : Refuses x d) : Refuses ((fun _ => ()) <$> x) d := by
  obtain ⟨e, h⟩ := h
  exact ⟨e, by rw [map_run, h]⟩

private theorem refuseParam_refuses {protocol : UInt64} {data param : Bytes}
    (h : ¬ MacCheck.Accepts ⟨protocol.toUInt8, d.paut.data, data, param⟩) : Refuses (refuseParam protocol data param) d := by
  unfold refuseParam Refuses
  rw [bind_eq (get_run d)]
  exact refuses_refuseIf (Bool.eq_false_iff.mpr h) _ d

end

/-- A request whose checks all fail is refused on the spot. -/
theorem Makes.refuses (hmakes : Makes d r c) (hfail : ∀ c, Makes d r c → ¬ c.Accepts) : Refuses r.run d := by
  have hrefused := hfail c hmakes
  cases hmakes with
  | makeCredential hhmac hparam halg hoptions huv hatt hsome =>
    refine refuses_discard ?_
    unfold mcPrepare Refuses
    rw [hhmac, ofExcept_ok_bind, bind_eq hparam, halg, ofExcept_ok_bind]
    dsimp only
    rw [bind_eq (getFiles_run d), hoptions, ofExcept_ok_bind, huv, ofExcept_ok_bind, hatt, ofExcept_ok_bind,
      mcVerifyParam, hsome]
    exact ((refuseParam_refuses hrefused).bind _).bind _
  | getAssertion hrequired hparam hoptions hsome =>
    refine refuses_discard ?_
    unfold gaPrepare Refuses
    rw [hrequired, ofExcept_ok_bind, bind_eq hparam, hoptions, ofExcept_ok_bind, gaVerifyParam, hsome]
    exact ((refuseParam_refuses hrefused).bind _).bind _
  | persistent hchecks hreads =>
    refine refuses_discard (cborCredMgmt_refuses (fun hpassed => ?_) ?_)
    · rcases hpassed with hread | hpaut
      · exact hrefused hread.verified
      · exact hfail _ (.token hchecks (.inr ⟨hreads, hrefused⟩)) hpaut.1
    · rcases hreads with h | h | h
      exacts [.inl h, .inr (.inl h), .inr (.inr (.inl h.1))]
  | token hchecks hwrites =>
    refine refuses_discard (cborCredMgmt_refuses (fun hpassed => ?_) ?_)
    · rcases hpassed with hread | hpaut
      · rcases hwrites with ⟨-, h | h⟩ | ⟨-, hother⟩
        · exact absurd hread.subcommand (by rw [h]; decide)
        · exact absurd hread.subcommand (by rw [h.1]; decide)
        · exact hother hread.verified
      · exact hrefused hpaut.1
    · rcases hwrites with ⟨-, h | h⟩ | ⟨h | h | h, -⟩
      exacts [.inr (.inr (.inr (.inl h))), .inr (.inr (.inr (.inr h.1))), .inl h, .inr (.inl h),
        .inr (.inr (.inl h.1))]
  | @setPin p sharedSecret hpresent hprotocol hrecord hfits hsecret =>
    have hchecks : setPinChecks d p = .error .pinAuthInvalid := by
      rw [setPinChecks, if_neg hpresent, if_neg hprotocol, hrecord, if_neg (by decide), if_neg (by simp [hfits]), hsecret]
      exact if_pos (Bool.eq_false_iff.mpr hrefused)
    change Refuses (Ctap.setPin p) d
    unfold Ctap.setPin Refuses
    rw [bind_eq (get_run d), hchecks]
    exact ⟨_, rfl⟩
  | @changePin p stored sharedSecret hpresent hprotocol hrecord hretries hfits hlen hcycle hsecret =>
    have hchecks : changePinChecks d p = .error .pinAuthInvalid := by
      rw [changePinChecks, if_neg hpresent, if_neg hprotocol, hrecord]
      simp only [if_neg hretries, if_neg hfits, if_neg hlen, hcycle, hsecret]
      exact if_pos (Bool.eq_false_iff.mpr hrefused)
    change Refuses (Ctap.changePin p) d
    unfold Ctap.changePin Refuses
    rw [bind_eq (get_run d), hchecks]
    exact ⟨_, rfl⟩
  | hmacSecret hsecret =>
    refine refuses_discard ?_
    unfold hmacSecretOutput Refuses
    rw [bind_eq (get_run d)]
    simp only [hsecret, orFail_some_bind]
    exact (refuses_refuseIf (Bool.eq_false_iff.mpr hrefused) _ d).bind _

private theorem mc_accepted {p : MakeCredentialParams} {d' : Device} {a : Int × Int × UInt8} {param : Bytes}
    (h : mcPrepare p d = (.ok a, d')) (hsome : p.pinUvAuthParam = some param) :
    ∃ c, Makes d (.makeCredential p) c ∧ c.Accepts := by
  obtain ⟨_, _, h₁, h⟩ := bind_ok h
  obtain ⟨hhmac, rfl⟩ := ofExcept_ok h₁
  obtain ⟨_, _, hparam, h⟩ := bind_ok h
  obtain ⟨-, rfl⟩ := pinUvAuthParamChecks_ok hparam
  obtain ⟨⟨curve, alg⟩, _, h₃, h⟩ := bind_ok h
  obtain ⟨halg, rfl⟩ := ofExcept_ok h₃
  dsimp only at h
  rw [bind_eq (getFiles_run d)] at h
  obtain ⟨_, _, h₄, h⟩ := bind_ok h
  obtain ⟨hoptions, rfl⟩ := ofExcept_ok h₄
  obtain ⟨_, _, h₅, h⟩ := bind_ok h
  obtain ⟨huv, rfl⟩ := ofExcept_ok h₅
  obtain ⟨_, _, h₆, h⟩ := bind_ok h
  obtain ⟨hatt, rfl⟩ := ofExcept_ok h₆
  obtain ⟨uv, s, h₇, -⟩ := bind_ok h
  refine ⟨_, .makeCredential hhmac hparam halg hoptions huv hatt hsome, ?_⟩
  rcases mcVerifyParam_ok h₇ with ⟨hnone, -⟩ | ⟨param', hparam', -, -, hverified⟩
  · rw [hsome] at hnone
    cases hnone
  · rw [hsome] at hparam'
    cases hparam'
    exact hverified.1

private theorem ga_accepted {p : GetAssertionParams} {d' : Device} {a : UInt8 × Selection × List Credential × Nat}
    {param : Bytes} (h : gaPrepare p d = (.ok a, d')) (hsome : p.pinUvAuthParam = some param) :
    ∃ c, Makes d (.getAssertion p) c ∧ c.Accepts := by
  obtain ⟨_, _, h₁, h⟩ := bind_ok h
  obtain ⟨hrequired, rfl⟩ := ofExcept_ok h₁
  obtain ⟨_, _, hparam, h⟩ := bind_ok h
  obtain ⟨-, rfl⟩ := pinUvAuthParamChecks_ok hparam
  obtain ⟨_, _, h₃, h⟩ := bind_ok h
  obtain ⟨hoptions, rfl⟩ := ofExcept_ok h₃
  obtain ⟨uv, s, h₄, -⟩ := bind_ok h
  refine ⟨_, .getAssertion hrequired hparam hoptions hsome, ?_⟩
  rcases gaVerifyParam_ok h₄ with ⟨hnone, -⟩ | ⟨param', hparam', -, -, hverified⟩
  · rw [hsome] at hnone
    cases hnone
  · rw [hsome] at hparam'
    cases hparam'
    exact hverified.1

omit [ObjectLibrary] in
private theorem token_accepted {p : CredMgmtParams} {d' : Device} {u : Unit} (h : authorizePaut p d = (.ok u, d')) :
    MacCheck.Accepts ⟨p.protocol, d.paut.data, p.verifyPayload, p.param⟩ := by
  unfold authorizePaut at h
  rw [bind_eq (get_run d)] at h
  exact (Bool.not_eq_false _).mp (refuseIf_bind_ok h).1

omit [ObjectLibrary] in
private theorem read_accepted {p : CredMgmtParams} {d' : Device} {u : Unit} (hchecks : credMgmtChecks p = .ok ())
    (hreads : p.Reads) (h : authorizeRead p d = (.ok u, d')) : ∃ c, Makes d (.credMgmt p) c ∧ c.Accepts := by
  by_cases hpersistent : verify p.protocol d.ppaut.data p.verifyPayload p.param = true
  · exact ⟨_, .persistent hchecks hreads, hpersistent⟩
  · unfold authorizeRead at h
    rw [bind_eq (get_run d), if_neg hpersistent] at h
    exact ⟨_, .token hchecks (.inr ⟨hreads, hpersistent⟩), token_accepted h⟩

private theorem credMgmt_accepted {p : CredMgmtParams} {d' : Device} {a : CredMgmtAnswer}
    (h : cborCredMgmt (.params p) d = (.ok a, d')) (hasks : (AuthRequest.credMgmt p).Asks) :
    ∃ c, Makes d (.credMgmt p) c ∧ c.Accepts := by
  obtain ⟨_, _, h₁, h⟩ := bind_ok h
  obtain ⟨hparsed, rfl⟩ := ofExcept_ok h₁
  cases hparsed
  obtain ⟨_, _, h₂, h⟩ := bind_ok h
  obtain ⟨hchecks, rfl⟩ := ofExcept_ok h₂
  rcases hasks with hs | hs | hs | hs | hs <;> simp +decide only [hs, if_true, if_false] at h
  · obtain ⟨_, _, hread, -⟩ := bind_ok h
    exact read_accepted hchecks (.inl hs) hread
  · obtain ⟨_, _, hread, -⟩ := bind_ok h
    exact read_accepted hchecks (.inr (.inl hs)) hread
  · obtain ⟨hrp, h⟩ := refuseIf_bind_ok h
    obtain ⟨_, _, hread, -⟩ := bind_ok h
    exact read_accepted hchecks (.inr (.inr ⟨hs, hrp⟩)) hread
  · obtain ⟨_, _, hdelete, -⟩ := bind_ok h
    obtain ⟨id, _, horFail, hdelete⟩ := bind_ok hdelete
    obtain ⟨hid, rfl⟩ := orFail_ok horFail
    obtain ⟨_, _, htoken, -⟩ := bind_ok hdelete
    exact ⟨_, .token hchecks (.inl ⟨by simp [hid], .inl hs⟩), token_accepted htoken⟩
  · obtain ⟨_, _, hupdate, -⟩ := bind_ok h
    obtain ⟨id, _, hfirst, hupdate⟩ := bind_ok hupdate
    obtain ⟨hid, rfl⟩ := orFail_ok hfirst
    obtain ⟨userId, _, hsecond, hupdate⟩ := bind_ok hupdate
    obtain ⟨huser, rfl⟩ := orFail_ok hsecond
    obtain ⟨_, _, htoken, -⟩ := bind_ok hupdate
    exact ⟨_, .token hchecks (.inl ⟨by simp [hid], .inr ⟨hs, by simp [huser]⟩⟩), token_accepted htoken⟩

omit [ObjectLibrary] in
private theorem setPin_accepted {p : ClientPinParams} {sharedSecret : Bytes} (h : setPinChecks d p = .ok sharedSecret) :
    ∃ c, Makes d (.setPin p) c ∧ c.Accepts := by
  unfold setPinChecks at h
  repeat' (split at h <;> try cases h)
  rename_i hpresent hprotocol hrecord hfits _ hsecret hverified
  refine ⟨_, .setPin hpresent hprotocol ?_ ?_ hsecret, (Bool.not_eq_false _).mp hverified⟩
  · simpa using hrecord
  · simpa using hfits

omit [ObjectLibrary] in
private theorem changePin_accepted {p : ClientPinParams} {sharedSecret : Bytes}
    (h : changePinChecks d p = .ok sharedSecret) : ∃ c, Makes d (.changePin p) c ∧ c.Accepts := by
  unfold changePinChecks at h
  repeat' (split at h <;> try cases h)
  rename_i hpresent hprotocol _ stored hrecord hretries hfits hlen hcycle _ hsecret hverified
  exact ⟨_, .changePin hpresent hprotocol hrecord hretries hfits hlen ((Bool.not_eq_true _).mp hcycle) hsecret,
    (Bool.not_eq_false _).mp hverified⟩

/-- Nothing that asks for a MAC gets through without one of the checks. -/
theorem accepted {u : Unit} {d' : Device} (h : r.run d = (.ok u, d')) (hasks : r.Asks) :
    ∃ c, Makes d r c ∧ c.Accepts := by
  cases r with
  | makeCredential p =>
    obtain ⟨a, h, -⟩ := map_ok h
    obtain ⟨param, hsome⟩ := Option.ne_none_iff_exists'.mp hasks
    exact mc_accepted h hsome
  | getAssertion p =>
    obtain ⟨a, h, -⟩ := map_ok h
    obtain ⟨param, hsome⟩ := Option.ne_none_iff_exists'.mp hasks
    exact ga_accepted h hsome
  | credMgmt p =>
    obtain ⟨a, h, -⟩ := map_ok h
    exact credMgmt_accepted h hasks
  | setPin p =>
    change Ctap.setPin p d = _ at h
    unfold Ctap.setPin at h
    rw [bind_eq (get_run d)] at h
    obtain ⟨_, _, hchecks, -⟩ := bind_ok h
    exact setPin_accepted (ofExcept_ok hchecks).1
  | changePin p =>
    change Ctap.changePin p d = _ at h
    unfold Ctap.changePin at h
    rw [bind_eq (get_run d)] at h
    obtain ⟨_, _, hchecks, -⟩ := bind_ok h
    exact changePin_accepted (ofExcept_ok hchecks).1
  | hmacSecret secret seed uv =>
    obtain ⟨a, h, -⟩ := map_ok h
    unfold hmacSecretOutput at h
    rw [bind_eq (get_run d)] at h
    obtain ⟨_, _, horFail, h⟩ := bind_ok h
    obtain ⟨hsecret, rfl⟩ := orFail_ok horFail
    exact ⟨_, .hmacSecret hsecret, (Bool.not_eq_false _).mp (refuseIf_bind_ok h).1⟩

/-- Every MAC check of the request is exact. -/
def MacExact (d : Device) (r : AuthRequest) : Prop := ∀ c, Makes d r c → c.Exact

/-- Every parameter fits the check it comes to. -/
def MacFits (d : Device) (r : AuthRequest) : Prop := ∀ c, Makes d r c → c.Fits

omit [ObjectLibrary] in
/-- The handlers leave the length to `verify`, which has none: the checks of a request are exact where each
parameter has the length of its MAC, or is longer and does not begin with it. -/
theorem macExact_iff (d : Device) (r : AuthRequest) : MacExact d r ↔ MacFits d r :=
  forall₂_congr fun _ _ => MacCheck.exact_iff

end AuthRequest
end
section Plain
attribute [local instance] plainSdk plainLibrary

/-- A request for the metadata whose parameter goes on behind the MAC. -/
def extendedRequest : CredMgmtParams :=
  { metadataRequest false 0x04 with pinUvAuthParam := some (plainMac (permittedDevice 0x04) [0x01] ++ [0]) }

theorem extended_mac_accepted :
    ¬ AuthRequest.MacExact (permittedDevice 0x04) (.credMgmt extendedRequest) ∧
      ((AuthRequest.credMgmt extendedRequest).run (permittedDevice 0x04)).1.toBool = true := by
  refine ⟨fun hexact => ?_, by decide +kernel⟩
  have hmakes : AuthRequest.Makes (permittedDevice 0x04) (.credMgmt extendedRequest)
      ⟨1, (permittedDevice 0x04).paut.data, [0x01], extendedRequest.param⟩ :=
    .token rfl (.inr ⟨.inl rfl, by unfold MacCheck.Accepts; decide +kernel⟩)
  have hmac := (hexact _ hmakes).only (by unfold MacCheck.Accepts; decide +kernel)
  exact absurd hmac (by decide +kernel)

end Plain
end FidoTouch.Ctap
