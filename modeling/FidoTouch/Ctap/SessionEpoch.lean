import FidoTouch.Ctap.Commands
import FidoTouch.Ctap.PlainDevice
import Mathlib.Logic.Function.Iterate

/-! The epoch of the session, which a context for access to objects carries: whatever takes away what a context
could rest on moves the epoch on. -/
namespace FidoTouch.Ctap
open FidoTouch.Program Handler FidoTouch.Storage

-- The search for `Keeps` follows whole commands.
set_option synthInstance.maxSize 4096

section
variable {ε α β : Type}

/-! ### The counter -/

/-- How the counter moves on; it leaves zero out. -/
def nextEpoch (epoch : UInt32) : UInt32 := if epoch + 1 = 0 then 1 else epoch + 1

/-- How often the counter moved on between two of its values, short of a whole round. -/
def epochSteps (first last : UInt32) : Nat := (last.toNat + (2 ^ 32 - 1) - first.toNat) % (2 ^ 32 - 1)

private theorem nextEpoch_toNat {epoch : UInt32} (h : epoch ≠ 0) :
    (nextEpoch epoch).toNat = epoch.toNat % (2 ^ 32 - 1) + 1 := by
  have hpos : epoch.toNat ≠ 0 := fun heq => h (UInt32.toNat_inj.mp heq)
  have hlt := epoch.toNat_lt
  unfold nextEpoch
  by_cases hwrap : epoch + 1 = 0
  · have htop : (epoch.toNat + 1) % 2 ^ 32 = 0 := by simpa using congrArg UInt32.toNat hwrap
    have hepoch : epoch.toNat = 2 ^ 32 - 1 := by omega
    rw [if_pos hwrap, hepoch]
    rfl
  · have hnext : (epoch + 1).toNat = (epoch.toNat + 1) % 2 ^ 32 := by simp
    have hne : (epoch.toNat + 1) % 2 ^ 32 ≠ 0 := fun heq => hwrap (UInt32.toNat_inj.mp (hnext.trans heq))
    rw [if_neg hwrap, hnext]
    omega

theorem nextEpoch_ne_zero (epoch : UInt32) : nextEpoch epoch ≠ 0 := by
  unfold nextEpoch
  split
  · decide
  · assumption

private theorem iterate_ne_zero {epoch : UInt32} (h : epoch ≠ 0) (n : Nat) : nextEpoch^[n] epoch ≠ 0 := by
  cases n with
  | zero => exact h
  | succ n =>
    rw [Function.iterate_succ_apply']
    exact nextEpoch_ne_zero _

private theorem iterate_toNat {epoch : UInt32} (h : epoch ≠ 0) (n : Nat) :
    (nextEpoch^[n] epoch).toNat = (epoch.toNat - 1 + n) % (2 ^ 32 - 1) + 1 := by
  induction n with
  | zero =>
    have hpos : epoch.toNat ≠ 0 := fun heq => h (UInt32.toNat_inj.mp heq)
    have hlt := epoch.toNat_lt
    rw [Function.iterate_zero_apply]
    omega
  | succ n ih =>
    rw [Function.iterate_succ_apply', nextEpoch_toNat (iterate_ne_zero h n), ih]
    omega

/-- Less than a round can be read off the two values. -/
theorem epochSteps_iterate {epoch : UInt32} (h : epoch ≠ 0) {n : Nat} (hn : n < 2 ^ 32 - 1) :
    epochSteps epoch (nextEpoch^[n] epoch) = n := by
  have hpos : epoch.toNat ≠ 0 := fun heq => h (UInt32.toNat_inj.mp heq)
  have hlt := epoch.toNat_lt
  rw [epochSteps, iterate_toNat h n]
  omega

/-! ### Contexts -/

/-- The facts of a context, `FILE_OBJECT_FACT_...`. -/
inductive ObjectFact where
  | owningApplication | sessionBound | internalFirmware | userPresence | userVerification | appPin

/-- `fido_object_authorization_evidence_t` -/
structure AuthorizationEvidence where
  userPresence : Bool
  userVerification : Bool
  pinUvAuth : Bool

/-- `file_object_authorization_context_t` -/
structure AuthorizationContext where
  facts : ObjectFact → Bool
  sessionEpoch : UInt32
  factsEpoch : UInt32
  callerNamespace : Nat

def fidoObjectNamespace : Nat := 0x0002

/-- `fido_object_authorization_context_build`; no evidence counts for the firmware itself. -/
def contextBuild (evidence : Option AuthorizationEvidence) (internalFirmware : Bool) (d : Device) : AuthorizationContext where
  facts
    | .owningApplication | .sessionBound => true
    | .internalFirmware => internalFirmware
    | .userPresence => !internalFirmware && evidence.any (·.userPresence)
    | .userVerification => !internalFirmware && evidence.any fun e => e.userVerification || e.pinUvAuth
    | .appPin => !internalFirmware && evidence.any (·.pinUvAuth)
  sessionEpoch := d.sessionEpoch
  factsEpoch := d.sessionEpoch
  callerNamespace := fidoObjectNamespace

/-- Nothing of the tokens that a context could rest on was taken away. -/
structure Intact (d d' : Device) : Prop where
  userPresent : d.paut.userPresent = true → d'.paut.userPresent = true
  userVerified : d.paut.userVerified = true → d'.paut.userVerified = true
  inUse : d.paut.inUse = true → d'.paut.inUse = true
  permissions : d'.paut.permissions &&& d.paut.permissions = d.paut.permissions
  persistentPermissions : d'.ppaut.permissions &&& d.ppaut.permissions = d.ppaut.permissions
  token : d'.paut.data = d.paut.data
  persistentToken : d'.ppaut.data = d.ppaut.data

private theorem bits_trans {a b c : UInt8} (h : b &&& a = a) (h' : c &&& b = b) : c &&& a = a := by
  rw [← h, ← UInt8.and_assoc, h']

theorem Intact.refl (d : Device) : Intact d d := ⟨id, id, id, UInt8.and_self, UInt8.and_self, rfl, rfl⟩

theorem Intact.trans {d d' d'' : Device} (h : Intact d d') (h' : Intact d' d'') : Intact d d'' where
  userPresent := h'.userPresent ∘ h.userPresent
  userVerified := h'.userVerified ∘ h.userVerified
  inUse := h'.inUse ∘ h.inUse
  permissions := bits_trans h.permissions h'.permissions
  persistentPermissions := bits_trans h.persistentPermissions h'.persistentPermissions
  token := h'.token.trans h.token
  persistentToken := h'.persistentToken.trans h.persistentToken

/-! ### Counted invalidations -/

/-- A token out of use has no flag, the persistent one no permission but to read, and the epoch is not zero. -/
structure TokensInOrder (d : Device) : Prop where
  flags : d.paut.inUse = false → d.paut.userPresent = false ∧ d.paut.userVerified = false
  persistent : d.ppaut.permissions = 0 ∨ d.ppaut.permissions = permissionPcmr
  epoch : d.sessionEpoch ≠ 0

/-- So many invalidations lead from one state to another; without one nothing was taken away. -/
structure Invalidated (n : Nat) (d d' : Device) : Prop where
  orderly : TokensInOrder d'
  epoch : d'.sessionEpoch = nextEpoch^[n] d.sessionEpoch
  intact : n = 0 → Intact d d'

theorem Invalidated.trans {n m : Nat} {d d' d'' : Device} (h : Invalidated n d d') (h' : Invalidated m d' d'') :
    Invalidated (n + m) d d'' where
  orderly := h'.orderly
  epoch := by rw [h'.epoch, h.epoch, Nat.add_comm n m, Function.iterate_add_apply]
  intact hnone := (h.intact (by omega)).trans (h'.intact (by omega))

/-- From an orderly state on nothing is taken away and the epoch stands. -/
def Unrevoked (d d' : Device) : Prop := TokensInOrder d → Invalidated 0 d d'

/-- The epoch stands, whatever becomes of the tokens' values and permissions. -/
def SameEpoch (d d' : Device) : Prop := TokensInOrder d → TokensInOrder d' ∧ d'.sessionEpoch = d.sessionEpoch

instance : Std.Refl SameEpoch := ⟨fun _ hd => ⟨hd, rfl⟩⟩
instance : IsTrans Device SameEpoch := ⟨fun _ _ _ h h' hd => ⟨(h' (h hd).1).1, (h' (h hd).1).2.trans (h hd).2⟩⟩

instance : Std.Refl Unrevoked := ⟨fun d hd => ⟨hd, rfl, fun _ => .refl d⟩⟩
instance : IsTrans Device Unrevoked := ⟨fun _ _ _ h h' hd => (h hd).trans (h' (h hd).orderly)⟩

/-- The tokens and the epoch are all it is about. -/
private theorem unrevoked_of_eq {d d' : Device} (hpaut : d'.paut = d.paut) (hppaut : d'.ppaut = d.ppaut)
    (hepoch : d'.sessionEpoch = d.sessionEpoch) : Unrevoked d d' := fun hd =>
  ⟨⟨hpaut ▸ hd.flags, hppaut ▸ hd.persistent, hepoch ▸ hd.epoch⟩, hepoch, fun _ =>
    ⟨hpaut ▸ id, hpaut ▸ id, hpaut ▸ id, by rw [hpaut, UInt8.and_self], by rw [hppaut, UInt8.and_self], by rw [hpaut],
      by rw [hppaut]⟩⟩

instance : Spares Unrevoked NoFile where
  refl := Std.Refl.refl
  trans := IsTrans.trans _ _ _
  sync _ := unrevoked_of_eq rfl rfl rfl
  fates _ := unrevoked_of_eq rfl rfl rfl
  set _ _ _ _ := unrevoked_of_eq rfl rfl rfl
  entropy _ _ := unrevoked_of_eq rfl rfl rfl

instance : AdmitsOthers Unrevoked :=
  ⟨fun h => unrevoked_of_eq (congrArg Device.paut h :) (congrArg Device.ppaut h :) (congrArg Device.sessionEpoch h :)⟩

instance : AdmitsAssertions Unrevoked := ⟨fun _ _ => unrevoked_of_eq rfl rfl rfl⟩
instance : AdmitsUpload Unrevoked := ⟨fun _ _ => unrevoked_of_eq rfl rfl rfl⟩
instance : AdmitsPinGuard Unrevoked := ⟨fun _ _ _ => unrevoked_of_eq rfl rfl rfl⟩
instance : AdmitsKeydev Unrevoked := ⟨fun _ _ _ => unrevoked_of_eq rfl rfl rfl⟩

/-- Binding the token to a relying party takes nothing away. -/
instance : AdmitsToken Unrevoked .bind where
  rel d t h hd := by
    obtain ⟨-, rpIdHash, rfl⟩ := h
    exact ⟨⟨hd.flags, hd.persistent, hd.epoch⟩, rfl, fun _ => ⟨id, id, id, UInt8.and_self, UInt8.and_self, rfl, rfl⟩⟩

/-- A token in use keeps the flag that is asked for, and one out of use has none to lose. -/
instance : Keeps Unrevoked (getUserPresentFlagValue : Handler Device ε Bool) := keeps_of fun d hd => by
  rw [getUserPresentFlagValue_run]
  have hsame : (d.paut.inUse && d.paut.userPresent) = d.paut.userPresent := by
    cases h : d.paut.inUse with
    | false => rw [(hd.flags h).1, Bool.and_false]
    | true => rw [Bool.true_and]
  rw [hsame]
  exact unrevoked_of_eq rfl rfl rfl hd

instance : Keeps Unrevoked (getUserVerifiedFlagValue : Handler Device ε Bool) := keeps_of fun d hd => by
  rw [getUserVerifiedFlagValue_run]
  have hsame : (d.paut.inUse && d.paut.userVerified) = d.paut.userVerified := by
    cases h : d.paut.inUse with
    | false => rw [(hd.flags h).2, Bool.and_false]
    | true => rw [Bool.true_and]
  rw [hsame]
  exact unrevoked_of_eq rfl rfl rfl hd

/-- The permission that the persistent token is given is the only one it can have. -/
instance : Keeps Unrevoked (issuePersistentToken : Handler Device ε Bytes) := by
  unfold issuePersistentToken
  have : Keeps Unrevoked (modify fun d => { d with ppaut := { d.ppaut with permissions := permissionPcmr } } :
      Handler Device ε Unit) := ⟨fun d hd => by
    have hbits : permissionPcmr &&& d.ppaut.permissions = d.ppaut.permissions := by
      rcases hd.persistent with h | h <;> rw [h] <;> rfl
    exact ⟨⟨hd.flags, .inr rfl, hd.epoch⟩, rfl, fun _ => ⟨id, id, id, UInt8.and_self, hbits, rfl, rfl⟩⟩⟩
  infer_instance

/-! ### What each function invalidates -/

/-- In an orderly state the function invalidates so many times at most. -/
def UpTo (n : Nat) (x : Handler Device ε α) : Prop := ∀ d, TokensInOrder d → ∃ m ≤ n, Invalidated m d (x d).2

section
variable {n m : Nat} {x : Handler Device ε α} {f : α → Handler Device ε β}

theorem upTo_of_keeps (hx : Keeps Unrevoked x) : UpTo 0 x := fun d hd => ⟨0, Nat.le_refl 0, hx.rel d hd⟩

theorem UpTo.mono (hx : UpTo n x) (h : n ≤ m) : UpTo m x := fun d hd => by
  obtain ⟨k, hk, hinvalidated⟩ := hx d hd
  exact ⟨k, Nat.le_trans hk h, hinvalidated⟩

theorem UpTo.bind (hx : UpTo n x) (hf : ∀ a, UpTo m (f a)) : UpTo (n + m) (x >>= f) := fun d hd => by
  obtain ⟨k, hk, hfirst⟩ := hx d hd
  rw [bind_run]
  rcases hrun : x d with ⟨e | a, d'⟩ <;> rw [hrun] at hfirst
  · exact ⟨k, by omega, hfirst⟩
  · obtain ⟨l, hl, hthen⟩ := hf a d' hfirst.orderly
    exact ⟨k + l, by omega, hfirst.trans hthen⟩

/-- Only what comes after invalidates. -/
theorem upTo_after [hx : Keeps Unrevoked x] (hf : ∀ a, UpTo m (f a)) : UpTo m (x >>= f) :=
  ((upTo_of_keeps hx).bind hf).mono (by omega)

/-- Only what comes first invalidates. -/
theorem UpTo.before (hx : UpTo n x) (hf : ∀ a, Keeps Unrevoked (f a)) : UpTo n (x >>= f) :=
  hx.bind fun a => upTo_of_keeps (hf a)

theorem UpTo.runIf {x : Handler Device ε Unit} (hx : UpTo n x) (c : Prop) [Decidable c] : UpTo n (runIf c x) := by
  unfold Handler.runIf
  split
  · exact hx
  · exact (upTo_of_keeps inferInstance).mono (Nat.zero_le n)

theorem UpTo.map (hx : UpTo n x) (g : α → β) : UpTo n (g <$> x) := fun d hd => by
  obtain ⟨k, hk, h⟩ := hx d hd
  refine ⟨k, hk, ?_⟩
  rw [map_run]
  rcases hrun : x d with ⟨e | a, d'⟩ <;> rwa [hrun] at h

/-- What leaves the tokens in order moves the epoch on once. -/
theorem upTo_once (h : ∀ d, TokensInOrder d → TokensInOrder (x d).2 ∧ (x d).2.sessionEpoch = nextEpoch d.sessionEpoch) :
    UpTo 1 x := fun d hd =>
  ⟨1, Nat.le_refl 1, (h d hd).1, (h d hd).2, fun hnone => absurd hnone (by omega)⟩

/-- After an invalidation the values of the tokens are free. -/
theorem upTo_invalidate (hx : Keeps SameEpoch x) :
    UpTo 1 ((sessionInvalidate : Handler Device ε Unit) >>= fun _ => x) := upTo_once fun d hd =>
  hx.rel { d with sessionEpoch := nextEpoch d.sessionEpoch } ⟨hd.flags, hd.persistent, nextEpoch_ne_zero _⟩

end

/-- Nothing taken away and the epoch as it was is more than the epoch as it was. -/
theorem Unrevoked.sameEpoch {x : Handler Device ε α} (hx : Keeps Unrevoked x) : Keeps SameEpoch x :=
  ⟨fun d hd => ⟨(hx.rel d hd).orderly, (hx.rel d hd).epoch⟩⟩

theorem clearUserPresentFlag_upTo : UpTo 1 (clearUserPresentFlag : Handler Device ε Unit) :=
  upTo_after fun _ => (upTo_once fun _ hd =>
    ⟨⟨fun h => ⟨rfl, (hd.flags h).2⟩, hd.persistent, nextEpoch_ne_zero _⟩, rfl⟩).runIf _

theorem clearUserVerifiedFlag_upTo : UpTo 1 (clearUserVerifiedFlag : Handler Device ε Unit) :=
  upTo_after fun _ => (upTo_once fun _ hd =>
    ⟨⟨fun h => ⟨(hd.flags h).1, rfl⟩, hd.persistent, nextEpoch_ne_zero _⟩, rfl⟩).runIf _

theorem clearPermissions_upTo : UpTo 1 (clearPinUvAuthTokenPermissionsExceptLbw : Handler Device ε Unit) :=
  upTo_after fun _ => (upTo_once fun _ hd => ⟨⟨hd.flags, hd.persistent, nextEpoch_ne_zero _⟩, rfl⟩).runIf _

theorem clearTokenFlags_upTo : UpTo 3 (clearTokenFlags : Handler Device ε Unit) :=
  clearUserPresentFlag_upTo.bind fun _ => clearUserVerifiedFlag_upTo.bind fun _ => clearPermissions_upTo

/-- A token that is not in use, and has nothing, has nothing to lose. -/
theorem stopUsingPinUvAuthToken_upTo : UpTo 1 (stopUsingPinUvAuthToken : Handler Device ε Unit) := fun d hd => by
  unfold stopUsingPinUvAuthToken
  rw [bind_eq (get_run d), bind_eq (modify_run _ d)]
  have hstopped : ∀ epoch, epoch ≠ 0 → TokensInOrder { d with
      paut := { d.paut with
        permissions := 0, inUse := false, rpIdHash := .zero 32, hasRpId := false, userPresent := false
        userVerified := false }
      usageTimer := 0, initialUsageTimeLimit := 0, userPresentTimeLimit := 0, sessionEpoch := epoch } :=
    fun _ hepoch => ⟨fun _ => ⟨rfl, rfl⟩, hd.persistent, hepoch⟩
  by_cases hactive : d.paut.inUse = true ∨ d.paut.permissions ≠ 0 ∨ d.paut.hasRpId = true ∨ d.paut.userPresent = true ∨
      d.paut.userVerified = true
  · rw [runIf_true hactive]
    exact ⟨1, Nat.le_refl 1, hstopped _ (nextEpoch_ne_zero _), rfl, fun hnone => absurd hnone (by omega)⟩
  · rw [runIf_false hactive]
    simp only [not_or, ne_eq, not_not] at hactive
    obtain ⟨hinUse, hpermissions, -, hpresent, hverified⟩ := hactive
    refine ⟨0, Nat.zero_le 1, hstopped _ hd.epoch, rfl, fun _ => ⟨fun h => absurd h hpresent, fun h => absurd h hverified,
      fun h => absurd h hinUse, ?_, UInt8.and_self, rfl, rfl⟩⟩
    rw [hpermissions]
    exact UInt8.and_zero

theorem pinUvAuthTokenTick_upTo : UpTo 1 (pinUvAuthTokenTick : Handler Device ε Unit) := by
  unfold pinUvAuthTokenTick
  refine upTo_after fun d => ?_
  dsimp only
  split
  · exact (upTo_of_keeps inferInstance).mono (Nat.zero_le 1)
  · split
    · exact stopUsingPinUvAuthToken_upTo
    · exact clearUserPresentFlag_upTo.runIf _

theorem resetPinUvAuthToken_upTo : UpTo 1 (resetPinUvAuthToken : Handler Device ε Unit) :=
  upTo_after fun _ => upTo_once fun _ hd => ⟨⟨hd.flags, hd.persistent, nextEpoch_ne_zero _⟩, rfl⟩

theorem resetPersistentPinUvAuthToken_upTo : UpTo 1 (resetPersistentPinUvAuthToken : Handler Device ε Unit) :=
  upTo_after fun _ => upTo_once fun _ hd => ⟨⟨hd.flags, .inl rfl, nextEpoch_ne_zero _⟩, rfl⟩

variable [Sdk]

theorem initializeKeyAgreement_upTo : UpTo 1 (initializeKeyAgreement : Handler Device ε Unit) :=
  upTo_after fun _ => resetPinUvAuthToken_upTo

theorem beginToken_upTo (p : ClientPinParams) : UpTo 1 (beginToken p : Handler Device ε Unit) :=
  upTo_once fun _ hd =>
    ⟨⟨fun h => Bool.noConfusion (show true = false from h), hd.persistent, nextEpoch_ne_zero _⟩, rfl⟩

theorem issueToken_upTo (p : ClientPinParams) : UpTo 2 (issueToken p : Handler Device ε Bytes) :=
  resetPinUvAuthToken_upTo.bind fun _ => (beginToken_upTo p).before fun _ => inferInstance

theorem grantToken_upTo (p : ClientPinParams) : UpTo 2 (grantToken p : Handler Device ε Bytes) := by
  unfold grantToken
  split
  · exact (upTo_of_keeps inferInstance).mono (Nat.zero_le 2)
  · exact issueToken_upTo p

/-! ### What each command invalidates -/

theorem storeNewPin_upTo (pin : Bytes) : UpTo 2 (storeNewPin pin) := by
  unfold storeNewPin
  refine upTo_after fun files => upTo_after fun _ => upTo_after fun _ => upTo_after fun _ => upTo_after fun _ => ?_
  exact resetPinUvAuthToken_upTo.bind fun _ => resetPersistentPinUvAuthToken_upTo.before fun _ => inferInstance

theorem changePin_upTo (p : ClientPinParams) : UpTo 2 (changePin p) := by
  unfold changePin
  refine upTo_after fun d => upTo_after fun sharedSecret => upTo_after fun _ => upTo_after fun _ => ?_
  refine upTo_after fun _ => upTo_after fun files => upTo_after fun pin => upTo_after fun _ => ?_
  exact storeNewPin_upTo pin

theorem answerToken_upTo (p : ClientPinParams) (sharedSecret : Bytes) : UpTo 2 (answerToken p sharedSecret) := by
  unfold answerToken
  refine upTo_after fun files => upTo_after fun _ => upTo_after fun _ => ?_
  exact (grantToken_upTo p).before fun token => inferInstance

theorem getPinToken_upTo (p : ClientPinParams) : UpTo 2 (getPinToken p) := by
  unfold getPinToken
  refine upTo_after fun d => upTo_after fun sharedSecret => upTo_after fun _ => upTo_after fun _ => ?_
  exact upTo_after fun _ => answerToken_upTo p sharedSecret

/-- The key agreement may have to start first. -/
theorem cborClientPin_upTo (request : Parsed ClientPinParams) : UpTo 3 (cborClientPin request) := by
  unfold cborClientPin
  split
  · exact (upTo_of_keeps inferInstance).mono (Nat.zero_le 3)
  refine upTo_after fun d => ?_
  change UpTo (1 + 2) _
  refine (initializeKeyAgreement_upTo.runIf _).bind fun _ => upTo_after fun p => ?_
  split
  · exact (upTo_of_keeps inferInstance).mono (Nat.zero_le 2)
  split
  · exact (upTo_of_keeps inferInstance).mono (Nat.zero_le 2)
  split
  · exact (upTo_of_keeps inferInstance).mono (Nat.zero_le 2)
  split
  · exact (upTo_of_keeps inferInstance).mono (Nat.zero_le 2)
  split
  · exact (changePin_upTo p).before fun _ => inferInstance
  split
  · exact (getPinToken_upTo p).before fun enc => inferInstance
  · exact (upTo_of_keeps inferInstance).mono (Nat.zero_le 2)

theorem setMinPinLength_upTo (p : ConfigParams) : UpTo 2 (setMinPinLength p) := by
  unfold setMinPinLength
  refine upTo_after fun d => upTo_after fun _ => upTo_after fun _ => upTo_after fun _ => ?_
  exact ((resetPersistentPinUvAuthToken_upTo.bind fun _ => resetPinUvAuthToken_upTo).runIf _).before fun _ => inferInstance

theorem cborConfig_upTo (request : Parsed ConfigParams) : UpTo 2 (cborConfig request) := by
  unfold cborConfig
  refine upTo_after fun p => upTo_after fun _ => ?_
  split
  · exact (upTo_of_keeps inferInstance).mono (Nat.zero_le 2)
  split
  · exact (upTo_of_keeps inferInstance).mono (Nat.zero_le 2)
  split
  · exact setMinPinLength_upTo p
  · exact (upTo_of_keeps inferInstance).mono (Nat.zero_le 2)

/-- The bytes of both tokens may be read anew. -/
theorem scanFilesFido_epoch : Keeps SameEpoch scanFilesFido := by
  have htoken : Keeps SameEpoch (modify fun d => { d with paut := { d.paut with data := (d.files efAuthtoken).getD [] } } :
      DeviceIo Unit) := ⟨fun d hd => ⟨⟨hd.flags, hd.persistent, hd.epoch⟩, rfl⟩⟩
  have hpersistent : Keeps SameEpoch (modify fun d =>
      { d with ppaut := { d.ppaut with data := (d.files efPauthtoken).getD [] } } : DeviceIo Unit) :=
    ⟨fun d hd => ⟨⟨hd.flags, hd.persistent, hd.epoch⟩, rfl⟩⟩
  unfold scanFilesFido
  refine .bind (Unrevoked.sameEpoch inferInstance) fun _ => .bind (Unrevoked.sameEpoch inferInstance) fun _ => ?_
  refine .bind (Unrevoked.sameEpoch inferInstance) fun _ => .bind (Unrevoked.sameEpoch inferInstance) fun _ => ?_
  refine .bind htoken fun _ => .bind (Unrevoked.sameEpoch inferInstance) fun _ => .bind hpersistent fun _ => ?_
  exact Unrevoked.sameEpoch inferInstance

theorem initFido_upTo : UpTo 1 (initFido : Handler Device ε Unit) := by
  have hscan := scanFilesFido_epoch
  exact upTo_invalidate (.bind inferInstance fun _ => Unrevoked.sameEpoch inferInstance)

theorem cborReset_upTo : UpTo 1 cborReset := by
  unfold cborReset
  have herased : Keeps Unrevoked (fileInitializeFlash : CtapOp Unit) := keeps_of fun _ => unrevoked_of_eq rfl rfl rfl
  refine upTo_after fun d => upTo_after fun _ => upTo_after fun press => upTo_after fun _ => upTo_after fun _ => ?_
  exact initFido_upTo.before fun _ => inferInstance

variable [ObjectLibrary]

omit [Sdk] [ObjectLibrary] in
theorem mcUserPresence_upTo (p : MakeCredentialParams) : UpTo 3 (mcUserPresence p) := by
  unfold mcUserPresence
  split
  · exact (upTo_of_keeps inferInstance).mono (Nat.zero_le 3)
  · exact upTo_after fun _ => (clearTokenFlags_upTo.runIf _).before fun _ => inferInstance

theorem cborMakeCredential_upTo (request : Parsed MakeCredentialParams) : UpTo 3 (cborMakeCredential request) := by
  unfold cborMakeCredential
  exact upTo_after fun p => upTo_after fun prepared => (mcUserPresence_upTo p).before fun up => inferInstance

omit [Sdk] [ObjectLibrary] in
theorem gaUserPresence_upTo (p : GetAssertionParams) : UpTo 3 (gaUserPresence p) := by
  unfold gaUserPresence
  split
  · exact (upTo_of_keeps inferInstance).mono (Nat.zero_le 3)
  · exact upTo_after fun _ => clearTokenFlags_upTo.before fun _ => inferInstance

theorem firstAssertion_upTo (request : Parsed GetAssertionParams) : UpTo 3 (firstAssertion request) := by
  unfold firstAssertion
  exact upTo_after fun p => upTo_after fun prepared => (gaUserPresence_upTo p).before fun up => inferInstance

theorem cborGetAssertion_upTo (request : Parsed GetAssertionParams) : UpTo 3 (cborGetAssertion request) := by
  have hfirst : UpTo 3 (attempt (firstAssertion request) : CtapOp (Except CtapError GetAssertionAnswer)) :=
    firstAssertion_upTo request
  unfold cborGetAssertion
  refine hfirst.before fun answer => ?_
  split <;> infer_instance

theorem cborCommand_upTo (r : Request) : UpTo 3 (cborCommand r) := by
  unfold cborCommand
  split
  · exact (cborMakeCredential_upTo _).map _
  · exact (cborGetAssertion_upTo _).map _
  · exact (upTo_of_keeps inferInstance).mono (Nat.zero_le 3)
  · exact (cborClientPin_upTo _).map _
  · exact (upTo_of_keeps inferInstance).mono (Nat.zero_le 3)
  · exact ((cborConfig_upTo _).before fun _ => inferInstance).mono (by omega)
  · exact (upTo_of_keeps inferInstance).mono (Nat.zero_le 3)
  · exact (upTo_of_keeps inferInstance).mono (Nat.zero_le 3)
  · exact (cborReset_upTo.before fun _ => inferInstance).mono (by omega)
  · exact (upTo_of_keeps inferInstance).mono (Nat.zero_le 3)
  · exact (upTo_of_keeps inferInstance).mono (Nat.zero_le 3)

theorem cborParse_upTo (r : Request) : UpTo 4 (cborParse r) := by
  unfold cborParse
  exact (pinUvAuthTokenTick_upTo.bind fun _ => upTo_after fun files => upTo_after fun _ => upTo_after fun _ =>
    cborCommand_upTo r).mono (by omega)

/-- Whatever comes, short of a power cycle, invalidates four times at most. -/
theorem authenticate_upTo {i : Input} (hon : i ≠ .powerCycle) : UpTo 4 (authenticate i) := by
  cases i with
  | cbor r => exact (cborParse_upTo r).map some
  | vendor cmd p => exact ((pinUvAuthTokenTick_upTo.before fun _ => inferInstance).map some).mono (by omega)
  | emptyMessage => exact ((pinUvAuthTokenTick_upTo.before fun _ => inferInstance).map some).mono (by omega)
  | elapse ms => exact (upTo_of_keeps (.bind inferInstance fun _ => inferInstance)).mono (Nat.zero_le 4)
  | powerCycle => exact absurd rfl hon

/-! ### Runs -/

/-- What comes between two power cycles: messages, time, and the application being unloaded. -/
inductive SessionInput where
  | input (i : Input)
  /-- `fido_unload` -/
  | unload

def sessionCommand : SessionInput → Handler Device CtapError (Option Response)
  | .input i => authenticate i
  | .unload => do
    sessionInvalidate
    return none

/-- The authenticator as an application among others. -/
def session : Machine Device SessionInput (Except CtapError (Option Response)) where
  step d i := sessionCommand i d

/-- The invalidations of a move; a move makes four at most, so none is missed. -/
def invalidations (t : Move Device SessionInput (Except CtapError (Option Response))) : Nat :=
  epochSteps t.before.sessionEpoch t.after.sessionEpoch

private theorem sessionCommand_upTo {i : SessionInput} (hon : i ≠ .input .powerCycle) : UpTo 4 (sessionCommand i) := by
  cases i with
  | input i => exact authenticate_upTo fun h => hon (congrArg SessionInput.input h)
  | unload => exact (upTo_invalidate inferInstance).mono (by omega)

/-- Each move makes the invalidations that the epoch tells of. -/
theorem move_invalidated {i : SessionInput} (hon : i ≠ .input .powerCycle) {d : Device} (hd : TokensInOrder d) :
    Invalidated (invalidations (session.move d i)) d (session.step d i).2 := by
  obtain ⟨n, hn, hinvalidated⟩ := sessionCommand_upTo hon d hd
  have hcount : invalidations (session.move d i) = n := by
    have hafter : (session.move d i).after.sessionEpoch = nextEpoch^[n] d.sessionEpoch := hinvalidated.epoch
    rw [invalidations, hafter]
    exact epochSteps_iterate hd.epoch (by omega)
  rw [hcount]
  exact hinvalidated

/-- A run invalidates as often as its moves together. -/
private theorem trace_invalidated {is : List SessionInput} (hon : .input .powerCycle ∉ is) {d : Device} (hd : TokensInOrder d) :
    Invalidated ((session.trace d is).map invalidations).sum d (session.finish d is) := by
  induction is generalizing d with
  | nil => exact ⟨hd, rfl, fun _ => .refl d⟩
  | cons i is ih =>
    rw [List.mem_cons, not_or] at hon
    have hmove := move_invalidated (Ne.symm hon.1) hd
    rw [Machine.trace, List.map_cons, List.sum_cons]
    exact hmove.trans (ih hon.2 hmove.orderly)

/-- A run without an invalidation takes nothing away, at any of its moves. -/
private theorem trace_intact {is : List SessionInput} (hon : .input .powerCycle ∉ is) {d : Device} (hd : TokensInOrder d)
    (hnone : ((session.trace d is).map invalidations).sum = 0) : ∀ t ∈ session.trace d is, Intact t.before t.after := by
  induction is generalizing d with
  | nil => simp [Machine.trace]
  | cons i is ih =>
    rw [List.mem_cons, not_or] at hon
    have hmove := move_invalidated (Ne.symm hon.1) hd
    rw [Machine.trace, List.map_cons, List.sum_cons] at hnone
    intro t ht
    rcases List.mem_cons.mp ht with rfl | ht
    · exact hmove.intact (by omega)
    · exact ih hon.2 hmove.orderly (by omega) t ht

omit [ObjectLibrary] in
/-- The tokens are in order once the power is up. -/
theorem boot_orderly (d : Device) : TokensInOrder d.boot := by
  have hstart : TokensInOrder d.powerUp := ⟨fun _ => ⟨rfl, rfl⟩, .inl rfl, (by decide : (1 : UInt32) ≠ 0)⟩
  obtain ⟨n, -, hbooted⟩ := (initFido_upTo : UpTo 1 (initFido : Handler Device PicoError Unit)) d.powerUp hstart
  exact hbooted.orderly

/-- At every point of a run since power came up the epoch is not zero; and when a later point has the same epoch, after
less than a round of invalidations, no move between the two took anything away that a context could rest on. -/
theorem revocation_changes_epoch (d : Device) {is js : List SessionInput} (hon : .input .powerCycle ∉ is ++ js)
    (evidence evidence' : Option AuthorizationEvidence) (internal internal' : Bool) :
    (contextBuild evidence internal (session.finish d.boot is)).sessionEpoch ≠ 0 ∧
      (((session.trace (session.finish d.boot is) js).map invalidations).sum < 2 ^ 32 - 1 →
        (contextBuild evidence internal (session.finish d.boot is)).sessionEpoch =
          (contextBuild evidence' internal' (session.finish (session.finish d.boot is) js)).sessionEpoch →
        ∀ t ∈ session.trace (session.finish d.boot is) js, Intact t.before t.after) := by
  rw [List.mem_append, not_or] at hon
  have horderly := (trace_invalidated hon.1 (boot_orderly d)).orderly
  refine ⟨horderly.epoch, fun hfew hsame => trace_intact hon.2 horderly ?_⟩
  have hlast : (session.finish d.boot is).sessionEpoch = nextEpoch^[_] (session.finish d.boot is).sessionEpoch :=
    hsame.trans (trace_invalidated hon.2 horderly).epoch
  have hcount := epochSteps_iterate horderly.epoch hfew
  rw [← hlast] at hcount
  rw [← hcount]
  exact epochSteps_iterate horderly.epoch (n := 0) (by omega)

end
section Plain
attribute [local instance] plainSdk plainLibrary

/-- A token is given out and the application is unloaded; a second and a request for information later all of the
token is still there. -/
theorem token_intact :
    (session.finish (pinDevice []).boot [.input (tokenRequest 0x9 0x04 none), .unload]).paut.permissions = permissionCm ∧
      ∀ t ∈ session.trace (session.finish (pinDevice []).boot [.input (tokenRequest 0x9 0x04 none), .unload])
        [.input (.elapse 1000), .input (.cbor .getInfo)], Intact t.before t.after :=
  ⟨by decide +kernel, (revocation_changes_epoch (pinDevice []) (by simp [tokenRequest]) none none true true).2
    (by decide +kernel) (by decide +kernel)⟩

end Plain
end FidoTouch.Ctap
