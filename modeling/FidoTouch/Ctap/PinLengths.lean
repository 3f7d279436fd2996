import FidoTouch.Ctap.Retries

/-! The minimum PIN length: a stored PIN that is too short has to be changed, and until it is no token has a
permission. -/
namespace FidoTouch.Ctap
open FidoTouch.Program Handler FidoTouch.Storage Settles

-- The search for `Keeps` follows whole commands.
set_option synthInstance.maxSize 4096

variable [Sdk] {ε α : Type}

/-! ### Lengths -/

/-- The length in code points of the PIN that a record is for. -/
def codepointsOf (record : Bytes) : Nat := (byteAt (readPast 2 record) 1).toNat

/-- What the files say about the length of the PIN. -/
structure PinLengths where
  codepoints : Option Nat
  least : Nat
  forced : Bool
deriving DecidableEq

def pinLengths (files : Files) : PinLengths :=
  ⟨(pinRecord files).map codepointsOf, minPinLen files, forceChangePin files⟩

/-- A PIN is long enough, or it has to be changed. -/
def PinLengths.Sound (l : PinLengths) : Prop := ∀ n, l.codepoints = some n → l.least ≤ n ∨ l.forced = true

theorem pinLengths_congr {files files' : Files} (hpin : files' efPin = files efPin)
    (hmin : files' efMinpinlen = files efMinpinlen) : pinLengths files' = pinLengths files := by
  simp only [pinLengths, pinRecord, minPinLen, forceChangePin, fileData, hpin, hmin]

/-- The lengths are among `Q`. -/
def LengthsIn (Q : PinLengths → Prop) (files : Files) : Prop := Q (pinLengths files)

instance (Q : PinLengths → Prop) : ReadsOnly (LengthsIn Q) IsPinFile where
  congr h hQ := by
    rw [LengthsIn, pinLengths_congr (h efPin (.inl rfl)) (h efMinpinlen (.inr rfl))]
    exact hQ

/-- A record for a PIN of the same length changes no length. -/
theorem pinLengths_put {files : Files} {record : Bytes} (hne : record ≠ [])
    (h : (pinLengths files).codepoints = some (codepointsOf record)) :
    pinLengths (Function.update files efPin (some record)) = pinLengths files := by
  have hrecord : pinRecord (Function.update files efPin (some record)) = some record := by
    unfold pinRecord fileData
    rw [Function.update_self]
    cases record with
    | nil => exact absurd rfl hne
    | cons b bs => rfl
  have hmin : Function.update files efPin (some record) efMinpinlen = files efMinpinlen :=
    Function.update_of_ne (by decide) _ _
  unfold pinLengths at h ⊢
  rw [hrecord]
  dsimp only at h
  simp only [minPinLen, forceChangePin, fileData, hmin, Option.map_some, h]

private theorem codepointsOf_set (record : Bytes) (b : UInt8) : codepointsOf (record.set 0 b) = codepointsOf record := by
  unfold codepointsOf byteAt readPast
  cases record with
  | nil => rfl
  | cons c cs => cases cs <;> rfl

/-- The record of a PIN in the current format has its length. -/
private theorem codepointsOf_new (retries codepoints : UInt8) (hash : Bytes) :
    codepointsOf (newPinRecord retries codepoints hash) = codepoints.toNat := rfl

/-! ### What is kept -/

/-- What a power loss would leave has the lengths that the device works with. -/
def Agree (s : Store Nat UInt8) : Prop := pinLengths s.durable = pinLengths s.view

instance : Sees (Preserves Agree) IsPinFile where
  refl _ := id
  trans h h' := h' ∘ h
  sync _ _ := rfl
  fates _ := id
  set s k v hk h := by
    have hsame : LengthsIn (· = pinLengths s.view) (s.set k v).view :=
      (Carries.set_outside (I := LengthsIn (· = pinLengths s.view)) s v hk).view rfl
    exact h.trans (Eq.symm hsame)

/-- The tokens have no permission, so that no parameter under one authorizes anything. -/
def Powerless (d : Device) : Prop := d.paut.permissions = 0 ∧ d.ppaut.permissions = 0

/-- The lengths are sound and durable, and while the PIN has to be changed the tokens are powerless. -/
structure MinPinKept (d : Device) : Prop where
  agree : Agree d.store
  sound : (pinLengths d.store.view).Sound
  powerless : (pinLengths d.store.view).forced = true → Powerless d

omit [Sdk] in
theorem Weakened.powerless {d d' : Device} (h : Weakened d d') (hd : Powerless d) : Powerless d' :=
  ⟨h.paut.elim (fun heq => heq.trans hd.1) id, h.ppaut.elim (fun heq => heq.trans hd.2) id⟩

/-- The PIN was changed by this message: to one that is long enough, and another than the one presented. -/
def ChangesPin [ObjectLibrary] (d : Device) (i : Input) (files : Files) : Prop :=
  ∃ p c pin, i = .cbor (.clientPin (.params p)) ∧ p.subcommand = 0x4 ∧ comparison i d = some c ∧ c.presented.accepted = true ∧
    (authenticate i d).1 = .ok (some (.clientPin .done)) ∧
    pinRecord files = some (newPinRecord maxPinRetries (UInt8.ofNat (pinCodepointLen pin)) (hashOfPin pin)) ∧
    minPinLen files ≤ pinCodepointLen pin ∧ (Sdk.pinDeriveVerifier (hashOfPin pin)).1 ≠ (Sdk.pinDeriveVerifier c.presented.hash).1

/-- What a message may make of the files. -/
structure Lawful [ObjectLibrary] (d : Device) (i : Input) (files : Files) : Prop where
  sound : (pinLengths files).Sound
  least : (pinLengths d.store.view).least ≤ (pinLengths files).least
  changed : (pinLengths d.store.view).forced = true → (pinLengths files).forced = false → ChangesPin d i files
  imposed : (pinLengths d.store.view).forced = false → (pinLengths files).forced = true → ∃ r, i = .cbor (.config r)

instance [ObjectLibrary] (d : Device) (i : Input) : ReadsOnly (Lawful d i) IsPinFile where
  congr h hlawful := by
    have hsame := pinLengths_congr (h efPin (.inl rfl)) (h efMinpinlen (.inr rfl))
    refine ⟨hsame ▸ hlawful.sound, hsame ▸ hlawful.least, fun hforced hdropped => ?_, hsame ▸ hlawful.imposed⟩
    obtain ⟨p, c, pin, hi, hp, hc, haccepted, hdone, hrecord, hleast, hne⟩ := hlawful.changed hforced (hsame ▸ hdropped)
    refine ⟨p, c, pin, hi, hp, hc, haccepted, hdone, ?_, ?_, hne⟩
    · simpa only [pinRecord, fileData, h efPin (.inl rfl)] using hrecord
    · simpa only [minPinLen, fileData, h efMinpinlen (.inr rfl)] using hleast

/-! ### Records for a PIN of the same length -/

private theorem pinLengths_record {files : Files} {stored : Bytes} (h : pinRecord files = some stored) :
    (pinLengths files).codepoints = some (codepointsOf stored) := by
  simp only [pinLengths, h, Option.map_some]

private theorem spent_lengths {files : Files} {stored : Bytes} (h : pinRecord files = some stored) (b : UInt8) :
    pinLengths (Function.update files efPin (some (stored.set 0 b))) = pinLengths files := by
  obtain ⟨c, cs, rfl, -⟩ := pinRecord_nonempty h
  exact pinLengths_put (by simp) (by rw [pinLengths_record h, codepointsOf_set])

instance (Q : PinLengths → Prop) : Spends (Carries (LengthsIn Q)) where
  spend _ _ hrecord _ := .set efPin _ fun hs => by
    rw [LengthsIn, spent_lengths hrecord]
    exact hs

instance : Spends (Preserves Agree) where
  spend _ _ hrecord _ hs := hs.trans (spent_lengths hrecord _).symm

instance : Commits (Preserves Agree) := ⟨fun _ _ _ => rfl⟩

section
variable {Q : PinLengths → Prop} {record hash : Bytes} {d : Device}

private theorem same_lengths {x : Handler Device ε α} {r : Except ε α} {s s' : Device}
    (hx : ∀ Q, Keeps (Quiet (Carries (LengthsIn Q))) x) (h : x s = (r, s')) :
    pinLengths s'.store.view = pinLengths s.store.view :=
  ((hx (· = pinLengths s.store.view)).of_run h).1.view rfl

private theorem restore_lengths (hne : record ≠ []) (h : (pinLengths d.store.view).codepoints = some (codepointsOf record)) :
    Quiet (Carries (LengthsIn Q)) d ((putFile efPin (record.set 0 maxPinRetries) : CtapOp Unit) d).2 :=
  putFile_rel fun fates => .set efPin _ fun hs => by
    rw [LengthsIn, pinLengths_put (by cases record <;> simp_all) (by rw [codepointsOf_set]; exact h)]
    exact hs

private theorem confirmPin_lengths (hne : record ≠ []) (h : (pinLengths d.store.view).codepoints = some (codepointsOf record)) :
    Quiet (Carries (LengthsIn Q)) d ((confirmPin record hash : CtapOp Unit) d).2 := by
  unfold confirmPin
  refine rel_bind (Keeps.rel d) fun _ s hs => ?_
  cases hs
  exact rel_bind (restore_lengths hne h) fun _ s _ => Keeps.rel s

private theorem confirmPinForToken_lengths (hne : record ≠ [])
    (h : (pinLengths d.store.view).codepoints = some (codepointsOf record)) :
    Quiet (Carries (LengthsIn Q)) d ((confirmPinForToken record hash : CtapOp Unit) d).2 := by
  unfold confirmPinForToken
  refine rel_bind (Keeps.rel d) fun _ s hs => rel_bind (Keeps.rel s) fun _ s' hs' => rel_bind (Keeps.rel s') fun _ t ht => ?_
  have hsame : pinLengths t.store.view = pinLengths d.store.view :=
    (same_lengths (fun _ => inferInstance) ht).trans ((same_lengths (fun _ => inferInstance) hs').trans
      (same_lengths (fun _ => inferInstance) hs))
  exact rel_bind (restore_lengths hne (hsame ▸ h)) fun _ s _ => Keeps.rel s

/-- What a comparison was made with has the length of the stored PIN. -/
private theorem comparing_lengths {p : ClientPinParams} {c : Presented} {s : Device} (h : comparing p d = (.ok c, s)) :
    pinLengths s.store.view = pinLengths d.store.view ∧ 2 ≤ c.record.length ∧ pinRecord s.store.view = some c.record := by
  have hsame : pinLengths s.store.view = pinLengths d.store.view := same_lengths (fun _ => inferInstance) h
  obtain ⟨stored, hloaded, -, hrecord, hview, -⟩ := comparing_ok h
  have hlength : stored.length = pinLegacyDataLen ∨ stored.length = pinDataLen := by
    rw [loadPinData, Option.filter_eq_some_iff] at hloaded
    exact of_decide_eq_true hloaded.2
  have htwo : 2 ≤ c.record.length := by
    rw [hrecord, List.length_set]
    rcases hlength with h | h <;> rw [h] <;> decide
  refine ⟨hsame, htwo, ?_⟩
  rw [pinRecord, fileData, hview]
  cases hc : c.record with
  | nil =>
    rw [hc] at htwo
    cases htwo
  | cons b bs => rfl

/-- An upgraded record has the length of the record it is made from. -/
theorem upgradePin_ok {keydev : Block 32} {upgraded : Bytes × Block 32} {s s' : Device} (hlength : 2 ≤ record.length)
    (h : upgradePin record hash keydev s = (.ok upgraded, s')) :
    upgraded.1 ≠ [] ∧ codepointsOf upgraded.1 = codepointsOf record ∧
      (isLegacy record = true → upgraded.1 = newPinRecord (byteAt record 0) (byteAt record 1) hash) ∧
      (isLegacy record = false → upgraded.1 = record) := by
  unfold upgradePin at h
  split at h
  · next hlegacy =>
    obtain ⟨_, _, -, h⟩ := bind_ok h
    obtain ⟨_, _, -, h⟩ := bind_ok h
    obtain ⟨_, _, -, h⟩ := bind_ok h
    obtain ⟨rfl, -⟩ := pure_ok h
    refine ⟨by simp [newPinRecord], ?_, fun _ => rfl, fun h => absurd hlegacy (by simp [h])⟩
    match record, hlength with
    | _ :: _ :: _, _ => rfl
  · next hlegacy =>
    obtain ⟨rfl, -⟩ := pure_ok h
    exact ⟨fun h : record = [] => absurd hlength (by rw [h]; decide), rfl, fun h => absurd h hlegacy, fun _ => rfl⟩

end

/-! ### A right PIN -/

section
variable {Q : PinLengths → Prop} {p : ClientPinParams} {c : Presented} {d : Device}

/-- changePIN with a right PIN, up to the record of the new one. -/
def storing (p : ClientPinParams) (c : Presented) : CtapOp Bytes := do
  let (record, keydev) ← upgradePin c.record c.hash (.zero 32)
  confirmPin record c.hash
  let files ← getFiles
  let pin ← ofExcept (newPinOf files p c.sharedSecret)
  rekey (hashOfPin pin) keydev
  return pin

theorem acceptPin_change (h4 : p.subcommand = 0x4) : acceptPin p c = do
    let pin ← storing p c
    storeNewPin pin
    return .done := by
  simp only [acceptPin, if_pos h4, storing, bind_assoc, pure_bind]

theorem storing_lengths (hlength : 2 ≤ c.record.length) (hrecord : pinRecord d.store.view = some c.record) :
    Quiet (Carries (LengthsIn Q)) d (storing p c d).2 := by
  unfold storing
  refine rel_bind (Keeps.rel d) fun upgraded s hs => ?_
  have hsame : pinLengths s.store.view = pinLengths d.store.view := same_lengths (fun _ => inferInstance) hs
  obtain ⟨hne, hcodepoints, -⟩ := upgradePin_ok hlength hs
  refine rel_bind (confirmPin_lengths hne ?_) fun _ s _ => ?_
  · rw [hsame, pinLengths_record hrecord, hcodepoints]
  · exact Keeps.rel s

private theorem answerToken_forced (p : ClientPinParams) (sharedSecret : Bytes) (h : forceChangePin d.store.view = true) :
    ∃ e, answerToken p sharedSecret d = (.error e, d) := by
  unfold answerToken
  rw [bind_eq (getFiles_run d)]
  by_cases hconfig : forceChangePin d.files = true ∧ p.subcommand = 0x9 ∧ p.permissions = 0x20 ∧ p.rpId = none
  · exact ⟨_, by rw [refuseIf_true hconfig]; rfl⟩
  · exact ⟨_, by rw [refuseIf_false hconfig, pure_bind, refuseIf_true (show forceChangePin d.files = true from h)]; rfl⟩

/-- A token is asked for with the right PIN: the lengths stay, and none is given while the PIN has to be changed. -/
theorem acceptPin_token (h4 : p.subcommand ≠ 0x4) (hlength : 2 ≤ c.record.length)
    (hrecord : pinRecord d.store.view = some c.record) :
    InStore (Carries (LengthsIn Q)) d (acceptPin p c d).2 ∧
      ((pinLengths d.store.view).forced = true → Quiet (Carries (LengthsIn Q)) d (acceptPin p c d).2 ∧
        ∃ e, (acceptPin p c d).1 = .error e) := by
  have hconfirmed : ∀ {upgraded s}, upgradePin c.record c.hash (.zero 32) d = (.ok upgraded, s) → ∀ Q : PinLengths → Prop,
      Quiet (Carries (LengthsIn Q)) s ((confirmPinForToken upgraded.1 c.hash : CtapOp Unit) s).2 := fun hs Q => by
    obtain ⟨hne, hcodepoints, -⟩ := upgradePin_ok hlength hs
    refine confirmPinForToken_lengths hne ?_
    rw [same_lengths (fun _ => inferInstance) hs, pinLengths_record hrecord, hcodepoints]
  rw [acceptPin, if_neg h4]
  refine ⟨rel_bind (Keeps.rel d) fun upgraded s hs => rel_bind (hconfirmed hs Q).1 fun _ t _ => Keeps.rel t, fun hforced => ?_⟩
  have hanswer : ∀ {upgraded s t}, upgradePin c.record c.hash (.zero 32) d = (.ok upgraded, s) →
      (confirmPinForToken upgraded.1 c.hash : CtapOp Unit) s = (.ok (), t) → forceChangePin t.store.view = true := by
    intro upgraded s t hs ht
    have hkept := (hconfirmed hs (· = pinLengths s.store.view)).1.view rfl
    rw [ht] at hkept
    have hsame : pinLengths t.store.view = pinLengths d.store.view := hkept.trans (same_lengths (fun _ => inferInstance) hs)
    exact (congrArg PinLengths.forced hsame).trans hforced
  constructor
  · refine rel_bind (Keeps.rel d) fun upgraded s hs => rel_bind (hconfirmed hs Q) fun _ t ht => ?_
    obtain ⟨e, hrefused⟩ := answerToken_forced p c.sharedSecret (hanswer hs ht)
    rw [bind_run, hrefused]
    exact Std.Refl.refl t
  · refine bind_fails fun upgraded s hs => bind_fails fun _ t ht => ?_
    obtain ⟨e, hrefused⟩ := answerToken_forced p c.sharedSecret (hanswer hs ht)
    exact ⟨e, by rw [bind_run, hrefused]⟩

omit [Sdk] in
theorem takeWhile_short {padded : Bytes} (h : byteAt padded 63 = 0) : (padded.takeWhile (· ≠ 0)).length ≤ 63 := by
  by_contra hlong
  rw [Nat.not_le] at hlong
  have hinitial := List.takeWhile_prefix (l := padded) (fun b => decide (b ≠ 0))
  have hmem : (padded.takeWhile (· ≠ 0))[63] ∈ padded.takeWhile (· ≠ 0) := List.getElem_mem _
  have hne := List.all_eq_true.mp List.all_takeWhile _ hmem
  rw [hinitial.getElem] at hne
  have hlength : 63 < padded.length := Nat.lt_of_lt_of_le hlong hinitial.length_le
  rw [byteAt, List.getD_eq_getElem?_getD, List.getElem?_eq_getElem hlength, Option.getD_some] at h
  simp [h] at hne

theorem newPinOf_ok {files : Files} {sharedSecret pin : Bytes} (h : newPinOf files p sharedSecret = .ok pin) :
    minPinLen files ≤ pinCodepointLen pin ∧ pinCodepointLen pin ≤ 63 := by
  unfold newPinOf at h
  split at h
  · cases h
  · split at h
    · cases h
    · next padded _ =>
      unfold acceptedPin at h
      dsimp only at h
      split at h
      · cases h
      · next hfits =>
        split at h
        · cases h
        · next hleast =>
          split at h
          · cases h
          · cases h
            have hshort : (padded.takeWhile (· ≠ 0)).length ≤ 63 := takeWhile_short (by simpa using (not_or.mp hfits).2)
            exact ⟨Nat.not_lt.mp hleast, Nat.le_trans (List.length_filter_le _ _) hshort⟩

/-- EF_PIN holds the given bytes. -/
def RecordFile (record : Bytes) (files : Files) : Prop := files efPin = some record

omit [Sdk] in
instance (record : Bytes) : ReadsOnly (RecordFile record) IsPinFile where
  congr h hfile := (h efPin (.inl rfl)).trans hfile

omit [Sdk] in
theorem pinRecord_file {files : Files} {record : Bytes} (h : pinRecord files = some record) : files efPin = some record := by
  unfold pinRecord fileData at h
  split at h
  · next b bs heq => rw [heq, Option.some.inj h]
  · cases h

/-- The write that upgrades a legacy record fails. -/
def UpgradeFails (c : Presented) (d : Device) : Prop :=
  ∃ upgraded s, upgradePin c.record c.hash (.zero 32) d = (.ok upgraded, s) ∧ isLegacy c.record = true ∧
    s.store.fates.head? = some false

/-- Confirming a PIN leaves a record with its verifier. -/
theorem confirmPin_record {record hash : Bytes} {u : Unit} {s : Device} (h : (confirmPin record hash : CtapOp Unit) d = (.ok u, s))
    (hwritten : d.store.fates.head? = some false → ∃ old, d.store.view efPin = some old ∧ old.drop 3 = record.drop 3) :
    ∃ stored, s.store.view efPin = some stored ∧ stored.drop 3 = record.drop 3 := by
  obtain ⟨_, t, hsession, h⟩ := bind_ok h
  cases hsession
  obtain ⟨_, t, hput, h⟩ := bind_ok h
  obtain ⟨store, hrun, -, hstore⟩ := putFile_run (ε := CtapError) efPin (record.set 0 maxPinRetries)
    { d with sessionPin := Sdk.pinDeriveSession hash }
  rw [hrun] at hput
  cases hput
  have hwrote : ∃ stored, store.view efPin = some stored ∧ stored.drop 3 = record.drop 3 := by
    rcases hstore with ⟨hview, -⟩ | ⟨hview, -, hfate⟩
    · exact ⟨_, by rw [hview, Function.update_self], by cases record <;> rfl⟩
    · obtain ⟨old, hold, hdrop⟩ := hwritten hfate
      exact ⟨old, by rw [hview]; exact hold, hdrop⟩
  obtain ⟨stored, hstored, hdrop⟩ := hwrote
  have hrest : Keeps (InStore (Carries (RecordFile stored))) ((commit >>= fun _ =>
      checkKeydevEncrypted (Sdk.pinDeriveSession hash) >>= fun _ => modify fun d => { d with newPinMismatches := 0 }) : CtapOp Unit) :=
    inferInstance
  exact ⟨stored, (hrest.of_run h).view hstored, hdrop⟩

/-- The new PIN is long enough, and the record it replaces is one of the PIN presented. -/
theorem storing_ok {pin : Bytes} {s : Device} (hlength : 2 ≤ c.record.length)
    (hrecord : pinRecord d.store.view = some c.record) (haccepted : c.accepted = true)
    (h : storing p c d = (.ok pin, s)) : minPinLen s.store.view ≤ pinCodepointLen pin ∧ pinCodepointLen pin ≤ 63 ∧
      pinLengths s.store.view = pinLengths d.store.view ∧
      (¬ UpgradeFails c d → ∃ record, s.store.view efPin = some record ∧ record.drop 3 = (Sdk.pinDeriveVerifier c.hash).1) := by
  have hsame : pinLengths s.store.view = pinLengths d.store.view := by
    have hkept := (storing_lengths (Q := (· = pinLengths d.store.view)) (p := p) hlength hrecord).1.view rfl
    rwa [h] at hkept
  obtain ⟨upgraded, t, hupgrade, h⟩ := bind_ok h
  obtain ⟨hne, hcodepoints, hlegacy, hcurrent⟩ := upgradePin_ok hlength hupgrade
  have hrecord' : pinRecord t.store.view = some c.record :=
    ((inferInstance : Keeps (InStore (Carries (RecordIs (some c.record)))) (upgradePin c.record c.hash (.zero 32))).of_run
      hupgrade).view hrecord
  obtain ⟨_, t', hconfirm, h⟩ := bind_ok h
  obtain ⟨files, _, hfiles, h⟩ := bind_ok h
  cases hfiles
  obtain ⟨pin', _, hpin, h⟩ := bind_ok h
  obtain ⟨haccept, rfl⟩ := ofExcept_ok hpin
  obtain ⟨_, s', hrekey, h⟩ := bind_ok h
  obtain ⟨rfl, rfl⟩ := pure_ok h
  obtain ⟨hleast, hshort⟩ := newPinOf_ok haccept
  have hrekeyed : pinLengths s'.store.view = pinLengths t'.store.view := same_lengths (fun _ => inferInstance) hrekey
  refine ⟨le_of_eq_of_le (congrArg PinLengths.least hrekeyed) hleast, hshort, hsame, fun hwritten => ?_⟩
  have hverifier : upgraded.1.drop 3 = (Sdk.pinDeriveVerifier c.hash).1 := by
    cases hform : isLegacy c.record with
    | true =>
      rw [hlegacy hform]
      rfl
    | false =>
      rw [hcurrent hform]
      have hmatches : pinMatches c.record c.hash = true := haccepted
      rw [pinMatches, hform, if_neg (by simp)] at hmatches
      exact (of_decide_eq_true hmatches).symm
  have hstored : ∃ stored, t'.store.view efPin = some stored ∧ stored.drop 3 = upgraded.1.drop 3 := by
    refine confirmPin_record hconfirm fun hfate => ⟨c.record, pinRecord_file hrecord', ?_⟩
    cases hform : isLegacy c.record with
    | true => exact absurd ⟨upgraded, t, hupgrade, hform, hfate⟩ hwritten
    | false => rw [hcurrent hform]
  obtain ⟨stored, hstored, hdrop⟩ := hstored
  refine ⟨stored, ?_, hdrop.trans hverifier⟩
  exact ((inferInstance : Keeps (InStore (Carries (RecordFile stored))) (rekey (hashOfPin pin) upgraded.2)).of_run hrekey).view hstored

end

/-! ### The new record -/

section
variable [ObjectLibrary] {d s : Device} {i : Input} {pin : Bytes}

/-- The record that changePIN stores. -/
def changedRecord (pin : Bytes) : Bytes := newPinRecord maxPinRetries (UInt8.ofNat (pinCodepointLen pin)) (hashOfPin pin)

omit [ObjectLibrary] in
theorem changedRecord_stored {files : Files} (hshort : pinCodepointLen pin ≤ 63)
    (h : files efPin = some (changedRecord pin)) :
    pinRecord files = some (changedRecord pin) ∧ (pinLengths files).codepoints = some (pinCodepointLen pin) := by
  have hrecord : pinRecord files = some (changedRecord pin) := by
    unfold pinRecord fileData
    rw [h]
    rfl
  refine ⟨hrecord, (pinLengths_record hrecord).trans (congrArg some ?_)⟩
  rw [changedRecord, codepointsOf_new, UInt8.toNat_ofNat']
  omega

/-- What is left of storing the new PIN once its files are written. -/
def finishNewPin : CtapOp Unit := do
  commit
  resetPinUvAuthToken
  resetPersistentPinUvAuthToken
  modify fun d => { d with needsPowerCycle := false }

omit [Sdk] [ObjectLibrary] in
instance {S : Store Nat UInt8 → Store Nat UInt8 → Prop} [Sees S IsPinFile] : Keeps (Quiet S) finishNewPin := by
  unfold finishNewPin
  infer_instance

/-- What the two writes of changePIN leave: either may have failed, and the second is made for a forced change only. -/
structure NewPinWritten (pin : Bytes) (s s' : Store Nat UInt8) : Prop where
  log : ∃ new, s'.log = new ++ s.log ∧ ∀ im, .commit im ∉ new
  durable : s'.durable = s.durable
  view : ∃ written, (written = Function.update s.view efPin (some (changedRecord pin)) ∨
      written = s.view ∧ s.fates.head? = some false) ∧
    (s'.view = written ∨ forceChangePin s.view = true ∧
      s'.view = Function.update written efMinpinlen (some (((fileData s.view efMinpinlen).getD []).set 1 0)))
  other : forceChangePin s.view = true → (changedRecord pin).drop 3 ≠ readPast 32 (((s.view efPin).getD []).drop 3)

omit [ObjectLibrary] in
theorem storeNewPin_eq (pin : Bytes) :
    storeNewPin pin = (do
      let files ← getFiles
      refuseIf (forceChangePin files = true ∧ (changedRecord pin).drop 3 = readPast 32 (((files efPin).getD []).drop 3))
        .pinPolicyViolation
      putFile efPin (changedRecord pin)
      runIf (forceChangePin files = true) (putFile efMinpinlen (((fileData files efMinpinlen).getD []).set 1 0))
      finishNewPin) := rfl

omit [ObjectLibrary] in
/-- Storing the new PIN is refused, or writes its files and finishes. -/
theorem storeNewPin_run (pin : Bytes) (s : Device) :
    (∃ e, storeNewPin pin s = (.error e, s)) ∨
      ∃ store, storeNewPin pin s = finishNewPin { s with store := store } ∧ NewPinWritten pin s.store store := by
  rw [storeNewPin_eq, bind_eq (getFiles_run s)]
  by_cases hrepeats : forceChangePin s.files = true ∧ (changedRecord pin).drop 3 = readPast 32 (((s.files efPin).getD []).drop 3)
  · exact .inl ⟨.pinPolicyViolation, by rw [refuseIf_true hrepeats]; rfl⟩
  refine .inr ?_
  obtain ⟨store, hput, hdurable, hstore⟩ := putFile_run (ε := CtapError) efPin (changedRecord pin) s
  have hother : forceChangePin s.store.view = true → (changedRecord pin).drop 3 ≠ readPast 32 (((s.store.view efPin).getD []).drop 3) :=
    fun hforced hsame => hrepeats ⟨hforced, hsame⟩
  have hwritten : ∃ new, store.log = new ++ s.store.log ∧ ∀ im, .commit im ∉ new := by
    rcases hstore with ⟨-, hlog⟩ | ⟨-, hlog, -⟩
    · exact ⟨[_], hlog, by simp⟩
    · exact ⟨[], hlog, by simp⟩
  have hview : store.view = Function.update s.store.view efPin (some (changedRecord pin)) ∨
      store.view = s.store.view ∧ s.store.fates.head? = some false := hstore.imp And.left fun h => ⟨h.1, h.2.2⟩
  by_cases hforced : forceChangePin s.files = true
  · obtain ⟨store', hput', hdurable', hstore'⟩ := putFile_run (ε := CtapError) efMinpinlen
      (((fileData s.files efMinpinlen).getD []).set 1 0) { s with store := store }
    refine ⟨store', ?_, ?_, hdurable'.trans hdurable, ⟨store.view, hview, ?_⟩, hother⟩
    · rw [refuseIf_false hrepeats, pure_bind, runIf_true hforced]
      refine (bind_eq hput).trans ?_
      exact bind_eq hput'
    · obtain ⟨new, hlog, hno⟩ := hwritten
      rcases hstore' with ⟨-, hlog'⟩ | ⟨-, hlog', -⟩
      · exact ⟨_ :: new, by rw [hlog', hlog]; rfl, by simpa using hno⟩
      · exact ⟨new, by rw [hlog', hlog], hno⟩
    · rcases hstore' with ⟨hview', -⟩ | ⟨hview', -, -⟩
      · exact .inr ⟨hforced, hview'⟩
      · exact .inl hview'
  · refine ⟨store, ?_, hwritten, hdurable, ⟨store.view, hview, .inl rfl⟩, hother⟩
    rw [refuseIf_false hrepeats, pure_bind, runIf_false hforced]
    exact bind_eq hput

omit [Sdk] [ObjectLibrary] in
private theorem resetAuthToken_run (fid : Nat) (d : Device) : ∃ s, (resetAuthToken fid : CtapOp Unit) d = (.ok (), s) := by
  obtain ⟨store, hput, -⟩ := putFile_run (ε := CtapError) fid (d.entropy.block 32).1 { d with entropy := d.entropy.rest 32 }
  unfold resetAuthToken
  rw [bind_eq (show (randomBlock 32 : CtapOp (Block 32)) d = _ from rfl), bind_eq hput]
  exact ⟨_, rfl⟩

omit [Sdk] [ObjectLibrary] in
theorem resetPinUvAuthToken_run (d : Device) :
    ∃ s, (resetPinUvAuthToken : CtapOp Unit) d = (.ok (), s) ∧ s.paut.permissions = 0 := by
  obtain ⟨s, hs⟩ := resetAuthToken_run efAuthtoken d
  unfold resetPinUvAuthToken
  rw [bind_eq hs]
  exact ⟨_, rfl, rfl⟩

omit [Sdk] [ObjectLibrary] in
theorem resetPersistentPinUvAuthToken_run (d : Device) :
    ∃ s, (resetPersistentPinUvAuthToken : CtapOp Unit) d = (.ok (), s) ∧ s.ppaut.permissions = 0 := by
  obtain ⟨s, hs⟩ := resetAuthToken_run efPauthtoken d
  unfold resetPersistentPinUvAuthToken
  rw [bind_eq hs]
  exact ⟨_, rfl, rfl⟩

omit [Sdk] [ObjectLibrary] in
theorem finishNewPin_run (d : Device) : ∃ s, finishNewPin d = (.ok (), s) := by
  obtain ⟨s, hs, -⟩ := resetPinUvAuthToken_run { d with store := d.store.sync }
  obtain ⟨t, ht, -⟩ := resetPersistentPinUvAuthToken_run s
  unfold finishNewPin
  rw [bind_eq (show (commit : CtapOp Unit) d = (.ok (), { d with store := d.store.sync }) from rfl), bind_eq hs, bind_eq ht]
  exact ⟨_, rfl⟩

omit [ObjectLibrary] in
/-- Dropping the flag leaves the least length. -/
private theorem minPinLen_dropped {files files' : Files} (hforced : forceChangePin files = true)
    (h : files' efMinpinlen = some (((fileData files efMinpinlen).getD []).set 1 0)) : minPinLen files' = minPinLen files := by
  unfold forceChangePin at hforced
  unfold minPinLen
  cases hdata : fileData files efMinpinlen with
  | none => simp [hdata] at hforced
  | some data =>
    rw [hdata, Option.getD_some] at h
    unfold fileData at hdata ⊢
    rw [h]
    split at hdata
    · next b bs _ =>
      cases hdata
      cases bs <;> rfl
    · cases hdata

omit [ObjectLibrary] in
/-- The two writes leave a record of the new PIN, or nothing was written. -/
private theorem NewPinWritten.lengths {store store' : Store Nat UInt8} (h : NewPinWritten pin store store')
    (hshort : pinCodepointLen pin ≤ 63)
    (hstored : forceChangePin store.view = true → store.fates.head? ≠ some false) :
    store'.view = store.view ∨
      pinRecord store'.view = some (changedRecord pin) ∧ (pinLengths store'.view).codepoints = some (pinCodepointLen pin) ∧
        minPinLen store'.view = minPinLen store.view ∧
        (forceChangePin store.view = false → forceChangePin store'.view = false) := by
  obtain ⟨written, rfl | ⟨rfl, hfate⟩, hview⟩ := h.view
  · right
    rcases hview with hview | ⟨hforced, hview⟩
    · have hmin : store'.view efMinpinlen = store.view efMinpinlen := by rw [hview, Function.update_of_ne (by decide)]
      have hfile : store'.view efPin = some (changedRecord pin) := by rw [hview, Function.update_self]
      obtain ⟨hrecord, hcodepoints⟩ := changedRecord_stored hshort hfile
      exact ⟨hrecord, hcodepoints, by simp only [minPinLen, fileData, hmin], by simp only [forceChangePin, fileData, hmin, imp_self]⟩
    · have hfile : store'.view efPin = some (changedRecord pin) := by
        rw [hview, Function.update_of_ne (by decide), Function.update_self]
      obtain ⟨hrecord, hcodepoints⟩ := changedRecord_stored hshort hfile
      exact ⟨hrecord, hcodepoints, minPinLen_dropped hforced (by rw [hview, Function.update_self]), by simp [hforced]⟩
  · rcases hview with hview | ⟨hforced, -⟩
    · exact .inl hview
    · exact absurd hfate (hstored hforced)

/-- The change that is asked for is not stored: the write of the new record fails, or the new PIN repeats one whose
record could not be upgraded. -/
def LosesChange (d : Device) (i : Input) : Prop :=
  ∃ p c pin s, i = .cbor (.clientPin (.params p)) ∧ p.subcommand = 0x4 ∧ comparison i d = some c ∧ c.presented.accepted = true ∧
    storing p c.presented c.state = (.ok pin, s) ∧ forceChangePin s.store.view = true ∧
    (s.store.fates.head? = some false ∧ (changedRecord pin).drop 3 ≠ readPast 32 (((s.store.view efPin).getD []).drop 3) ∨
      UpgradeFails c.presented c.state ∧ (Sdk.pinDeriveVerifier (hashOfPin pin)).1 = (Sdk.pinDeriveVerifier c.presented.hash).1)

omit [ObjectLibrary] in
theorem comparison_lengths {c : Comparison} (h : comparison i d = some c) :
    pinLengths c.state.store.view = pinLengths d.store.view ∧ 2 ≤ c.presented.record.length ∧
      pinRecord c.state.store.view = some c.presented.record := by
  obtain ⟨p, -, -, hrun⟩ := comparison_some h
  exact comparing_lengths hrun

theorem changePin_done {p : ClientPinParams} {c : Comparison} {t : Device} (hi : i = .cbor (.clientPin (.params p)))
    (h4 : p.subcommand = 0x4) (hc : comparison i d = some c) (haccepted : c.presented.accepted = true)
    (hstoring : storing p c.presented c.state = (.ok pin, s)) (hstore : storeNewPin pin s = (.ok (), t)) :
    (authenticate i d).1 = .ok (some (.clientPin .done)) := by
  obtain ⟨p', hi', hp, hrun⟩ := comparison_some hc
  subst hi
  cases hi'
  rw [clientPin_eq hp, map_run, bind_eq hrun, afterComparison_right haccepted, acceptPin_change h4, bind_eq hstoring, bind_eq hstore]
  rfl

/-- Where the PIN does not have to be changed, or the new one is recorded, changePIN does what a message may do. -/
theorem storeNewPin_lawful {p : ClientPinParams} {c : Comparison}
    (hi : i = .cbor (.clientPin (.params p))) (h4 : p.subcommand = 0x4) (hc : comparison i d = some c)
    (haccepted : c.presented.accepted = true) (hstoring : storing p c.presented c.state = (.ok pin, s))
    (hstored : ¬ LosesChange d i) : Quiet (Carries (Lawful d i)) s (storeNewPin pin s).2 := by
  obtain ⟨hsame, hlength, hrecord⟩ := comparison_lengths hc
  obtain ⟨hleast, hshort, hsame', hverifier⟩ := storing_ok hlength hrecord haccepted hstoring
  rw [hsame] at hsame'
  have hforced : forceChangePin s.store.view = (pinLengths d.store.view).forced := congrArg PinLengths.forced hsame'
  have hmin : minPinLen s.store.view = (pinLengths d.store.view).least := congrArg PinLengths.least hsame'
  rcases storeNewPin_run pin s with ⟨e, hrun⟩ | ⟨store, hrun, hwritten⟩
  · rw [hrun]
    exact Std.Refl.refl s
  rw [hrun]
  have hother : forceChangePin s.store.view = true →
      (Sdk.pinDeriveVerifier (hashOfPin pin)).1 ≠ (Sdk.pinDeriveVerifier c.presented.hash).1 := fun hforced hrepeats => by
    have hupgraded : ¬ UpgradeFails c.presented c.state := fun hfails =>
      hstored ⟨p, c, pin, s, hi, h4, hc, haccepted, hstoring, hforced, .inr ⟨hfails, hrepeats⟩⟩
    obtain ⟨old, hold, hdrop⟩ := hverifier hupgraded
    refine hwritten.other hforced ?_
    rw [hold, Option.getD_some, hdrop, ← hrepeats, readPast_of_length (Sdk.pinDeriveVerifier _).2]
    rfl
  have hkept : Carries (Lawful d i) s.store store := by
    obtain ⟨new, hlog, hnew⟩ := hwritten.log
    refine .writes hlog hnew hwritten.durable fun hs => ?_
    have hfate : forceChangePin s.store.view = true → s.store.fates.head? ≠ some false := fun hforced hfate =>
      hstored ⟨p, c, pin, s, hi, h4, hc, haccepted, hstoring, hforced, .inl ⟨hfate, hwritten.other hforced⟩⟩
    rcases hwritten.lengths hshort hfate with hview | ⟨hrecorded, hcodepoints, hmin', hunforced⟩
    · rwa [hview]
    refine ⟨fun n hn => .inl ?_, Nat.le_of_eq (hmin.symm.trans hmin'.symm), fun hbefore hafter => ?_, fun hbefore hafter => ?_⟩
    · obtain rfl : pinCodepointLen pin = n := Option.some.inj (hcodepoints.symm.trans hn)
      exact le_of_eq_of_le hmin' hleast
    · refine ⟨p, c, pin, hi, h4, hc, haccepted, ?_, hrecorded, le_of_eq_of_le hmin' hleast, hother (hforced.trans hbefore)⟩
      obtain ⟨t, hdone⟩ := finishNewPin_run { s with store := store }
      exact changePin_done hi h4 hc haccepted hstoring (hrun.trans hdone)
    · have hstill : forceChangePin store.view = true := hafter
      rw [hunforced (hforced.trans hbefore)] at hstill
      cases hstill
  have hwrote : Quiet (Carries (Lawful d i)) s { s with store := store } := ⟨hkept, .inl rfl, .inl rfl⟩
  exact IsTrans.trans _ _ _ hwrote (Keeps.rel _)

end
end FidoTouch.Ctap
