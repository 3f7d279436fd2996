import FidoTouch.Ctap.Authorization
import FidoTouch.Ctap.PlainDevice
import FidoTouch.Ctap.Registration

/-! The store at its capacity: how many credentials getCredsMetadata tells of, and that a full store takes no new one. -/
namespace FidoTouch.Ctap
open FidoTouch.Program Handler FidoTouch.Storage FidoTouch.Resident

section
variable [Sdk] [ObjectLibrary]

/-- The slots with a credential. -/
def occupied (files : Files) : Nat := (slots.filter fun slot => (fileData files (credFid slot)).isSome).length

/-- The second number of the answer. -/
def remaining (existing : UInt8) : Nat := maxResidentCredentials - existing.toNat

omit [Sdk] [ObjectLibrary] in
theorem occupied_le (files : Files) : occupied files ≤ maxResidentCredentials := by
  have hlength : slots.length = maxResidentCredentials := List.length_finRange
  exact hlength ▸ List.length_filter_le _ _

omit [Sdk] [ObjectLibrary] in
/-- In a full store no slot is free. -/
theorem occupied_full {files : Files} (full : occupied files = maxResidentCredentials) (slot : Slot) : (fileData files (credFid slot)).isSome := by
  have hlength : (slots.filter fun slot => (fileData files (credFid slot)).isSome).length = slots.length :=
    full.trans (List.length_finRange (n := 256)).symm
  exact List.length_filter_eq_length_iff.mp hlength slot (List.mem_finRange slot)

/-! ### The numbers -/

omit [ObjectLibrary] in
private theorem authorizeRead_unchanged {p : CredMgmtParams} {d d' : Device} {u : Unit} (h : authorizeRead p d = (.ok u, d')) : d' = d := by
  unfold authorizeRead at h
  rw [bind_eq (get_run d)] at h
  split at h
  · exact (refuseIf_ok h).2.symm
  · unfold authorizePaut at h
    rw [bind_eq (get_run d)] at h
    obtain ⟨-, h⟩ := refuseIf_bind_ok h
    exact (refuseIf_ok h).2.symm

omit [ObjectLibrary] in
theorem getCredsMetadata_ok {p : CredMgmtParams} {d d' : Device} {a : CredMgmtAnswer} (h : getCredsMetadata p d = (.ok a, d')) :
    a = .metadata (UInt8.ofNat (occupied d.files)) := by
  obtain ⟨u, s, hread, hrest⟩ := bind_ok h
  obtain ⟨files, t, hfiles, hend⟩ := bind_ok hrest
  obtain ⟨rfl, -⟩ := gets_ok hfiles
  rw [← authorizeRead_unchanged hread]
  exact (pure_ok hend).1

omit [ObjectLibrary] in
private theorem listRp_ok {record : Option Bytes} {total : Option UInt16} {d d' : Device} {existing : UInt8}
    (h : listRp record total d = (.ok (.metadata existing), d')) : False := by
  obtain ⟨_, _, -, h⟩ := bind_ok h
  obtain ⟨_, _, -, h⟩ := bind_ok h
  obtain ⟨_, _, -, h⟩ := bind_ok h
  cases (pure_ok h).1

private theorem listCredential_ok {slot : Option Slot} {rpIdHash : Block 32} {total : Option UInt16} {d d' : Device} {existing : UInt8}
    (h : listCredential slot rpIdHash total d = (.ok (.metadata existing), d')) : False := by
  obtain ⟨_, _, -, h⟩ := bind_ok h
  obtain ⟨_, _, -, h⟩ := bind_ok h
  obtain ⟨_, _, -, h⟩ := bind_ok h
  obtain ⟨_, _, -, h⟩ := bind_ok h
  obtain ⟨_, _, -, h⟩ := bind_ok h
  obtain ⟨_, _, -, h⟩ := bind_ok h
  cases (pure_ok h).1

/-- Only one of the subcommands answers with the numbers. -/
private theorem cborCredMgmt_metadata {request : Parsed CredMgmtParams} {d d' : Device} {existing : UInt8}
    (h : cborCredMgmt request d = (.ok (.metadata existing), d')) : existing = UInt8.ofNat (occupied d.files) := by
  obtain ⟨p, s, hp, h⟩ := bind_ok h
  obtain ⟨-, rfl⟩ := ofExcept_ok hp
  obtain ⟨_, s, hchecks, h⟩ := bind_ok h
  obtain ⟨-, rfl⟩ := ofExcept_ok hchecks
  split at h
  · exact CredMgmtAnswer.metadata.inj (getCredsMetadata_ok h)
  · exfalso
    split at h
    · obtain ⟨_, _, -, h⟩ := bind_ok h
      obtain ⟨_, _, -, h⟩ := bind_ok h
      obtain ⟨_, _, -, h⟩ := bind_ok h
      exact listRp_ok h
    · split at h
      · obtain ⟨_, _, -, h⟩ := bind_ok h
        obtain ⟨-, h⟩ := refuseIf_bind_ok h
        exact listRp_ok h
      · split at h
        · obtain ⟨-, h⟩ := refuseIf_bind_ok h
          obtain ⟨_, _, -, h⟩ := bind_ok h
          obtain ⟨_, _, -, h⟩ := bind_ok h
          obtain ⟨_, _, -, h⟩ := bind_ok h
          exact listCredential_ok h
        · split at h
          · obtain ⟨_, _, -, h⟩ := bind_ok h
            obtain ⟨-, h⟩ := refuseIf_bind_ok h
            obtain ⟨_, _, -, h⟩ := bind_ok h
            exact listCredential_ok h
          · split at h
            · obtain ⟨_, _, -, h⟩ := bind_ok h
              cases (pure_ok h).1
            · split at h
              · obtain ⟨_, _, -, h⟩ := bind_ok h
                cases (pure_ok h).1
              · cases (pure_ok h).1

/-! ### A full store -/

/-- Discoverable credentials for a new RP or user are refused. -/
def RefusesNew (d : Device) : Prop :=
  ∀ (p : MakeCredentialParams) (a : MakeCredentialAnswer), p.extensions.credProtect < 2 ^ 64 → p.rk = true →
    (∀ slot, storesUser d p.rpIdHash (p.userId.getD []) slot = false) →
      (authenticator.move d (.cbor (.makeCredential (.params p)))).output ≠ .ok (some (.makeCredential a))

/-- The numbers are those of the store, and with nothing remaining nothing new is stored. -/
structure CountsStore (d : Device) (existing : UInt8) : Prop where
  counted : existing.toNat = occupied d.files
  left : remaining existing = maxResidentCredentials - occupied d.files
  full : remaining existing = 0 → RefusesNew d

variable [Fact KeydevCiphers]

theorem full_refuses (reads : CborReads) (clock : ∀ time, Sdk.rtcTime = some time → time < 2 ^ 64) {d : Device}
    (full : occupied d.files = maxResidentCredentials) : RefusesNew d := by
  intro p a hprotect hrk hunknown hanswered
  obtain ⟨a', hrun, hanswer⟩ := map_ok (move_answered rfl hanswered)
  obtain ⟨curve, alg, credId, key, s, hselect, hs, hregisters⟩ := cborMakeCredential_registers hrun
  have hstored := hregisters.stored
  rw [if_pos hrk] at hstored
  obtain ⟨t, t', ht, hstore, -⟩ := hstored
  rw [credentialStore_eq] at hstore
  obtain ⟨⟨cred, target, slot⟩, u, hplace, -⟩ := bind_ok hstore
  obtain ⟨-, hload, hplaced⟩ := storePlace_ok hplace
  have hbegun : SameLoads d t := IsTrans.trans _ _ _ (sameLoads_begun d) (IsTrans.trans _ _ _ hs ht)
  cases hplaced with
  | free hfree =>
    have hfile := occupied_full full slot
    rw [hbegun.freeSlot, freeSlot, Bool.and_eq_true] at hfree
    rw [Option.isNone_iff_eq_none.mp hfree.1] at hfile
    cases hfile
  | known hknown =>
    obtain ⟨s', hcreated⟩ := hregisters.created
    have huser : cred.userId.getD [] = p.userId.getD [] := by
      have hloaded := credentialLoad_created reads (encodable_credential hprotect clock hselect) hcreated ht.master
      rw [show Sdk.sha256 ((p.credential curve alg).rpId.getD []) = p.rpIdHash from rfl, hload] at hloaded
      cases hloaded
      show (recordedBytes p.userId).getD [] = _
      cases p.userId with
      | none => rfl
      | some id => cases id <;> rfl
    rw [huser, hbegun.storesUser, hunknown slot] at hknown
    cases hknown

/-- The numbers are right as long as a slot is left: of a full store the code tells that it is empty. It takes no new credential all the
same. -/
theorem metadata_counts_iff (reads : CborReads) (clock : ∀ time, Sdk.rtcTime = some time → time < 2 ^ 64) {d : Device}
    {request : Parsed CredMgmtParams} {existing : UInt8}
    (answered : (authenticator.move d (.cbor (.credMgmt request))).output = .ok (some (.credMgmt (.metadata existing)))) :
    (CountsStore d existing ↔ occupied d.files < maxResidentCredentials) ∧ (occupied d.files = maxResidentCredentials → RefusesNew d) := by
  obtain ⟨a, hrun, hanswer⟩ := map_ok (move_answered rfl answered)
  cases hanswer
  have hfiles : (ticked d).forgotten.files = d.files := by rw [Device.files_eq, Device.files_eq, ← ticked_store d]; rfl
  obtain rfl : existing = UInt8.ofNat (occupied d.files) := by rw [cborCredMgmt_metadata hrun, hfiles]
  refine ⟨⟨fun hcounts => ?_, fun hroom => ?_⟩, full_refuses reads clock⟩
  · have hlt := (UInt8.ofNat (occupied d.files)).toNat_lt
    rwa [hcounts.counted] at hlt
  · have hexisting : (UInt8.ofNat (occupied d.files)).toNat = occupied d.files := UInt8.toNat_ofNat_of_lt' hroom
    refine ⟨hexisting, by rw [remaining, hexisting], fun hnone => ?_⟩
    rw [remaining, hexisting] at hnone
    omega

end

/-! ### On a plain device -/

section Plain
attribute [local instance] cborSdk plainLibrary

/-- A credential of the RP `"a"` for a user of its own. -/
private def userRecord (user : UInt8) : Bytes :=
  let rpIdHash := Sdk.sha256 [0x61]
  let c : NewCredential := ⟨some [0x61], some [user], none, none, ⟨none, none, none, false⟩, noExtensions, false, -7, curveP256⟩
  let credId := sealCredentialId (.zero 32) (chachaKey (pinDevice []) credProto) (.zero 12) rpIdHash (credentialMap c rpIdHash 1)
  rpIdHash.1 ++ deriveResident credId ++ credId

/-- A device with records in the first slots, and a token for credential management. -/
def filledDevice (count : Nat) : Device :=
  let files (fid : Nat) := if efCred ≤ fid ∧ fid < efCred + count then some (userRecord (UInt8.ofNat (fid - efCred)))
    else (pinDevice []).files fid
  (authenticate (tokenRequest 0x9 0x04 none) { pinDevice [] with store := .powerUp files [] }.boot).2

/-- The request for the numbers, with its MAC under that token. -/
def countRequest (count : Nat) : Parsed CredMgmtParams :=
  .params { metadataRequest false 0x04 with pinUvAuthParam := some (plainMac (filledDevice count) [0x01]) }

private def toldCount : Except CtapError (Option Response) → Option UInt8
  | .ok (some (.credMgmt (.metadata existing))) => some existing
  | _ => none

private theorem of_toldCount {output : Except CtapError (Option Response)} {existing : UInt8} (h : toldCount output = some existing) :
    output = .ok (some (.credMgmt (.metadata existing))) := by
  unfold toldCount at h
  split at h
  · cases h
    rfl
  · cases h

theorem metadata_counts_two : ∃ existing, (authenticator.move (filledDevice 2) (.cbor (.credMgmt (countRequest 2)))).output =
      .ok (some (.credMgmt (.metadata existing))) ∧ occupied (filledDevice 2).files = 2 ∧ CountsStore (filledDevice 2) existing := by
  have hanswered := of_toldCount (show toldCount (authenticator.move (filledDevice 2) (.cbor (.credMgmt (countRequest 2)))).output = some 2
    by decide +kernel)
  have hoccupied : occupied (filledDevice 2).files = 2 := by decide +kernel
  exact ⟨2, hanswered, hoccupied, (metadata_counts_iff cborSdk_reads (fun _ h => nomatch h) hanswered).1.mpr (by rw [hoccupied]; decide)⟩

/-- With a record in each of the 256 slots the device says that it has none. -/
theorem full_store_tells_none : ∃ existing, (authenticator.move (filledDevice 256) (.cbor (.credMgmt (countRequest 256)))).output =
      .ok (some (.credMgmt (.metadata existing))) ∧ existing = 0 ∧ remaining existing = 256 ∧ occupied (filledDevice 256).files = 256 ∧
      ¬ CountsStore (filledDevice 256) existing := by
  have hanswered := of_toldCount (show toldCount (authenticator.move (filledDevice 256) (.cbor (.credMgmt (countRequest 256)))).output =
    some 0 by decide +kernel)
  have hoccupied : occupied (filledDevice 256).files = 256 := by decide +kernel
  refine ⟨0, hanswered, rfl, rfl, hoccupied, fun hcounts => ?_⟩
  have hcounted := hcounts.counted
  rw [hoccupied] at hcounted
  cases hcounted

end Plain
end FidoTouch.Ctap
