import FidoTouch.Ctap.Loads
import FidoTouch.Ctap.PlainDevice
import FidoTouch.Ctap.RoundTrip
import FidoTouch.Program.Cursor

/-! The two enumerations of credential management as two cursors: over the records of RPs, and over the credentials of one RP. -/
namespace FidoTouch.Ctap
open FidoTouch.Program Handler FidoTouch.Storage FidoTouch.Resident

-- The search for `Keeps` follows whole commands.
set_option synthInstance.maxSize 4096

section
variable [Sdk] [ObjectLibrary]

/-- Credential management, request by request. -/
def credManagement : Machine Device CredMgmtParams (Except CtapError CredMgmtAnswer) := ⟨fun d p => cborCredMgmt (.params p) d⟩

/-! ### What is told -/

/-- What a record is told as. -/
def toldRp (d : Device) (record : Bytes) (totalRps : Option UInt16) : Except CtapError CredMgmtAnswer := do
  let rpId ← (rpIdDecrypt record d).1.mapError fun _ => .processing
  return .rp rpId (readPast 32 (record.drop 1)) totalRps

def toldPublicKey (d : Device) (slot : Slot) (cred : Credential) : Except CtapError Bytes :=
  match residentPublicKey d slot with
  | .ok data => coseCachedKey data
  | .error _ => if isMarker d slot = true then .error .notAllowed else do
    let key ← (fidoLoadKey cred.curve (keySeed cred) d).1.mapError fun _ => .notAllowed
    return coseKey key

/-- What the credential of a slot is told as. -/
def toldCredential (d : Device) (rpIdHash : Block 32) (slot : Slot) (totalCredentials : Option UInt16) : Except CtapError CredMgmtAnswer := do
  let cred ← (loadResident slot rpIdHash d).1.mapError fun _ => .notAllowed
  let publicKey ← toldPublicKey d slot cred
  let largeBlobKey ← (listedLargeBlobKey cred d).1
  return .credential
    { userId := cred.userId
      userName := cred.userName
      userDisplayName := cred.userDisplayName
      credentialId := cred.residentId.getD (deriveResident (cred.id.getD []))
      publicKey := publicKey
      totalCredentials := totalCredentials
      credProtect := if 0 < cred.extensions.credProtect then cred.extensions.credProtect else 1
      largeBlobKey := largeBlobKey
      thirdPartyPayment := cred.extensions.present && decide (cred.extensions.thirdPartyPayment = some true) }

/-- All of them in their order, the first with their number. -/
def numbered {α β : Type} (told : α → Option UInt16 → β) (all : List α) : List β :=
  all.mapIdx fun i a => told a (if i = 0 then some (UInt16.ofNat all.length) else none)

def rpAnswers (d : Device) : List (Except CtapError CredMgmtAnswer) := numbered (toldRp d) (rpRecords d.files)

def credentialAnswers (d : Device) (rpIdHash : Block 32) : List (Except CtapError CredMgmtAnswer) :=
  numbered (toldCredential d rpIdHash) (slotsOfRp d rpIdHash.1)

/-- Every record can be told. -/
structure RecordsLoad (d : Device) : Prop where
  rp : ∀ record ∈ rpRecords d.files, ∃ rpId, (rpIdDecrypt record d).1 = .ok rpId
  credential : ∀ rpIdHash (slot : Slot), residentMatchesRp d slot rpIdHash.1 = true → ∃ a, toldCredential d rpIdHash slot none = .ok a

/-! ### Requests between a Begin and the next one -/

def Authorized (p : CredMgmtParams) (d : Device) : Prop := credMgmtChecks p = .ok () ∧ (authorizeRead p d).1 = .ok ()

/-- A request that changes no record, and is no Begin of the given enumeration that the device lets pass. -/
structure Between (begins : UInt64) (d : Device) (q : CredMgmtParams) : Prop where
  noDelete : q.subcommand ≠ 0x06
  noUpdate : q.subcommand ≠ 0x07
  noBegin : ¬ (q.subcommand = begins ∧ Authorized q d)

/-- A GetNext of an enumeration, without a malformed field. -/
def isGetNext (subcommand : UInt64) (q : CredMgmtParams) : Bool := decide (q.subcommand = subcommand) && (credMgmtChecks q).isOk

/-- The Begin tells the first, every GetNext after it the next one that no other has told, and after the last of them all are refused. -/
structure Enumerates (next : UInt64) (items : List (Except CtapError CredMgmtAnswer)) (d : Device) (p : CredMgmtParams)
    (moves : List CredMgmtParams) : Prop where
  told : ∀ a ∈ items, ∃ answer, a = .ok answer
  first : (credManagement.step d p).1 = items[0]?.getD (.error .noCredentials)
  rest : credManagement.outputs (isGetNext next) (credManagement.step d p).2 moves =
    (List.range (moves.countP (isGetNext next))).map fun n => items[n + 1]?.getD (.error .notAllowed)

theorem step_of_checked {p : CredMgmtParams} (hchecks : credMgmtChecks p = .ok ()) (d : Device) : credManagement.step d p =
    (if p.subcommand = 0x01 then getCredsMetadata p
    else if p.subcommand = 0x02 then enumerateRpsBegin p
    else if p.subcommand = 0x03 then enumerateRpsGetNext
    else if p.subcommand = 0x04 then enumerateCredentialsBegin p
    else if p.subcommand = 0x05 then enumerateCredentialsGetNext
    else if p.subcommand = 0x06 then do
      deleteCredential p
      return .done
    else if p.subcommand = 0x07 then do
      updateUserInformation p
      return .done
    else return .unopened : CtapOp CredMgmtAnswer) d := by
  show cborCredMgmt (.params p) d = _
  unfold cborCredMgmt
  rw [show (Parsed.params p).result = .ok p from rfl, ofExcept_ok_bind, hchecks, ofExcept_ok_bind]

theorem step_of_refused {p : CredMgmtParams} {e : CtapError} (hchecks : credMgmtChecks p = .error e) (d : Device) :
    credManagement.step d p = (.error e, d) := by
  show cborCredMgmt (.params p) d = _
  unfold cborCredMgmt
  rw [show (Parsed.params p).result = .ok p from rfl, ofExcept_ok_bind, hchecks]
  rfl

/-! ### What a request leaves -/

omit [ObjectLibrary] in
/-- What is loaded comes out the same, and so do the answers. -/
private theorem toldRp_same [Fact KeydevCiphers] {d d' : Device} (h : SameLoads d d') (record : Bytes) (totalRps : Option UInt16) :
    toldRp d' record totalRps = toldRp d record totalRps := by
  have hsame : (rpIdDecrypt record d').1 = (rpIdDecrypt record d).1 := Repeats.same h
  rw [toldRp, toldRp, hsame]

omit [ObjectLibrary] in
private theorem rpRecords_same {d d' : Device} (h : SameLoads d d') : rpRecords d'.files = rpRecords d.files := by
  have hfile : ∀ slot : Slot, fileData d'.files (rpFid slot) = fileData d.files (rpFid slot) := fun slot => by
    have hsame : d'.files (rpFid slot) = d.files (rpFid slot) := h.files _ (by simp only [rpFid, efRp, efKeyDev]; omega)
    rw [fileData, fileData, hsame]
  simp only [rpRecords, hfile]

private theorem slotsOfRp_same {d d' : Device} (h : SameLoads d d') (rpIdHash : Bytes) : slotsOfRp d' rpIdHash = slotsOfRp d rpIdHash := by
  simp only [slotsOfRp, h.residentMatchesRp]

theorem toldPublicKey_same [Fact KeydevCiphers] {d d' : Device} (h : SameLoads d d') (slot : Slot) (cred : Credential) :
    toldPublicKey d' slot cred = toldPublicKey d slot cred := by
  have hkey : (fidoLoadKey cred.curve (keySeed cred) d').1 = (fidoLoadKey cred.curve (keySeed cred) d).1 := Repeats.same h
  simp only [toldPublicKey, residentPublicKey, h.isMarker, h.containerReadAlloc, hkey]

private theorem toldCredential_same [Fact KeydevCiphers] {d d' : Device} (h : SameLoads d d') (rpIdHash : Block 32) (slot : Slot)
    (totalCredentials : Option UInt16) : toldCredential d' rpIdHash slot totalCredentials = toldCredential d rpIdHash slot totalCredentials := by
  have hload : (loadResident slot rpIdHash d').1 = (loadResident slot rpIdHash d).1 := Repeats.same h
  have hblob : ∀ cred, (listedLargeBlobKey cred d').1 = (listedLargeBlobKey cred d).1 := fun _ => Repeats.same h
  simp only [toldCredential, hload, toldPublicKey_same h, hblob]

/-- The total is told beside the credential, and decides nothing. -/
private theorem toldCredential_total {d : Device} {rpIdHash : Block 32} {slot : Slot}
    (h : ∃ a, toldCredential d rpIdHash slot none = .ok a) (totalCredentials : Option UInt16) :
    ∃ a, toldCredential d rpIdHash slot totalCredentials = .ok a := by
  obtain ⟨a, h⟩ := h
  unfold toldCredential at h ⊢
  rcases hload : (loadResident slot rpIdHash d).1 with e | cred <;> simp only [Except.mapError, bind, Except.bind, hload] at h ⊢
  · cases h
  rcases hpublic : toldPublicKey d slot cred with e | key <;> simp only [hpublic] at h ⊢
  · cases h
  rcases hblob : (listedLargeBlobKey cred d).1 with e | blob <;> simp only [hblob] at h ⊢
  · cases h
  · exact ⟨_, rfl⟩

omit [Sdk] [ObjectLibrary] in
theorem mapError_run {ε ε' α σ : Type} (f : ε → ε') (x : Handler σ ε α) (s : σ) : mapError f x s = ((x s).1.mapError f, (x s).2) := by
  unfold mapError
  rcases x s with ⟨_ | _, _⟩ <;> rfl

omit [ObjectLibrary] in
private theorem sameLoads_counting (f : Enumeration → Enumeration) (d : Device) : SameLoads d { d with enumeration := f d.enumeration } :=
  ⟨fun _ _ => rfl, fun _ => rfl⟩

omit [ObjectLibrary] in
/-- A record is told, whether it can be read or not, and counted. -/
private theorem listRp_run [Fact KeydevCiphers] (record : Bytes) (totalRps : Option UInt16) (d : Device) :
    ∃ d', listRp (some record) totalRps d = (toldRp d record totalRps, d') ∧
      d'.enumeration = { d.enumeration with rpCounter := d.enumeration.rpCounter + 1 } := by
  have hcounted := sameLoads_counting (fun e => { e with rpCounter := e.rpCounter + 1 }) d
  generalize hd₁ : { d with enumeration := { d.enumeration with rpCounter := d.enumeration.rpCounter + 1 } } = d₁ at hcounted
  have hsame : (rpIdDecrypt record d₁).1 = (rpIdDecrypt record d).1 := Repeats.same hcounted
  have hstorage : OnlyStorage d₁ (rpIdDecrypt record d₁).2 := Keeps.rel d₁
  refine ⟨(rpIdDecrypt record d₁).2, ?_, ?_⟩
  · have hmodify : (modifyEnumeration fun e => { e with rpCounter := e.rpCounter + 1 } : CtapOp Unit) d = (.ok (), d₁) := by rw [← hd₁]; rfl
    unfold listRp toldRp
    rw [orFail_some_bind, bind_eq hmodify, bind_run, mapError_run, hsame]
    rcases (rpIdDecrypt record d).1 with e | rpId <;> rfl
  · rw [hstorage.enumeration, ← hd₁]

/-- A public key that can be told is told, and the credential counted. -/
theorem listedPublicKey_run [Fact KeydevCiphers] {slot : Slot} {cred : Credential} {d : Device} {key : Bytes}
    (htold : toldPublicKey d slot cred = .ok key) :
    ∃ d', listedPublicKey slot cred d = (.ok key, d') ∧ SameLoads d d' ∧
      d'.enumeration = { d.enumeration with credCounter := d.enumeration.credCounter + 1 } := by
  have hcounted : ∀ d : Device, SameLoads d { d with enumeration := { d.enumeration with credCounter := d.enumeration.credCounter + 1 } } :=
    sameLoads_counting fun e => { e with credCounter := e.credCounter + 1 }
  unfold listedPublicKey
  rw [bind_eq (get_run d)]
  cases hpublic : residentPublicKey d slot with
  | ok data =>
    simp only [toldPublicKey, hpublic] at htold
    refine ⟨_, ?_, hcounted d, rfl⟩
    show (coseCachedKey data, _) = _
    rw [htold]
  | error e =>
    simp only [toldPublicKey, hpublic] at htold
    dsimp only
    split at htold
    · cases htold
    · next hmarker =>
      rw [refuseIf_false hmarker, bind_eq (pure_run () d), bind_run, mapError_run]
      have hloads : SameLoads d (fidoLoadKey cred.curve (keySeed cred) d).2 := Keeps.rel d
      have hstorage : OnlyStorage d (fidoLoadKey cred.curve (keySeed cred) d).2 := Keeps.rel d
      rcases hkey : fidoLoadKey cred.curve (keySeed cred) d with ⟨e | loaded, d₁⟩ <;> rw [hkey] at htold hloads hstorage
      · cases htold
      · cases htold
        refine ⟨_, rfl, IsTrans.trans d d₁ _ hloads (hcounted d₁), ?_⟩
        rw [← hstorage.enumeration]

private instance (cred : Credential) : Keeps OnlyStorage (listedLargeBlobKey cred) := by
  unfold listedLargeBlobKey
  infer_instance

/-- A credential that can be told is told and counted, and where more are to come the hash stays. -/
theorem listCredential_run [Fact KeydevCiphers] {slot : Slot} {rpIdHash : Block 32} {totalCredentials : Option UInt16} {d : Device}
    {a : CredMgmtAnswer} (htold : toldCredential d rpIdHash slot totalCredentials = .ok a) :
    ∃ d', listCredential (some slot) rpIdHash totalCredentials d = (.ok a, d') ∧
      d'.enumeration = { d.enumeration with
        credCounter := d.enumeration.credCounter + 1
        rpIdHashx := if d.enumeration.credCounter + 1 ≤ d.enumeration.credTotal then some rpIdHash.1 else d.enumeration.rpIdHashx } := by
  unfold toldCredential at htold
  have hloads₁ : SameLoads d (loadResident slot rpIdHash d).2 := Keeps.rel d
  have hstorage₁ : OnlyStorage d (loadResident slot rpIdHash d).2 := Keeps.rel d
  rcases hload : loadResident slot rpIdHash d with ⟨e | cred, d₁⟩ <;> rw [hload] at htold hloads₁ hstorage₁
  · cases htold
  rcases hpublic : toldPublicKey d slot cred with e | key
  · simp only [Except.mapError, bind, Except.bind, hpublic] at htold
    cases htold
  obtain ⟨d₂, hlisted, hloads₂, hcount⟩ := listedPublicKey_run ((toldPublicKey_same hloads₁ slot cred).trans hpublic)
  obtain ⟨d₃, hkept, hloads₃, hhash⟩ : ∃ d₃, (runIf (d₂.enumeration.credCounter ≤ d₂.enumeration.credTotal)
      (modifyEnumeration fun e => { e with rpIdHashx := some rpIdHash.1 }) : CtapOp Unit) d₂ = (.ok (), d₃) ∧ SameLoads d₂ d₃ ∧
      d₃.enumeration = { d₂.enumeration with rpIdHashx :=
        if d₂.enumeration.credCounter ≤ d₂.enumeration.credTotal then some rpIdHash.1 else d₂.enumeration.rpIdHashx } := by
    by_cases hmore : d₂.enumeration.credCounter ≤ d₂.enumeration.credTotal
    · rw [runIf_true hmore, if_pos hmore]
      exact ⟨_, rfl, sameLoads_counting (fun e => { e with rpIdHashx := some rpIdHash.1 }) d₂, rfl⟩
    · rw [runIf_false hmore, if_neg hmore]
      exact ⟨d₂, rfl, Std.Refl.refl d₂, rfl⟩
  have hloads : SameLoads d d₃ := IsTrans.trans _ _ _ hloads₁ (IsTrans.trans _ _ _ hloads₂ hloads₃)
  have hblob : (listedLargeBlobKey cred d₃).1 = (listedLargeBlobKey cred d).1 := Repeats.same hloads
  have hstorage₄ : OnlyStorage d₃ (listedLargeBlobKey cred d₃).2 := Keeps.rel d₃
  have hcred : (mapError (fun _ => .notAllowed) (loadResident slot rpIdHash) : CtapOp Credential) d = (.ok cred, d₁) := by
    rw [mapError_run, hload]
    rfl
  refine ⟨(listedLargeBlobKey cred d₃).2, ?_, ?_⟩
  · unfold listCredential
    rw [orFail_some_bind, bind_eq hcred, bind_eq hlisted, bind_eq (get_run d₂),
      bind_eq hkept, bind_run]
    rcases hrun : listedLargeBlobKey cred d₃ with ⟨e | blob, d₄⟩ <;> rw [hrun] at hblob <;>
      simp only [Except.mapError, bind, Except.bind, hpublic, ← hblob] at htold
    · cases htold
    · cases htold
      rfl
  · rw [hstorage₄.enumeration, hhash, hcount, hstorage₁.enumeration]

/-! ### What other requests leave in place -/

structure SameTokens (d d' : Device) : Prop where
  paut : d'.paut = d.paut
  ppaut : d'.ppaut = d.ppaut

private instance : IsEquiv Device SameTokens where
  refl _ := ⟨rfl, rfl⟩
  trans _ _ _ h h' := ⟨h'.paut.trans h.paut, h'.ppaut.trans h.ppaut⟩
  symm _ _ h := ⟨h.paut.symm, h.ppaut.symm⟩

private instance (p : CredMgmtParams) : Repeats SameTokens (authorizePaut p) := by
  unfold authorizePaut
  exact repeats_get (fun h => by rw [h.paut]) fun _ => inferInstance

private instance (p : CredMgmtParams) : Repeats SameTokens (authorizeRead p) := by
  unfold authorizeRead
  refine repeats_get (fun h => by rw [h.ppaut]) fun _ => ?_
  split <;> infer_instance

omit [ObjectLibrary] in
theorem authorizeRead_same (p : CredMgmtParams) (d : Device) : (authorizeRead p d).2 = d := by
  have hkeeps : Keeps (@Eq Device) (authorizeRead p) := by
    unfold authorizeRead authorizePaut
    infer_instance
  exact (hkeeps.rel d).symm

/-- Records and tokens are the same, and so is the place of an enumeration. -/
structure Still {α : Type} (place : Enumeration → α) (d d' : Device) : Prop where
  loads : SameLoads d d'
  tokens : SameTokens d d'
  place : place d'.enumeration = place d.enumeration

variable {α β ε : Type} {place : Enumeration → α}

private instance : Std.Refl (Still place) := ⟨fun d => ⟨Std.Refl.refl d, ⟨rfl, rfl⟩, rfl⟩⟩
private instance : IsTrans Device (Still place) := ⟨fun d d' d'' h h' =>
  ⟨IsTrans.trans d d' d'' h.loads h'.loads, IsTrans.trans d d' d'' h.tokens h'.tokens, h'.place.trans h.place⟩⟩

omit [ObjectLibrary] in
private theorem still_stored {x : Handler Device ε β} (hloads : Keeps SameLoads x) (hstorage : Keeps OnlyStorage x) : Keeps (Still place) x where
  rel d := ⟨hloads.rel d, ⟨(congrArg Device.paut (hstorage.rel d) :), (congrArg Device.ppaut (hstorage.rel d) :)⟩, by
    rw [(hstorage.rel d).enumeration]⟩

private instance (slot : Slot) (rpIdHash : Block 32) [Fact KeydevCiphers] : Keeps (Still place) (loadResident slot rpIdHash) :=
  still_stored inferInstance inferInstance
private instance (curve : Int) (seed : Bytes) [Fact KeydevCiphers] : Keeps (Still place) (fidoLoadKey curve seed) :=
  still_stored inferInstance inferInstance
private instance (cred : Credential) [Fact KeydevCiphers] : Keeps (Still place) (listedLargeBlobKey cred) :=
  still_stored inferInstance inferInstance
private instance (record : Bytes) [Fact KeydevCiphers] : Keeps (Still place) (rpIdDecrypt record) :=
  still_stored inferInstance inferInstance

omit [ObjectLibrary] in
/-- An enumeration goes on without the other one. -/
private theorem still_counting {f : Enumeration → Enumeration} (h : ∀ e, place (f e) = place e) :
    Keeps (Still place) (modifyEnumeration f : Handler Device ε Unit) where
  rel d := ⟨sameLoads_counting f d, ⟨rfl, rfl⟩, h d.enumeration⟩

private instance : Keeps (Still place) (getFiles : Handler Device ε Files) := ⟨fun d => Std.Refl.refl d⟩

private instance (p : CredMgmtParams) : Keeps (Still place) (authorizeRead p) := by
  unfold authorizeRead authorizePaut
  infer_instance

private instance (p : CredMgmtParams) : Keeps (Still place) (getCredsMetadata p) := by
  unfold getCredsMetadata
  infer_instance

/-- The place of the enumeration of RPs. -/
def rpPlace (e : Enumeration) : UInt16 × UInt16 := (e.rpCounter, e.rpTotal)

/-- The place of the enumeration of credentials, and whose they are. -/
def credPlace (e : Enumeration) : UInt16 × UInt16 × Option Bytes := (e.credCounter, e.credTotal, e.rpIdHashx)

private instance (record : Option Bytes) (totalRps : Option UInt16) [Fact KeydevCiphers] : Keeps (Still credPlace) (listRp record totalRps) := by
  have hcounter : Keeps (Still credPlace) (modifyEnumeration fun e => { e with rpCounter := e.rpCounter + 1 } : CtapOp Unit) :=
    still_counting fun _ => rfl
  unfold listRp
  infer_instance

private instance (slot : Option Slot) (rpIdHash : Block 32) (totalCredentials : Option UInt16) [Fact KeydevCiphers] :
    Keeps (Still rpPlace) (listCredential slot rpIdHash totalCredentials) := by
  have hcounter : Keeps (Still rpPlace) (modifyEnumeration fun e => { e with credCounter := e.credCounter + 1 } : CtapOp Unit) :=
    still_counting fun _ => rfl
  have hhash : Keeps (Still rpPlace) (modifyEnumeration fun e => { e with rpIdHashx := some rpIdHash.1 } : CtapOp Unit) :=
    still_counting fun _ => rfl
  have hpublic : ∀ slot cred, Keeps (Still rpPlace) (listedPublicKey slot cred) := fun slot cred => by
    unfold listedPublicKey
    refine .bind inferInstance fun d => ?_
    split <;> infer_instance
  unfold listCredential
  infer_instance

private instance (p : CredMgmtParams) [Fact KeydevCiphers] : Keeps (Still credPlace) (enumerateRpsBegin p) := by
  have hcounters : ∀ total, Keeps (Still credPlace) (modifyEnumeration fun e => { e with rpCounter := 1, rpTotal := total } : CtapOp Unit) :=
    fun _ => still_counting fun _ => rfl
  unfold enumerateRpsBegin
  infer_instance

private instance [Fact KeydevCiphers] : Keeps (Still credPlace) enumerateRpsGetNext := by
  unfold enumerateRpsGetNext
  infer_instance

private instance (p : CredMgmtParams) [Fact KeydevCiphers] : Keeps (Still rpPlace) (enumerateCredentialsBegin p) := by
  have hcounters : ∀ total, Keeps (Still rpPlace) (modifyEnumeration fun e => { e with credCounter := 1, credTotal := total } : CtapOp Unit) :=
    fun _ => still_counting fun _ => rfl
  unfold enumerateCredentialsBegin
  infer_instance

private instance [Fact KeydevCiphers] : Keeps (Still rpPlace) enumerateCredentialsGetNext := by
  unfold enumerateCredentialsGetNext
  infer_instance

/-! ### One request -/

omit [ObjectLibrary] in
/-- Tokens alone decide. -/
private theorem authorized_same {p : CredMgmtParams} {d d' : Device} (h : SameTokens d d') : Authorized p d' ↔ Authorized p d := by
  have hread : (authorizeRead p d').1 = (authorizeRead p d).1 := Repeats.same h
  rw [Authorized, Authorized, hread]

omit [ObjectLibrary] in
theorem authorizeRead_ok {p : CredMgmtParams} {d : Device} (h : (authorizeRead p d).1 = .ok ()) : authorizeRead p d = (.ok (), d) :=
  Prod.ext h (authorizeRead_same p d)

omit [ObjectLibrary] in
theorem authorizeRead_bind_refused {β : Type} {p : CredMgmtParams} {d : Device} (h : (authorizeRead p d).1 ≠ .ok ())
    (f : Unit → CtapOp β) : ((authorizeRead p >>= f) d).2 = d := by
  have hsame := authorizeRead_same p d
  rw [bind_run]
  rcases hread : authorizeRead p d with ⟨e | ⟨⟩, d'⟩ <;> rw [hread] at h hsame
  · exact hsame
  · exact absurd rfl h

/-- What the two enumerations leave of a place, every request that changes no record leaves of it. -/
private theorem step_still [Fact KeydevCiphers] {q : CredMgmtParams} {d : Device} (hdelete : q.subcommand ≠ 0x06) (hupdate : q.subcommand ≠ 0x07)
    (hrps : q.subcommand = 0x02 → credMgmtChecks q = .ok () → Still place d (enumerateRpsBegin q d).2)
    (hnextRp : q.subcommand = 0x03 → credMgmtChecks q = .ok () → Still place d (enumerateRpsGetNext d).2)
    (hcreds : q.subcommand = 0x04 → credMgmtChecks q = .ok () → Still place d (enumerateCredentialsBegin q d).2)
    (hnextCred : q.subcommand = 0x05 → credMgmtChecks q = .ok () → Still place d (enumerateCredentialsGetNext d).2) :
    Still place d (credManagement.step d q).2 := by
  rcases hchecks : credMgmtChecks q with e | ⟨⟩
  · rw [step_of_refused hchecks]
    exact Std.Refl.refl d
  rw [step_of_checked hchecks]
  by_cases h1 : q.subcommand = 0x01
  · rw [if_pos h1]
    exact Keeps.rel d
  rw [if_neg h1]
  by_cases h2 : q.subcommand = 0x02
  · rw [if_pos h2]
    exact hrps h2 hchecks
  rw [if_neg h2]
  by_cases h3 : q.subcommand = 0x03
  · rw [if_pos h3]
    exact hnextRp h3 hchecks
  rw [if_neg h3]
  by_cases h4 : q.subcommand = 0x04
  · rw [if_pos h4]
    exact hcreds h4 hchecks
  rw [if_neg h4]
  by_cases h5 : q.subcommand = 0x05
  · rw [if_pos h5]
    exact hnextCred h5 hchecks
  rw [if_neg h5, if_neg hdelete, if_neg hupdate]
  exact Std.Refl.refl d

omit [Sdk] [ObjectLibrary] in
private theorem isGetNext_iff {n : UInt64} {q : CredMgmtParams} : isGetNext n q = true ↔ q.subcommand = n ∧ credMgmtChecks q = .ok () := by
  rw [isGetNext, Bool.and_eq_true, decide_eq_true_iff]
  rcases credMgmtChecks q with e | ⟨⟩ <;> simp [Except.isOk, Except.toBool]

/-- Behind the Begin the cursor has the rest to tell. -/
private theorem Enumerates.of_cursor {begins next : UInt64} {items : List (Except CtapError CredMgmtAnswer)} {d : Device} {p : CredMgmtParams}
    {moves : List CredMgmtParams} {At : Nat → Device → Prop}
    (C : Cursor credManagement (Between begins d) (isGetNext next) items (.error .notAllowed) At)
    (htold : ∀ a ∈ items, ∃ answer, a = .ok answer)
    (hfirst : (credManagement.step d p).1 = items[0]?.getD (.error .noCredentials) ∧ At (min 1 items.length) (credManagement.step d p).2)
    (hmoves : ∀ q ∈ moves, Between begins d q) : Enumerates next items d p moves where
  told := htold
  first := hfirst.1
  rest := by
    have hplace : ∀ n, items[min 1 items.length + n]? = items[n + 1]? := fun n => by
      cases items with
      | nil => rfl
      | cons a as => rw [List.length_cons, Nat.min_eq_left (Nat.succ_pos _), Nat.add_comm]
    rw [C.outputs hmoves (Nat.min_le_right _ _) hfirst.2]
    simp only [hplace]

/-! ### Counters -/

/-- `k` have been told of `n`. -/
structure Tally (k n : Nat) (counter total : UInt16) : Prop where
  counter : counter.toNat = k + 1
  total : total.toNat = n
  few : n ≤ 256

variable {k n : Nat} {counter total : UInt16}

omit [Sdk] [ObjectLibrary] in
private theorem Tally.exhausted (h : Tally k n counter total) : total < counter ↔ n ≤ k := by
  rw [UInt16.lt_iff_toNat_lt, h.counter, h.total]
  omega

omit [Sdk] [ObjectLibrary] in
private theorem Tally.next (h : Tally k n counter total) (hk : k < n) : Tally (k + 1) n (counter + 1) total := by
  have hfew : n ≤ 256 := h.few
  refine ⟨?_, h.total, h.few⟩
  rw [UInt16.toNat_add, h.counter, UInt16.toNat_one, Nat.mod_eq_of_lt (by omega)]

omit [Sdk] [ObjectLibrary] in
private theorem Tally.begin (hn : n ≤ 256) : Tally 0 n 1 (UInt16.ofNat n) :=
  ⟨rfl, UInt16.toNat_ofNat_of_lt' (by simp only [UInt16.size]; omega), hn⟩

omit [Sdk] [ObjectLibrary] in
private theorem numbered_length {α β : Type} (told : α → Option UInt16 → β) (all : List α) : (numbered told all).length = all.length :=
  List.length_mapIdx

omit [Sdk] [ObjectLibrary] in
/-- Only the first is told with their number. -/
private theorem numbered_later {α β : Type} {told : α → Option UInt16 → β} {all : List α} {k : Nat} (hk : k < (numbered told all).length)
    (hbegun : 0 < k) : (numbered told all)[k] = told (all.get ⟨k, by rwa [numbered_length] at hk⟩) none := by
  simp only [numbered, List.getElem_mapIdx, if_neg hbegun.ne', List.get_eq_getElem]

omit [Sdk] [ObjectLibrary] in
private theorem numbered_first {α β : Type} (told : α → Option UInt16 → β) (all : List α) :
    (numbered told all)[0]? = all[0]?.map fun a => told a (some (UInt16.ofNat all.length)) := by
  rw [numbered, List.getElem?_mapIdx]
  rfl

/-! ### The enumeration of RPs -/

omit [Sdk] [ObjectLibrary] in
private theorem rpRecords_few (files : Files) : (rpRecords files).length ≤ 256 :=
  (List.length_filter_le _ _).trans ((List.length_filterMap_le _ _).trans (by rw [slots, List.length_finRange]))

/-- The RP told next is the one at `k`. -/
structure RpAt (d : Device) (k : Nat) (s : Device) : Prop where
  loads : SameLoads d s
  tokens : SameTokens d s
  counts : Tally k (rpRecords d.files).length s.enumeration.rpCounter s.enumeration.rpTotal
  begun : 0 < (rpRecords d.files).length → 0 < k

omit [ObjectLibrary] in
private theorem RpAt.still {d s s' : Device} {k : Nat} (hs : RpAt d k s) (h : Still rpPlace s s') : RpAt d k s' := by
  obtain ⟨hcounter, htotal⟩ := Prod.mk.inj h.place
  refine ⟨IsTrans.trans _ _ _ hs.loads h.loads, IsTrans.trans _ _ _ hs.tokens h.tokens, ?_, hs.begun⟩
  rw [hcounter, htotal]
  exact hs.counts

omit [ObjectLibrary] in
private theorem toldRp_ok {d : Device} {record : Bytes} (h : ∃ rpId, (rpIdDecrypt record d).1 = .ok rpId) (totalRps : Option UInt16) :
    ∃ answer, toldRp d record totalRps = .ok answer := by
  obtain ⟨rpId, h⟩ := h
  exact ⟨.rp rpId (readPast 32 (record.drop 1)) totalRps, by rw [toldRp, h]; rfl⟩

private theorem rpCursor [Fact KeydevCiphers] (d : Device) :
    Cursor credManagement (Between 0x02 d) (isGetNext 0x03) (rpAnswers d) (.error .notAllowed) (RpAt d) where
  next {k s q} hk _ hown hs := by
    obtain ⟨hsub, hchecks⟩ := isGetNext_iff.mp hown
    have hlength : k < (rpRecords d.files).length := by rwa [rpAnswers, numbered_length] at hk
    have hmore : ¬ s.enumeration.rpTotal < s.enumeration.rpCounter := fun h => absurd (hs.counts.exhausted.mp h) (by omega)
    obtain ⟨s', hrun, hcount⟩ := listRp_run (rpRecords d.files)[k] none s
    have hstill : Still credPlace s s' := Keeps.of_run inferInstance hrun
    have hstep : credManagement.step s q = (toldRp s (rpRecords d.files)[k] none, s') := by
      rw [step_of_checked hchecks]
      simp +decide only [hsub, if_true, if_false]
      unfold enumerateRpsGetNext
      rw [bind_eq (get_run s), refuseIf_false hmore, rpRecords_same hs.loads, hs.counts.counter, Nat.add_sub_cancel,
        List.getElem?_eq_getElem hlength]
      exact hrun
    have hbegun : 0 < k := hs.begun (Nat.zero_lt_of_lt hlength)
    rw [hstep, toldRp_same hs.loads]
    refine ⟨(numbered_later hk hbegun).symm, IsTrans.trans _ _ _ hs.loads hstill.loads, IsTrans.trans _ _ _ hs.tokens hstill.tokens, ?_,
      fun _ => Nat.succ_pos k⟩
    rw [hcount]
    exact hs.counts.next hlength
  done {s q} _ hown hs := by
    obtain ⟨hsub, hchecks⟩ := isGetNext_iff.mp hown
    have hdone : s.enumeration.rpTotal < s.enumeration.rpCounter := hs.counts.exhausted.mpr (by rw [rpAnswers, numbered_length])
    have hstep : credManagement.step s q = (.error .notAllowed, s) := by
      rw [step_of_checked hchecks]
      simp +decide only [hsub, if_true, if_false]
      unfold enumerateRpsGetNext
      rw [bind_eq (get_run s), refuseIf_true hdone]
      rfl
    rw [hstep]
    exact ⟨rfl, hs⟩
  other {k s q} hq hown hs := by
    refine hs.still (step_still hq.noDelete hq.noUpdate (fun h2 hchecks => ?_) (fun h3 hchecks => ?_) (fun _ _ => Keeps.rel s)
      fun _ _ => Keeps.rel s)
    · have hread : (authorizeRead q s).1 ≠ .ok () := fun hread => hq.noBegin ⟨h2, (authorized_same hs.tokens).mp ⟨hchecks, hread⟩⟩
      unfold enumerateRpsBegin
      rw [authorizeRead_bind_refused hread]
      exact Std.Refl.refl s
    · rw [isGetNext_iff.mpr ⟨h3, hchecks⟩] at hown
      cases hown

/-- The Begin of RPs tells the first and goes on behind it. -/
private theorem beginRps [Fact KeydevCiphers] {d : Device} {p : CredMgmtParams} (hsub : p.subcommand = 0x02) (hp : Authorized p d) :
    (credManagement.step d p).1 = (rpAnswers d)[0]?.getD (.error .noCredentials) ∧
      RpAt d (min 1 (rpAnswers d).length) (credManagement.step d p).2 := by
  obtain ⟨hchecks, hread⟩ := hp
  have hcounts := Tally.begin (rpRecords_few d.files)
  have hbegins : Keeps (Still credPlace) (modifyEnumeration fun e =>
      { e with rpCounter := 1, rpTotal := UInt16.ofNat (rpRecords d.files).length } : CtapOp Unit) := still_counting fun _ => rfl
  rcases hmodify : (modifyEnumeration fun e => { e with rpCounter := 1, rpTotal := UInt16.ofNat (rpRecords d.files).length } : CtapOp Unit) d
    with ⟨u, d₁⟩
  have hstill₁ : Still credPlace d d₁ := Keeps.of_run hbegins hmodify
  have henumeration : d₁.enumeration = { d.enumeration with rpCounter := 1, rpTotal := UInt16.ofNat (rpRecords d.files).length } := by
    rw [← (Prod.mk.inj hmodify).2]
  obtain rfl : .ok () = u := (Prod.mk.inj hmodify).1
  have hstep : credManagement.step d p = listRp (rpRecords d.files)[0]? (some (UInt16.ofNat (rpRecords d.files).length)) d₁ := by
    rw [step_of_checked hchecks]
    simp +decide only [hsub, if_true, if_false]
    unfold enumerateRpsBegin
    rw [bind_eq (authorizeRead_ok hread), bind_eq (show getFiles d = (.ok d.files, d) from rfl), bind_eq hmodify]
  have hplace : Tally 0 (rpRecords d.files).length d₁.enumeration.rpCounter d₁.enumeration.rpTotal := by rw [henumeration]; exact hcounts
  have hlength : (rpAnswers d).length = (rpRecords d.files).length := numbered_length _ _
  have hitem : (rpAnswers d)[0]? = (rpRecords d.files)[0]?.map fun record => toldRp d record (some (UInt16.ofNat (rpRecords d.files).length)) :=
    numbered_first _ _
  rw [hstep, hitem, hlength]
  rcases Nat.eq_zero_or_pos (rpRecords d.files).length with hnone | hsome
  · rw [List.getElem?_eq_none (Nat.le_of_eq hnone), hnone]
    refine ⟨rfl, hstill₁.loads, hstill₁.tokens, ?_, fun h => absurd hnone h.ne'⟩
    exact hplace
  · obtain ⟨d₂, hrun, hcount⟩ := listRp_run (rpRecords d.files)[0] (some (UInt16.ofNat (rpRecords d.files).length)) d₁
    have hstill₂ : Still credPlace d₁ d₂ := Keeps.of_run inferInstance hrun
    rw [List.getElem?_eq_getElem hsome, hrun, toldRp_same hstill₁.loads, Nat.min_eq_left hsome]
    refine ⟨rfl, IsTrans.trans _ _ _ hstill₁.loads hstill₂.loads, IsTrans.trans _ _ _ hstill₁.tokens hstill₂.tokens, ?_, fun _ => Nat.one_pos⟩
    rw [hcount]
    exact hplace.next hsome

/-- From a Begin that passes on, to any run that changes no record. -/
theorem enumerateRps_complete [Fact KeydevCiphers] {d : Device} (hload : RecordsLoad d) {p : CredMgmtParams} (hsub : p.subcommand = 0x02)
    (hp : Authorized p d) {moves : List CredMgmtParams} (hmoves : ∀ q ∈ moves, Between 0x02 d q) :
    Enumerates 0x03 (rpAnswers d) d p moves := by
  have htold : ∀ a ∈ rpAnswers d, ∃ answer, a = .ok answer := fun a ha => by
    obtain ⟨i, hi, rfl⟩ := List.mem_mapIdx.mp ha
    exact toldRp_ok (hload.rp _ (List.getElem_mem hi)) _
  exact .of_cursor (rpCursor d) htold (beginRps hsub hp) hmoves

/-! ### The enumeration of credentials -/

private theorem slotsOfRp_few (d : Device) (rpIdHash : Bytes) : (slotsOfRp d rpIdHash).length ≤ 256 :=
  (List.length_filter_le _ _).trans (by rw [slots, List.length_finRange])

/-- The credential told next is the one at `k`, and where there is one the hash is still there. -/
structure CredAt (d : Device) (rpIdHash : Block 32) (k : Nat) (s : Device) : Prop where
  loads : SameLoads d s
  tokens : SameTokens d s
  counts : Tally k (slotsOfRp d rpIdHash.1).length s.enumeration.credCounter s.enumeration.credTotal
  begun : 0 < (slotsOfRp d rpIdHash.1).length → 0 < k
  hash : k < (slotsOfRp d rpIdHash.1).length → s.enumeration.rpIdHashx = some rpIdHash.1

variable {rpIdHash : Block 32}

private theorem CredAt.still {d s s' : Device} (hs : CredAt d rpIdHash k s) (h : Still credPlace s s') : CredAt d rpIdHash k s' := by
  obtain ⟨hcounter, hplace⟩ := Prod.mk.inj h.place
  obtain ⟨htotal, hhash⟩ := Prod.mk.inj hplace
  refine ⟨IsTrans.trans _ _ _ hs.loads h.loads, IsTrans.trans _ _ _ hs.tokens h.tokens, ?_, hs.begun, fun hk => hhash.trans (hs.hash hk)⟩
  rw [hcounter, htotal]
  exact hs.counts

/-- One credential told, the place is behind it. -/
private theorem listCredential_next [Fact KeydevCiphers] {d s : Device} {slot : Slot} {totalCredentials : Option UInt16} {a : CredMgmtAnswer}
    (hloads : SameLoads d s) (htokens : SameTokens d s)
    (hcounts : Tally k (slotsOfRp d rpIdHash.1).length s.enumeration.credCounter s.enumeration.credTotal)
    (hk : k < (slotsOfRp d rpIdHash.1).length) (htold : toldCredential d rpIdHash slot totalCredentials = .ok a) :
    ∃ s', listCredential (some slot) rpIdHash totalCredentials s = (.ok a, s') ∧ CredAt d rpIdHash (k + 1) s' := by
  obtain ⟨s', hrun, hcount⟩ := listCredential_run ((toldCredential_same hloads rpIdHash slot totalCredentials).trans htold)
  have hstill : Still rpPlace s s' := Keeps.of_run inferInstance hrun
  have hnext := hcounts.next hk
  refine ⟨s', hrun, IsTrans.trans _ _ _ hloads hstill.loads, IsTrans.trans _ _ _ htokens hstill.tokens, ?_, fun _ => Nat.succ_pos k,
    fun hmore => ?_⟩
  · rw [hcount]
    exact hnext
  · have hle : s.enumeration.credCounter + 1 ≤ s.enumeration.credTotal := by
      rw [UInt16.le_iff_toNat_le, hnext.counter, hnext.total]
      exact hmore
    rw [hcount]
    exact if_pos hle

private theorem toldCredential_ok {d : Device} (hload : RecordsLoad d) {slot : Slot} (hslot : slot ∈ slotsOfRp d rpIdHash.1)
    (totalCredentials : Option UInt16) : ∃ a, toldCredential d rpIdHash slot totalCredentials = .ok a :=
  toldCredential_total (hload.credential rpIdHash slot (List.mem_filter.mp hslot).2) totalCredentials

private theorem credCursor [Fact KeydevCiphers] {d : Device} (hload : RecordsLoad d) (rpIdHash : Block 32) :
    Cursor credManagement (Between 0x04 d) (isGetNext 0x05) (credentialAnswers d rpIdHash) (.error .notAllowed) (CredAt d rpIdHash) where
  next {k s q} hk _ hown hs := by
    obtain ⟨hsub, hchecks⟩ := isGetNext_iff.mp hown
    have hlength : k < (slotsOfRp d rpIdHash.1).length := by rwa [credentialAnswers, numbered_length] at hk
    have hmore : ¬ s.enumeration.credTotal < s.enumeration.credCounter := fun h => absurd (hs.counts.exhausted.mp h) (by omega)
    obtain ⟨a, htold⟩ := toldCredential_ok hload (List.getElem_mem hlength) none
    obtain ⟨s', hrun, hs'⟩ := listCredential_next hs.loads hs.tokens hs.counts hlength htold
    have hstep : credManagement.step s q = (.ok a, s') := by
      rw [step_of_checked hchecks]
      simp +decide only [hsub, if_true, if_false]
      unfold enumerateCredentialsGetNext
      rw [bind_eq (get_run s), refuseIf_false hmore, hs.hash hlength, bind_eq (pure_run () s), orFail_some_bind, slotsOfRp_same hs.loads,
        hs.counts.counter, Nat.add_sub_cancel, List.getElem?_eq_getElem hlength, Block.ofBytes_val]
      exact hrun
    rw [hstep, ← htold]
    exact ⟨(numbered_later hk (hs.begun (Nat.zero_lt_of_lt hlength))).symm, hs'⟩
  done {s q} _ hown hs := by
    obtain ⟨hsub, hchecks⟩ := isGetNext_iff.mp hown
    have hdone : s.enumeration.credTotal < s.enumeration.credCounter := hs.counts.exhausted.mpr (by rw [credentialAnswers, numbered_length])
    have hstep : credManagement.step s q = (.error .notAllowed, s) := by
      rw [step_of_checked hchecks]
      simp +decide only [hsub, if_true, if_false]
      unfold enumerateCredentialsGetNext
      rw [bind_eq (get_run s), refuseIf_true hdone]
      rfl
    rw [hstep]
    exact ⟨rfl, hs⟩
  other {k s q} hq hown hs := by
    refine hs.still (step_still hq.noDelete hq.noUpdate (fun _ _ => Keeps.rel s) (fun _ _ => Keeps.rel s) (fun h4 hchecks => ?_)
      fun h5 hchecks => ?_)
    · have hread : (authorizeRead q s).1 ≠ .ok () := fun hread => hq.noBegin ⟨h4, (authorized_same hs.tokens).mp ⟨hchecks, hread⟩⟩
      unfold enumerateCredentialsBegin
      by_cases hmissing : q.rpIdHash = none
      · rw [refuseIf_true hmissing]
        exact Std.Refl.refl s
      · rw [refuseIf_false hmissing, bind_eq (pure_run () s), authorizeRead_bind_refused hread]
        exact Std.Refl.refl s
    · rw [isGetNext_iff.mpr ⟨h5, hchecks⟩] at hown
      cases hown

/-- The Begin of an RP's credentials tells the first and goes on behind it. -/
private theorem beginCredentials [Fact KeydevCiphers] {d : Device} (hload : RecordsLoad d) {p : CredMgmtParams} (hsub : p.subcommand = 0x04)
    (hrp : p.rpIdHash = some rpIdHash.1) (hp : Authorized p d) :
    (credManagement.step d p).1 = (credentialAnswers d rpIdHash)[0]?.getD (.error .noCredentials) ∧
      CredAt d rpIdHash (min 1 (credentialAnswers d rpIdHash).length) (credManagement.step d p).2 := by
  obtain ⟨hchecks, hread⟩ := hp
  have hbegins : Keeps (Still rpPlace) (modifyEnumeration fun e =>
      { e with credCounter := 1, credTotal := UInt16.ofNat (slotsOfRp d rpIdHash.1).length } : CtapOp Unit) := still_counting fun _ => rfl
  rcases hmodify : (modifyEnumeration fun e =>
      { e with credCounter := 1, credTotal := UInt16.ofNat (slotsOfRp d rpIdHash.1).length } : CtapOp Unit) d with ⟨u, d₁⟩
  have hstill₁ : Still rpPlace d d₁ := Keeps.of_run hbegins hmodify
  have henumeration : d₁.enumeration = { d.enumeration with credCounter := 1, credTotal := UInt16.ofNat (slotsOfRp d rpIdHash.1).length } := by
    rw [← (Prod.mk.inj hmodify).2]
  obtain rfl : .ok () = u := (Prod.mk.inj hmodify).1
  have hhash : p.rpIdHash32 = rpIdHash.1 := by rw [CredMgmtParams.rpIdHash32, hrp, Option.getD_some, readPast, List.take_left' rpIdHash.2]
  have hstep : credManagement.step d p =
      listCredential (slotsOfRp d rpIdHash.1)[0]? rpIdHash (some (UInt16.ofNat (slotsOfRp d rpIdHash.1).length)) d₁ := by
    rw [step_of_checked hchecks]
    simp +decide only [hsub, if_true, if_false]
    unfold enumerateCredentialsBegin
    rw [refuseIf_false (by rw [hrp]; exact Option.some_ne_none _), bind_eq (pure_run () d), bind_eq (authorizeRead_ok hread),
      bind_eq (get_run d), hhash, bind_eq hmodify, Block.ofBytes_val]
  have hplace : Tally 0 (slotsOfRp d rpIdHash.1).length d₁.enumeration.credCounter d₁.enumeration.credTotal := by
    rw [henumeration]
    exact Tally.begin (slotsOfRp_few d rpIdHash.1)
  have hlength : (credentialAnswers d rpIdHash).length = (slotsOfRp d rpIdHash.1).length := numbered_length _ _
  have hitem : (credentialAnswers d rpIdHash)[0]? = (slotsOfRp d rpIdHash.1)[0]?.map fun slot =>
      toldCredential d rpIdHash slot (some (UInt16.ofNat (slotsOfRp d rpIdHash.1).length)) := numbered_first _ _
  rw [hstep, hitem, hlength]
  rcases Nat.eq_zero_or_pos (slotsOfRp d rpIdHash.1).length with hnone | hsome
  · rw [List.getElem?_eq_none (Nat.le_of_eq hnone), hnone]
    exact ⟨rfl, hstill₁.loads, hstill₁.tokens, hplace, fun h => absurd hnone h.ne', fun h => absurd hnone h.ne'⟩
  · obtain ⟨a, htold⟩ := toldCredential_ok hload (List.getElem_mem hsome) (some (UInt16.ofNat (slotsOfRp d rpIdHash.1).length))
    obtain ⟨d₂, hrun, hd₂⟩ := listCredential_next hstill₁.loads hstill₁.tokens hplace hsome htold
    rw [List.getElem?_eq_getElem hsome, hrun, Nat.min_eq_left hsome, Option.map_some, htold]
    exact ⟨rfl, hd₂⟩

/-- From a Begin for the RP that passes on, to any run that changes no record. -/
theorem enumerateCredentials_complete [Fact KeydevCiphers] {d : Device} (hload : RecordsLoad d) {p : CredMgmtParams} (hsub : p.subcommand = 0x04)
    (hrp : p.rpIdHash = some rpIdHash.1) (hp : Authorized p d) {moves : List CredMgmtParams} (hmoves : ∀ q ∈ moves, Between 0x04 d q) :
    Enumerates 0x05 (credentialAnswers d rpIdHash) d p moves := by
  have htold : ∀ a ∈ credentialAnswers d rpIdHash, ∃ answer, a = .ok answer := fun a ha => by
    obtain ⟨i, hi, rfl⟩ := List.mem_mapIdx.mp ha
    exact toldCredential_ok hload (List.getElem_mem hi) _
  exact .of_cursor (credCursor hload rpIdHash) htold (beginCredentials hload hsub hrp hp) hmoves

/-- As long as no record changes, each enumeration tells all there is, once and in the order of the slots, whatever of the other one comes
in between. -/
theorem enumerations_complete [Fact KeydevCiphers] {d : Device} (hload : RecordsLoad d) :
    (∀ {p : CredMgmtParams} {moves : List CredMgmtParams}, p.subcommand = 0x02 → Authorized p d → (∀ q ∈ moves, Between 0x02 d q) →
      Enumerates 0x03 (rpAnswers d) d p moves) ∧
    ∀ {rpIdHash : Block 32} {p : CredMgmtParams} {moves : List CredMgmtParams}, p.subcommand = 0x04 → p.rpIdHash = some rpIdHash.1 →
      Authorized p d → (∀ q ∈ moves, Between 0x04 d q) → Enumerates 0x05 (credentialAnswers d rpIdHash) d p moves :=
  ⟨fun hsub hp hmoves => enumerateRps_complete hload hsub hp hmoves,
    fun hsub hrp hp hmoves => enumerateCredentials_complete hload hsub hrp hp hmoves⟩

end

/-! ### On a plain device -/

section Plain
attribute [local instance] cborSdk plainLibrary

/-- The id of a credential for the RP `"a"` and a user. -/
def listedIdOf (user : UInt8) : Bytes :=
  (credentialCreate ⟨some [0x61], some [user], none, none, ⟨some true, none, none, true⟩, noExtensions, true, algEs256, curveP256⟩ (.zero 16)
    (plainDevice [(efKeyDev, plainKeydev)])).1.toOption.getD []

def listedFile (user : UInt8) : Bytes := (Sdk.sha256 [0x61]).1 ++ deriveResident (listedIdOf user) ++ listedIdOf user

/-- A device with two credentials of one RP, and a persistent token to read them. -/
def listingDevice : Device :=
  let d := plainDevice
    [(efKeyDev, plainKeydev), (credFid 0, listedFile 1), (credFid 3, listedFile 2), (rpFid 5, [2] ++ (Sdk.sha256 [0x61]).1 ++ [0x61])]
  { d with ppaut := { d.ppaut with permissions := permissionPcmr } }

def listing (subcommand : UInt64) : CredMgmtParams where
  isPreview := false
  subcommand := subcommand
  rpIdHash := if subcommand = 0x04 then some (Sdk.sha256 [0x61]).1 else none
  credentialId := none
  userId := none
  userName := none
  userDisplayName := none
  rawSubpara := []
  pinUvAuthProtocol := 1
  pinUvAuthParam := some (PlainSdk.fill 16 (listingDevice.ppaut.data ++ [subcommand.toUInt8])).1

private theorem listingDevice_loads : RecordsLoad listingDevice where
  rp record hrecord := by
    have hall : ∀ record ∈ rpRecords listingDevice.files, (rpIdDecrypt record listingDevice).1.toBool = true := by decide +kernel
    exact exists_ok (hall record hrecord)
  credential rpIdHash slot hmatch := by
    have hslots : ∀ slot : Slot, (residentRpIdHash listingDevice slot).toBool = true → slot = 0 ∨ slot = 3 := by decide +kernel
    have hhash : residentRpIdHash listingDevice slot = .ok rpIdHash.1 := by
      unfold residentMatchesRp at hmatch
      cases hread : residentRpIdHash listingDevice slot with
      | error e => simp only [hread, Bool.false_eq_true] at hmatch
      | ok hash =>
        simp only [hread, decide_eq_true_iff] at hmatch
        rw [hmatch]
    have hown : ∀ slot : Slot, slot = 0 ∨ slot = 3 → residentRpIdHash listingDevice slot = .ok (Sdk.sha256 [0x61]).1 := by
      rintro slot (rfl | rfl) <;> decide +kernel
    have hslot := hslots slot (by rw [hhash]; rfl)
    obtain rfl : rpIdHash = Sdk.sha256 [0x61] := Subtype.ext (Except.ok.inj (hhash.symm.trans (hown slot hslot)))
    refine exists_ok ?_
    rcases hslot with rfl | rfl <;> decide +kernel

/-- Both enumerations of two credentials, each going on while the other begins or ends. -/
theorem enumerations_of_two : RecordsLoad listingDevice ∧ (rpAnswers listingDevice).length = 1 ∧
    (credentialAnswers listingDevice (Sdk.sha256 [0x61])).length = 2 ∧
    Enumerates 0x03 (rpAnswers listingDevice) listingDevice (listing 0x02) [listing 0x04, listing 0x03, listing 0x05] ∧
    Enumerates 0x05 (credentialAnswers listingDevice (Sdk.sha256 [0x61])) listingDevice (listing 0x04)
      [listing 0x02, listing 0x05, listing 0x03, listing 0x05] := by
  have hpasses : ∀ n, n = 0x02 ∨ n = 0x04 → Authorized (listing n) listingDevice := by
    rintro n (rfl | rfl) <;> exact ⟨by decide +kernel, by decide +kernel⟩
  have hbetween : ∀ begins q, q.subcommand ≠ 0x06 → q.subcommand ≠ 0x07 → q.subcommand ≠ begins → Between begins listingDevice q :=
    fun _ _ h6 h7 hbegins => ⟨h6, h7, fun h => hbegins h.1⟩
  obtain ⟨hrps, hcredentials⟩ := enumerations_complete listingDevice_loads
  refine ⟨listingDevice_loads, by decide +kernel, by decide +kernel, hrps rfl (hpasses _ (.inl rfl)) fun q hq => ?_,
    hcredentials rfl rfl (hpasses _ (.inr rfl)) fun q hq => ?_⟩ <;>
    · simp only [List.mem_cons, List.not_mem_nil, or_false] at hq
      refine hbetween _ q ?_ ?_ ?_ <;> rcases hq with rfl | rfl | rfl | rfl <;> decide

end Plain
end FidoTouch.Ctap
