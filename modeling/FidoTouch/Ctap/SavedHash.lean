import FidoTouch.Ctap.Enumerations
import FidoTouch.Program.Ghost

/-! The buffer behind `rpIdHashx`: credential management once more, with a record of the Begin that is gone on with, of the release of
the buffer, and of every search that uses it. -/
namespace FidoTouch.Ctap
open FidoTouch.Program Handler FidoTouch.Storage FidoTouch.Resident

-- The search for `Keeps` follows whole commands.
set_option synthInstance.maxSize 4096

/-- A search of the store by a GetNext: the hash it uses, that of the Begin that was let pass last, and what became of the buffer. -/
structure HashUse where
  hash : Option Bytes
  latest : Option Bytes
  released : Bool
deriving DecidableEq

/-- The hash is there, the right one, and its buffer is still held. -/
def HashUse.Right (u : HashUse) : Prop := u.hash ≠ none ∧ u.hash = u.latest ∧ u.released = false

instance (u : HashUse) : Decidable u.Right := inferInstanceAs (Decidable (_ ∧ _))

/-- `asserted` is that of the call; `released` is about the buffer that `rpIdHashx` points to. -/
structure HashRecord where
  latest : Option Bytes
  released : Bool
  asserted : Bool
  uses : List HashUse

/-- A device and what is recorded about the buffer. -/
abbrev Saved := Ghosted Device HashRecord

abbrev SavedOp (α : Type) := Handler Saved CtapError α

section
variable [Sdk] [ObjectLibrary]

/-! ### The commands with the record -/

/-- `listCredential`, which may save the hash: a `fresh` buffer of its own request, or the one saved already. -/
def savedListCredential (fresh : Bool) (slot : Option Slot) (rpIdHash : Block 32) (totalCredentials : Option UInt16) :
    SavedOp CredMgmtAnswer := do
  let slot ← onState (orFail slot .noCredentials)
  let cred ← onState (mapError (fun _ => .notAllowed) (loadResident slot rpIdHash))
  let publicKey ← onState (listedPublicKey slot cred)
  let d ← onState get
  runIf (d.enumeration.credCounter ≤ d.enumeration.credTotal) do
    onGhost fun g => { g with asserted := true, released := g.released && !fresh }
    onState (modifyEnumeration fun e => { e with rpIdHashx := some rpIdHash.1 })
  let largeBlobKey ← onState (listedLargeBlobKey cred)
  return .credential
    { userId := cred.userId
      userName := cred.userName
      userDisplayName := cred.userDisplayName
      credentialId := cred.residentId.getD (deriveResident (cred.id.getD []))
      publicKey := publicKey
      totalCredentials := totalCredentials
      credProtect := if 0 < cred.extensions.credProtect then cred.extensions.credProtect else 1
      largeBlobKey := largeBlobKey
      thirdPartyPayment := cred.extensions.present && decide (cred.extensions.thirdPartyPayment = some true) }

/-- `enumerateCredentialsBegin`; the clean-up frees at most the buffer of its own request. -/
def savedBegin (p : CredMgmtParams) : SavedOp CredMgmtAnswer := do
  onState (refuseIf (p.rpIdHash = none) .missingParameter)
  onState (authorizeRead p)
  onGhost fun g => { g with latest := some p.rpIdHash32, asserted := false }
  let d ← onState get
  let matching := slotsOfRp d p.rpIdHash32
  onState (modifyEnumeration fun e => { e with credCounter := 1, credTotal := UInt16.ofNat matching.length })
  savedListCredential true matching[0]? (.ofBytes 32 p.rpIdHash32) (some (UInt16.ofNat matching.length))

/-- `enumerateCredentialsGetNext`; the clean-up frees the saved buffer unless the call has asserted it. -/
def savedGetNext : SavedOp CredMgmtAnswer := do
  let d ← onState get
  onState (refuseIf (d.enumeration.credTotal < d.enumeration.credCounter) .notAllowed)
  onGhost fun g => { g with asserted := false, uses := ⟨d.enumeration.rpIdHashx, g.latest, g.released⟩ :: g.uses }
  let answer ← attempt do
    let rpIdHash ← onState (orFail d.enumeration.rpIdHashx .noCredentials)
    savedListCredential false (slotsOfRp d rpIdHash)[d.enumeration.credCounter.toNat - 1]? (.ofBytes 32 rpIdHash) none
  onGhost fun g => { g with released := g.released || !g.asserted }
  ofExcept answer

def savedCredMgmt (p : CredMgmtParams) : SavedOp CredMgmtAnswer := do
  onState (ofExcept (credMgmtChecks p))
  if p.subcommand = 0x01 then onState (getCredsMetadata p)
  else if p.subcommand = 0x02 then onState (enumerateRpsBegin p)
  else if p.subcommand = 0x03 then onState enumerateRpsGetNext
  else if p.subcommand = 0x04 then savedBegin p
  else if p.subcommand = 0x05 then savedGetNext
  else if p.subcommand = 0x06 then do
    onState (deleteCredential p)
    return .done
  else if p.subcommand = 0x07 then do
    onState (updateUserInformation p)
    return .done
  else return .unopened

/-- Credential management with the record, request by request. -/
def savedManagement : Machine Saved CredMgmtParams (Except CtapError CredMgmtAnswer) := ⟨fun t p => savedCredMgmt p t⟩

/-! ### They are the commands -/

omit [Sdk] [ObjectLibrary] in
private theorem shadows_ite {α : Type} {c : Prop} [Decidable c] {y y' : SavedOp α} {x x' : CtapOp α} (h : Shadows y x) (h' : Shadows y' x') :
    Shadows (if c then y else y') (if c then x else x') := by
  split <;> assumption

private theorem savedListCredential_shadows (fresh : Bool) (slot : Option Slot) (rpIdHash : Block 32) (totalCredentials : Option UInt16) :
    Shadows (savedListCredential fresh slot rpIdHash totalCredentials) (listCredential slot rpIdHash totalCredentials) := by
  unfold savedListCredential listCredential
  refine (shadows_onState _).bind fun slot => (shadows_onState _).bind fun cred => (shadows_onState _).bind fun key =>
    (shadows_onState _).bind fun d => (shadows_ite ?_ (shadows_pure ())).bind fun _ => (shadows_onState _).bind fun blob => shadows_pure _
  exact .ghost (shadows_onState _)

private theorem savedBegin_shadows (p : CredMgmtParams) : Shadows (savedBegin p) (enumerateCredentialsBegin p) := by
  unfold savedBegin enumerateCredentialsBegin
  refine (shadows_onState _).bind fun _ => (shadows_onState _).bind fun _ => .ghost ?_
  exact (shadows_onState _).bind fun d => (shadows_onState _).bind fun _ => savedListCredential_shadows _ _ _ _

private theorem savedGetNext_shadows : Shadows savedGetNext enumerateCredentialsGetNext := by
  unfold savedGetNext enumerateCredentialsGetNext
  refine (shadows_onState _).bind fun d => (shadows_onState _).bind fun _ => .ghost ?_
  have hsearch : Shadows (do
      let rpIdHash ← onState (orFail d.enumeration.rpIdHashx .noCredentials)
      savedListCredential false (slotsOfRp d rpIdHash)[d.enumeration.credCounter.toNat - 1]? (.ofBytes 32 rpIdHash) none)
      (do
      let rpIdHash ← orFail d.enumeration.rpIdHashx .noCredentials
      listCredential (slotsOfRp d rpIdHash)[d.enumeration.credCounter.toNat - 1]? (.ofBytes 32 rpIdHash) none : CtapOp CredMgmtAnswer) :=
    (shadows_onState _).bind fun _ => savedListCredential_shadows _ _ _ _
  exact fun t => hsearch t

/-- The record changes nothing of what credential management does. -/
theorem savedCredMgmt_shadows (p : CredMgmtParams) : Shadows (savedCredMgmt p) (cborCredMgmt (.params p)) := by
  unfold savedCredMgmt cborCredMgmt
  rw [Parsed.result, ofExcept_ok_bind]
  refine (shadows_onState _).bind fun _ => ?_
  refine shadows_ite (shadows_onState _) (shadows_ite (shadows_onState _) (shadows_ite (shadows_onState _) (shadows_ite (savedBegin_shadows p)
    (shadows_ite savedGetNext_shadows (shadows_ite ?_ (shadows_ite ?_ (shadows_pure _)))))))
  · exact (shadows_onState _).bind fun _ => shadows_pure _
  · exact (shadows_onState _).bind fun _ => shadows_pure _

/-! ### When the hash is right -/

/-- What the record says of a search to come: where there are credentials to be told, the saved hash is right. -/
def Guarded (t : Saved) : Prop :=
  t.state.enumeration.credCounter ≤ t.state.enumeration.credTotal →
    ∃ rpIdHash : Block 32, t.ghost.latest = some rpIdHash.1 ∧ t.state.enumeration.rpIdHashx = some rpIdHash.1 ∧ t.ghost.released = false

/-- A credential can be loaded, and its public key told; of the last one it is enough that a public key is stored. -/
def Readable (d : Device) (rpIdHash : Block 32) (slot : Slot) (last : Prop) : Prop :=
  ∃ cred, (loadResident slot rpIdHash d).1 = .ok cred ∧
    ((∃ key, toldPublicKey d slot cred = .ok key) ∨ last ∧ ∃ data, residentPublicKey d slot = .ok data)

/-- A Begin that is let pass, and a GetNext before the end, come to a credential that can be read. -/
structure ReadsOn (d : Device) (p : CredMgmtParams) : Prop where
  first : p.subcommand = 0x04 → Authorized p d → p.rpIdHash ≠ none → ∀ slot, (slotsOfRp d p.rpIdHash32)[0]? = some slot →
    Readable d (.ofBytes 32 p.rpIdHash32) slot ((slotsOfRp d p.rpIdHash32).length = 1)
  next : p.subcommand = 0x05 → credMgmtChecks p = .ok () → d.enumeration.credCounter ≤ d.enumeration.credTotal →
    ∀ rpIdHash, d.enumeration.rpIdHashx = some rpIdHash → ∃ slot, (slotsOfRp d rpIdHash)[d.enumeration.credCounter.toNat - 1]? = some slot ∧
      Readable d (.ofBytes 32 rpIdHash) slot (d.enumeration.credTotal < d.enumeration.credCounter + 1)

/-- What a listing leaves: where more are to come, its own hash is saved and asserted. -/
structure Listed (fresh : Bool) (rpIdHash : Block 32) (t t' : Saved) : Prop where
  latest : t'.ghost.latest = t.ghost.latest
  uses : t'.ghost.uses = t.ghost.uses
  saved : t'.state.enumeration.credCounter ≤ t'.state.enumeration.credTotal → t'.state.enumeration.rpIdHashx = some rpIdHash.1 ∧
    t'.ghost.asserted = true ∧ t'.ghost.released = (t.ghost.released && !fresh)

omit [Sdk] [ObjectLibrary] in
private theorem onState_eq {α : Type} {x : CtapOp α} {t : Saved} {a : α} {d' : Device} (h : x t.state = (.ok a, d')) :
    (onState x : SavedOp α) t = (.ok a, { t with state := d' }) := by rw [onState_run, h]

omit [Sdk] [ObjectLibrary] in
private theorem onState_last {α β : Type} (x : CtapOp α) (f : α → β) (t : Saved) :
    ((onState x >>= fun a => pure (f a) : SavedOp β) t).2 = { t with state := (x t.state).2 } := by
  rw [bind_run, onState_run]
  rcases x t.state with ⟨e | a, d⟩ <;> rfl

/-- A credential that is loaded and told is counted; with more to come the hash is saved. -/
private theorem savedListCredential_told [Fact KeydevCiphers] {fresh : Bool} {slot : Slot} {rpIdHash : Block 32}
    {totalCredentials : Option UInt16} {t : Saved} {cred : Credential} {key : Bytes} (hload : (loadResident slot rpIdHash t.state).1 = .ok cred)
    (hkey : toldPublicKey t.state slot cred = .ok key) :
    Listed fresh rpIdHash t (savedListCredential fresh (some slot) rpIdHash totalCredentials t).2 := by
  have hloads : SameLoads t.state (loadResident slot rpIdHash t.state).2 := Keeps.rel t.state
  rcases hrun : loadResident slot rpIdHash t.state with ⟨r, d₁⟩
  rw [hrun] at hload hloads
  cases hload
  have hcred : (mapError (fun _ => .notAllowed) (loadResident slot rpIdHash) : CtapOp Credential) t.state = (.ok cred, d₁) := by
    rw [mapError_run, hrun]
    rfl
  obtain ⟨d₂, hlisted, -, -⟩ := listedPublicKey_run ((toldPublicKey_same hloads slot cred).trans hkey)
  unfold savedListCredential
  rw [bind_eq (onState_eq (x := orFail (some slot) .noCredentials) rfl), bind_eq (onState_eq hcred), bind_eq (onState_eq hlisted),
    bind_eq (onState_eq (get_run d₂))]
  have hblob : ∀ d, (listedLargeBlobKey cred d).2.enumeration = d.enumeration := fun d => OnlyStorage.enumeration (Keeps.rel d)
  by_cases hmore : d₂.enumeration.credCounter ≤ d₂.enumeration.credTotal
  · have hsave : ∀ t : Saved, (do
        onGhost fun g => { g with asserted := true, released := g.released && !fresh }
        onState (modifyEnumeration fun e => { e with rpIdHashx := some rpIdHash.1 }) : SavedOp Unit) t =
        (.ok (), ⟨{ t.state with enumeration := { t.state.enumeration with rpIdHashx := some rpIdHash.1 } },
          { t.ghost with asserted := true, released := t.ghost.released && !fresh }⟩) := fun _ => rfl
    rw [runIf_true hmore, bind_eq (hsave _), onState_last]
    exact ⟨rfl, rfl, fun _ => ⟨congrArg Enumeration.rpIdHashx (hblob _), rfl, rfl⟩⟩
  · rw [runIf_false hmore, bind_eq (pure_run () _), onState_last]
    refine ⟨rfl, rfl, fun h => absurd ?_ hmore⟩
    rwa [hblob] at h

/-- Of the last credential it is enough that a public key is stored: there is none to save a hash for. -/
private theorem savedListCredential_last [Fact KeydevCiphers] {fresh : Bool} {slot : Slot} {rpIdHash : Block 32}
    {totalCredentials : Option UInt16} {t : Saved} {cred : Credential} {data : Bytes} (hload : (loadResident slot rpIdHash t.state).1 = .ok cred)
    (hpublic : residentPublicKey t.state slot = .ok data) (hkey : ∀ key, toldPublicKey t.state slot cred ≠ .ok key)
    (hlast : ¬ t.state.enumeration.credCounter + 1 ≤ t.state.enumeration.credTotal) :
    Listed fresh rpIdHash t (savedListCredential fresh (some slot) rpIdHash totalCredentials t).2 := by
  have hloads : SameLoads t.state (loadResident slot rpIdHash t.state).2 := Keeps.rel t.state
  have hstorage : OnlyStorage t.state (loadResident slot rpIdHash t.state).2 := Keeps.rel t.state
  rcases hrun : loadResident slot rpIdHash t.state with ⟨r, d₁⟩
  rw [hrun] at hload hloads hstorage
  cases hload
  have hcred : (mapError (fun _ => .notAllowed) (loadResident slot rpIdHash) : CtapOp Credential) t.state = (.ok cred, d₁) := by
    rw [mapError_run, hrun]
    rfl
  have hpublic₁ : residentPublicKey d₁ slot = .ok data := by
    rw [← hpublic]
    simp only [residentPublicKey, hloads.isMarker, hloads.containerReadAlloc]
  obtain ⟨e, hunread⟩ : ∃ e, coseCachedKey data = .error e := by
    simp only [toldPublicKey, hpublic] at hkey
    cases hcose : coseCachedKey data with
    | error e => exact ⟨e, rfl⟩
    | ok key => exact absurd hcose (hkey key)
  have hlisted : listedPublicKey slot cred d₁ =
      (.error e, { d₁ with enumeration := { d₁.enumeration with credCounter := d₁.enumeration.credCounter + 1 } }) := by
    unfold listedPublicKey
    rw [bind_eq (get_run d₁), hpublic₁]
    show (coseCachedKey data, _) = _
    rw [hunread]
  unfold savedListCredential
  rw [bind_eq (onState_eq (x := orFail (some slot) .noCredentials) rfl), bind_eq (onState_eq hcred), bind_run, onState_run, hlisted]
  refine ⟨rfl, rfl, fun h => absurd ?_ hlast⟩
  rw [← hstorage.enumeration]
  exact h

/-- Whether the credential can be told or is only the last one. -/
private theorem savedListCredential_listed [Fact KeydevCiphers] {fresh : Bool} {slot : Slot} {rpIdHash : Block 32}
    (totalCredentials : Option UInt16) {t : Saved} {last : Prop} (h : Readable t.state rpIdHash slot last)
    (hlast : last → ¬ t.state.enumeration.credCounter + 1 ≤ t.state.enumeration.credTotal) :
    Listed fresh rpIdHash t (savedListCredential fresh (some slot) rpIdHash totalCredentials t).2 := by
  obtain ⟨cred, hload, hpublic⟩ := h
  by_cases hkey : ∃ key, toldPublicKey t.state slot cred = .ok key
  · obtain ⟨key, hkey⟩ := hkey
    exact savedListCredential_told hload hkey
  · obtain ⟨hisLast, data, hdata⟩ := hpublic.resolve_left hkey
    exact savedListCredential_last hload hdata (fun key h => hkey ⟨key, h⟩) (hlast hisLast)

/-! ### One request -/

/-- The place in the enumeration of credentials is the same. -/
def SamePlace (d d' : Device) : Prop := credPlace d'.enumeration = credPlace d.enumeration

omit [Sdk] [ObjectLibrary] in
private theorem Guarded.still {t t' : Saved} (ht : Guarded t) (hghost : t'.ghost = t.ghost) (hplace : SamePlace t.state t'.state) :
    Guarded t' := by
  obtain ⟨hcounter, hrest⟩ := Prod.mk.inj hplace
  obtain ⟨htotal, hhash⟩ := Prod.mk.inj hrest
  unfold Guarded
  rw [hghost, hcounter, htotal, hhash]
  exact ht

private theorem Readable.same [Fact KeydevCiphers] {d d' : Device} {rpIdHash : Block 32} {slot : Slot} {last : Prop}
    (h : Readable d rpIdHash slot last) (hd : SameLoads d d') : Readable d' rpIdHash slot last := by
  obtain ⟨cred, hload, hpublic⟩ := h
  have hsame : (loadResident slot rpIdHash d').1 = (loadResident slot rpIdHash d).1 := Repeats.same hd
  refine ⟨cred, hsame.trans hload, ?_⟩
  simp only [toldPublicKey_same hd, residentPublicKey, hd.isMarker, hd.containerReadAlloc]
  exact hpublic

omit [Sdk] [ObjectLibrary] in
/-- What was listed with more to come has its hash saved, the same as that of its Begin. -/
private theorem Listed.guarded {fresh : Bool} {rpIdHash : Block 32} {t t' : Saved} (h : Listed fresh rpIdHash t t')
    (hlatest : t.ghost.latest = some rpIdHash.1) (hreleased : (t.ghost.released && !fresh) = false) : Guarded t' := fun hmore =>
  have ⟨hhash, _, hkept⟩ := h.saved hmore
  ⟨rpIdHash, h.latest.trans hlatest, hhash, hkept.trans hreleased⟩

omit [ObjectLibrary] in
private theorem rpIdHash32_block (p : CredMgmtParams) : (Block.ofBytes 32 p.rpIdHash32).1 = p.rpIdHash32 := by
  have hblock := Block.ofBytes_val (⟨p.rpIdHash32, readPast_length 32 _⟩ : Block 32)
  exact congrArg Subtype.val hblock

private theorem begin_guarded [Fact KeydevCiphers] {t : Saved} {p : CredMgmtParams} (ht : Guarded t) (hsub : p.subcommand = 0x04)
    (hchecks : credMgmtChecks p = .ok ()) (hp : ReadsOn t.state p) : Guarded (savedBegin p t).2 := by
  unfold savedBegin
  by_cases hmissing : p.rpIdHash = none
  · rw [refuseIf_true hmissing]
    exact ht
  rw [refuseIf_false hmissing, bind_eq (onState_eq (pure_run () t.state)), bind_run, onState_run]
  by_cases hread : (authorizeRead p t.state).1 = .ok ()
  · rw [authorizeRead_ok hread]
    have hplace : SameLoads t.state { t.state with enumeration := { t.state.enumeration with
        credCounter := 1, credTotal := UInt16.ofNat (slotsOfRp t.state p.rpIdHash32).length } } := ⟨fun _ _ => rfl, fun _ => rfl⟩
    have hfirst := hp.first hsub ⟨hchecks, hread⟩ hmissing
    generalize hd₁ : { t.state with enumeration := { t.state.enumeration with
      credCounter := 1, credTotal := UInt16.ofNat (slotsOfRp t.state p.rpIdHash32).length } } = d₁ at hplace
    have hcounter : d₁.enumeration.credCounter = 1 := by rw [← hd₁]
    have htotal : d₁.enumeration.credTotal = UInt16.ofNat (slotsOfRp t.state p.rpIdHash32).length := by rw [← hd₁]
    show Guarded (savedListCredential true (slotsOfRp t.state p.rpIdHash32)[0]? (.ofBytes 32 p.rpIdHash32)
      (some (UInt16.ofNat (slotsOfRp t.state p.rpIdHash32).length))
      ⟨{ t.state with enumeration := { t.state.enumeration with
        credCounter := 1, credTotal := UInt16.ofNat (slotsOfRp t.state p.rpIdHash32).length } },
        { t.ghost with latest := some p.rpIdHash32, asserted := false }⟩).2
    rw [hd₁]
    cases hslot : (slotsOfRp t.state p.rpIdHash32)[0]? with
    | none =>
      have hnone : (slotsOfRp t.state p.rpIdHash32).length = 0 := Nat.eq_zero_of_le_zero (List.getElem?_eq_none_iff.mp hslot)
      have hdone : ¬ d₁.enumeration.credCounter ≤ d₁.enumeration.credTotal := by
        rw [hcounter, htotal, hnone]
        decide
      exact fun hmore => absurd hmore hdone
    | some slot =>
      have hlast : (slotsOfRp t.state p.rpIdHash32).length = 1 → ¬ d₁.enumeration.credCounter + 1 ≤ d₁.enumeration.credTotal := fun hone => by
        rw [hcounter, htotal, hone]
        decide
      have hlisted : Listed true (.ofBytes 32 p.rpIdHash32) ⟨d₁, { t.ghost with latest := some p.rpIdHash32, asserted := false }⟩ _ :=
        savedListCredential_listed (some (UInt16.ofNat (slotsOfRp t.state p.rpIdHash32).length)) ((hfirst slot hslot).same hplace) hlast
      exact hlisted.guarded (congrArg some (rpIdHash32_block p).symm) (Bool.and_false _)
  · have hsame := authorizeRead_same p t.state
    rcases hrun : authorizeRead p t.state with ⟨e | ⟨⟩, d⟩ <;> rw [hrun] at hread hsame
    · cases hsame
      exact ht
    · exact absurd rfl hread

/-- A GetNext searches with the right hash, or is refused without a search. -/
def Answered (t : Move Saved CredMgmtParams (Except CtapError CredMgmtAnswer)) : Prop :=
  (∃ use, t.after.ghost.uses = use :: t.before.ghost.uses ∧ use.Right) ∨
    t.after.ghost.uses = t.before.ghost.uses ∧ ∃ e, t.output = .error e

private theorem next_guarded [Fact KeydevCiphers] {t : Saved} {p : CredMgmtParams} (ht : Guarded t) (hsub : p.subcommand = 0x05)
    (hchecks : credMgmtChecks p = .ok ()) (hp : ReadsOn t.state p) : Guarded (savedGetNext t).2 ∧
      ((∃ use, (savedGetNext t).2.ghost.uses = use :: t.ghost.uses ∧ use.Right) ∨
        (savedGetNext t).2.ghost.uses = t.ghost.uses ∧ ∃ e, (savedGetNext t).1 = .error e) := by
  unfold savedGetNext
  rw [bind_eq (onState_eq (get_run t.state))]
  by_cases hdone : t.state.enumeration.credTotal < t.state.enumeration.credCounter
  · rw [refuseIf_true hdone]
    exact ⟨ht, .inr ⟨rfl, _, rfl⟩⟩
  have hmore : t.state.enumeration.credCounter ≤ t.state.enumeration.credTotal := UInt16.not_lt.mp hdone
  obtain ⟨rpIdHash, hlatest, hhash, hreleased⟩ := ht hmore
  obtain ⟨slot, hslot, hread⟩ := hp.next hsub hchecks hmore rpIdHash.1 hhash
  rw [Block.ofBytes_val] at hread
  generalize ht₁ : (⟨t.state, { t.ghost with
    asserted := false, uses := ⟨t.state.enumeration.rpIdHashx, t.ghost.latest, t.ghost.released⟩ :: t.ghost.uses }⟩ : Saved) = t₁
  have hlisted : Listed false rpIdHash t₁ (savedListCredential false (some slot) rpIdHash none t₁).2 :=
    savedListCredential_listed none (by rw [← ht₁]; exact hread) (by rw [← ht₁]; exact UInt16.not_le.mpr)
  have hsearch : (do
      let rpIdHash ← onState (orFail t.state.enumeration.rpIdHashx .noCredentials)
      savedListCredential false (slotsOfRp t.state rpIdHash)[t.state.enumeration.credCounter.toNat - 1]? (.ofBytes 32 rpIdHash) none :
      SavedOp CredMgmtAnswer) t₁ = savedListCredential false (some slot) rpIdHash none t₁ := by
    rw [hhash, bind_eq (onState_eq (x := orFail (some rpIdHash.1) .noCredentials) rfl), hslot, Block.ofBytes_val]
  have hlatest₁ : t₁.ghost.latest = some rpIdHash.1 := by rw [← ht₁]; exact hlatest
  have hreleased₁ : t₁.ghost.released = false := by rw [← ht₁]; exact hreleased
  have huses₁ : t₁.ghost.uses = ⟨some rpIdHash.1, some rpIdHash.1, false⟩ :: t.ghost.uses := by rw [← ht₁, hlatest, hhash, hreleased]
  rw [refuseIf_false hdone, bind_eq (onState_eq (pure_run () t.state)), bind_eq (onGhost_run _ t), ht₁, bind_eq (attempt_run _ t₁),
    bind_eq (onGhost_run _ _), hsearch]
  generalize savedListCredential false (some slot) rpIdHash none t₁ = run at hlisted
  refine ⟨fun hmore' => ?_, .inl ⟨⟨some rpIdHash.1, some rpIdHash.1, false⟩, hlisted.uses.trans huses₁, ?_⟩⟩
  · obtain ⟨hhash', hasserted, hreleased'⟩ := hlisted.saved hmore'
    refine ⟨rpIdHash, hlisted.latest.trans hlatest₁, hhash', ?_⟩
    show (run.2.ghost.released || !run.2.ghost.asserted) = false
    rw [hreleased', hreleased₁, hasserted]
    rfl
  · exact ⟨Option.some_ne_none _, rfl, rfl⟩

omit [ObjectLibrary] in
private theorem samePlace_still {d d' : Device} (h : Still credPlace d d') : SamePlace d d' := h.place

omit [Sdk] [ObjectLibrary] in
private theorem samePlace_stored {d d' : Device} (h : OnlyStorage d d') : SamePlace d d' := congrArg credPlace h.enumeration

omit [Sdk] [ObjectLibrary] in
private theorem done_state {α β : Type} {x : CtapOp α} {b : β} {t : Saved} :
    ((onState x >>= fun _ => pure b : SavedOp β) t).2 = { t with state := (x t.state).2 } := onState_last x (fun _ => b) t

/-- Every request leaves the saved hash right for the search to come. -/
private theorem step_guarded [Fact KeydevCiphers] (t : Saved) (p : CredMgmtParams) (ht : Guarded t) (hp : ReadsOn t.state p) :
    Guarded (savedManagement.step t p).2 := by
  have hdelete : Keeps OnlyStorage (deleteCredential p) := by
    unfold deleteCredential authorizePaut
    infer_instance
  have hupdate : Keeps OnlyStorage (updateUserInformation p) := by
    unfold updateUserInformation updatedCredential authorizePaut
    infer_instance
  have hothers : ∀ {α : Type} (x : CtapOp α), SamePlace t.state (x t.state).2 → Guarded { t with state := (x t.state).2 } :=
    fun _ hplace => ht.still rfl hplace
  show Guarded (savedCredMgmt p t).2
  unfold savedCredMgmt
  rcases hchecks : credMgmtChecks p with e | ⟨⟩
  · exact ht
  rw [bind_eq (onState_eq (x := ofExcept (.ok ())) rfl)]
  by_cases h1 : p.subcommand = 0x01
  · rw [if_pos h1]
    exact hothers _ (samePlace_still (Keeps.rel t.state))
  rw [if_neg h1]
  by_cases h2 : p.subcommand = 0x02
  · rw [if_pos h2]
    exact hothers _ (samePlace_still (Keeps.rel t.state))
  rw [if_neg h2]
  by_cases h3 : p.subcommand = 0x03
  · rw [if_pos h3]
    exact hothers _ (samePlace_still (Keeps.rel t.state))
  rw [if_neg h3]
  by_cases h4 : p.subcommand = 0x04
  · rw [if_pos h4]
    exact begin_guarded ht h4 hchecks hp
  rw [if_neg h4]
  by_cases h5 : p.subcommand = 0x05
  · rw [if_pos h5]
    exact (next_guarded ht h5 hchecks hp).1
  rw [if_neg h5]
  by_cases h6 : p.subcommand = 0x06
  · rw [if_pos h6, done_state]
    exact hothers _ (samePlace_stored (Keeps.rel t.state))
  rw [if_neg h6]
  by_cases h7 : p.subcommand = 0x07
  · rw [if_pos h7, done_state]
    exact hothers _ (samePlace_stored (Keeps.rel t.state))
  rw [if_neg h7]
  exact ht

private theorem step_answered [Fact KeydevCiphers] (t : Saved) (p : CredMgmtParams) (ht : Guarded t) (hp : ReadsOn t.state p)
    (hsub : p.subcommand = 0x05) : Answered (savedManagement.move t p) := by
  show (∃ use, (savedCredMgmt p t).2.ghost.uses = use :: t.ghost.uses ∧ use.Right) ∨
    (savedCredMgmt p t).2.ghost.uses = t.ghost.uses ∧ ∃ e, (savedCredMgmt p t).1 = .error e
  unfold savedCredMgmt
  rcases hchecks : credMgmtChecks p with e | ⟨⟩
  · exact .inr ⟨rfl, e, rfl⟩
  rw [bind_eq (onState_eq (x := ofExcept (.ok ())) rfl)]
  simp +decide only [hsub, if_true, if_false]
  exact (next_guarded ht hsub hchecks hp).2

/-- In a run from a device with no enumeration under way, whose steps all come to credentials that can be read, each GetNext searches
with the hash of the Begin let pass last, in a buffer that is still held, or it is refused. -/
theorem getNext_continues [Fact KeydevCiphers] {d : Device} {moves : List CredMgmtParams}
    (hd : d.enumeration.credTotal < d.enumeration.credCounter)
    (hmoves : ∀ t ∈ savedManagement.trace ⟨d, ⟨none, false, false, []⟩⟩ moves, ReadsOn t.before.state t.input) :
    ∀ t ∈ savedManagement.trace ⟨d, ⟨none, false, false, []⟩⟩ moves, t.input.subcommand = 0x05 → Answered t := by
  have hstart : Guarded ⟨d, ⟨none, false, false, []⟩⟩ := fun hmore => absurd hd (UInt16.not_lt.mpr hmore)
  exact Machine.trace_moves (A := fun t p => ReadsOn t.state p) (G := fun t => t.input.subcommand = 0x05 → Answered t)
    step_guarded step_answered hstart hmoves

end
/-! ### On a plain device -/

section Plain
attribute [local instance] cborSdk plainLibrary

private def unsaved (d : Device) : Saved := ⟨d, ⟨none, false, false, []⟩⟩

private def canRead (d : Device) (rpIdHash : Block 32) (slot : Slot) : Bool :=
  match (loadResident slot rpIdHash d).1 with
  | .ok cred => (toldPublicKey d slot cred).toBool
  | .error _ => false

private theorem readable_of {d : Device} {rpIdHash : Block 32} {slot : Slot} (h : canRead d rpIdHash slot = true) (last : Prop) :
    Readable d rpIdHash slot last := by
  unfold canRead at h
  cases hload : (loadResident slot rpIdHash d).1 with
  | error e => simp only [hload, Bool.false_eq_true] at h
  | ok cred =>
    simp only [hload] at h
    exact ⟨cred, hload, .inl (exists_ok h)⟩

private theorem listing_goesOn {d : Device} (slot : Slot) (h : d.enumeration.rpIdHashx = some (Sdk.sha256 [0x61]).1 ∧
    (slotsOfRp d (Sdk.sha256 [0x61]).1)[d.enumeration.credCounter.toNat - 1]? = some slot ∧
    canRead d (.ofBytes 32 (Sdk.sha256 [0x61]).1) slot = true) : ReadsOn d (listing 0x05) where
  first h := absurd h (by decide)
  next _ _ _ rpIdHash hsaved := by
    obtain ⟨hhash, hslot, hread⟩ := h
    cases hhash.symm.trans hsaved
    exact ⟨slot, hslot, readable_of hread _⟩

/-- The device after a Begin, and after a GetNext behind it. -/
private def begunHere : Saved := (savedManagement.step (unsaved listingDevice) (listing 0x04)).2

private def goneOn : Saved := (savedManagement.step begunHere (listing 0x05)).2

/-- Both credentials of an RP, and then no other. -/
theorem getNext_continues_two :
    listingDevice.enumeration.credTotal < listingDevice.enumeration.credCounter ∧
      ∀ t ∈ savedManagement.trace (unsaved listingDevice) [listing 0x04, listing 0x05, listing 0x05], t.input.subcommand = 0x05 → Answered t := by
  have hfirst : ReadsOn listingDevice (listing 0x04) := by
    refine ⟨fun _ _ _ slot hslot => ?_, fun h => absurd h (by decide)⟩
    have hslot₀ : (slotsOfRp listingDevice (listing 0x04).rpIdHash32)[0]? = some 0 := by decide +kernel
    cases hslot₀.symm.trans hslot
    exact readable_of (by decide +kernel) _
  have hsecond : ReadsOn begunHere.state (listing 0x05) := listing_goesOn 3 (by decide +kernel)
  have hthird : ReadsOn goneOn.state (listing 0x05) := by
    have hdone : ¬ goneOn.state.enumeration.credCounter ≤ goneOn.state.enumeration.credTotal := by decide +kernel
    exact ⟨fun h => absurd h (by decide), fun _ _ hmore => absurd hmore hdone⟩
  have htrace : savedManagement.trace (unsaved listingDevice) [listing 0x04, listing 0x05, listing 0x05] =
      [savedManagement.move (unsaved listingDevice) (listing 0x04), savedManagement.move begunHere (listing 0x05),
        savedManagement.move goneOn (listing 0x05)] := rfl
  refine ⟨by decide, getNext_continues (by decide) ?_⟩
  show ∀ t ∈ savedManagement.trace (unsaved listingDevice) _, _
  rw [htrace]
  simp only [List.forall_mem_cons]
  exact ⟨hfirst, hsecond, hthird, fun _ h => absurd h List.not_mem_nil⟩

/-- Two credentials of the RP `"a"`, and two of another that cannot be loaded. -/
private def unreadableDevice : Device :=
  let d := plainDevice [(efKeyDev, plainKeydev), (credFid 0, listedFile 1), (credFid 1, listedFile 2),
    (credFid 2, List.replicate 32 4 ++ [1]), (credFid 3, List.replicate 32 4 ++ [2])]
  { d with ppaut := { d.ppaut with permissions := permissionPcmr } }

private def otherListing : CredMgmtParams := { listing 0x04 with rpIdHash := some (List.replicate 32 4) }

/-- The device after a Begin for each of the two, the second of which fails. -/
private def begunElsewhere : Saved :=
  (savedManagement.step (savedManagement.step (unsaved unreadableDevice) (listing 0x04)).2 otherListing).2

/-- After a Begin for the other RP that fails, the GetNext goes on with the RP before it. -/
theorem failed_begin_goes_on_elsewhere :
    unreadableDevice.enumeration.credTotal < unreadableDevice.enumeration.credCounter ∧
      ∃ t ∈ savedManagement.trace (unsaved unreadableDevice) [listing 0x04, otherListing, listing 0x05], t.input.subcommand = 0x05 ∧
        t.after.ghost.uses = [⟨some (Sdk.sha256 [0x61]).1, some (List.replicate 32 4), false⟩] ∧ ¬ Answered t := by
  obtain ⟨hbefore, hafter⟩ : (savedManagement.move begunElsewhere (listing 0x05)).before.ghost.uses = [] ∧
      (savedManagement.move begunElsewhere (listing 0x05)).after.ghost.uses =
        [⟨some (Sdk.sha256 [0x61]).1, some (List.replicate 32 4), false⟩] := by decide +kernel
  have htrace : savedManagement.trace (unsaved unreadableDevice) [listing 0x04, otherListing, listing 0x05] =
      [savedManagement.move (unsaved unreadableDevice) (listing 0x04),
        savedManagement.move (savedManagement.step (unsaved unreadableDevice) (listing 0x04)).2 otherListing,
        savedManagement.move begunElsewhere (listing 0x05)] := rfl
  rw [htrace]
  refine ⟨by decide, _, .tail _ (.tail _ (.head _)), by decide, hafter, ?_⟩
  rintro (⟨use, huses, hright⟩ | ⟨huses, -⟩)
  · have huse := hafter.symm.trans (huses.trans (congrArg (use :: ·) hbefore))
    rw [← List.head_eq_of_cons_eq huse] at hright
    exact absurd hright (by decide +kernel)
  · cases hafter.symm.trans (huses.trans hbefore)

end Plain
end FidoTouch.Ctap
