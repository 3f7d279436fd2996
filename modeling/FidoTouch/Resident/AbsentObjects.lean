import FidoTouch.Resident.Genuine

/-! Reading an object of a container: the bytes of its record, or nothing at all where no manifest of the slot has one. -/
namespace FidoTouch.Resident
open FidoTouch.Program Handler FidoTouch.Storage

variable {o : ObjectStore} {slot : Slot} {m : ManifestSlot} {M : Manifest} {v : Files} {d : Descriptor} {t capacity : Nat}
  {data found record : Bytes}

/-- A record is not opened into a buffer too small for its data. -/
def RefusesSmall (o : ObjectStore) : Prop := ∀ {r r' : RecordManifest} {policyHash data b found : Bytes} {capacity capacity' : Nat},
  o.recordSeal r policyHash data capacity = .ok b → r.SameRecord r' → capacity' < data.length →
    o.recordUnseal r' policyHash b capacity' ≠ .ok found

/-- A valid manifest of the slot has an object of the type, and its record holds these bytes, as many as the object's logical size. -/
def HoldsObject (o : ObjectStore) (slot : Slot) (v : Files) (t : Nat) (data : Bytes) : Prop :=
  ∃ m M d record, residentManifestParseSlot o slot v m = .ok M ∧ residentManifestFind M.objects t = some d ∧
    d.logicalSize = data.length ∧ v d.recordId = some record ∧ Sealed o slot d data record

/-- A read that succeeds has read an object. -/
def ReadsObjects (o : ObjectStore) (slot : Slot) (v : Files) (t capacity : Nat) : Prop :=
  ∀ data, residentContainerRead (some o) slot v t capacity = .ok data → HoldsObject o slot v t data

/-- The slot has a manifest, and none of its valid ones has an object of the type. -/
structure Lacks (o : ObjectStore) (slot : Slot) (v : Files) (t : Nat) : Prop where
  type : residentObjectTypeValid t = true
  loads : ∃ found, residentManifestLoad o slot v = .ok found
  absent : ∀ m M, residentManifestParseSlot o slot v m = .ok M → residentManifestFind M.objects t = none

/-! ### The attempts -/

private theorem residentReadAttempts_ok {candidates : List (Option Manifest)} {r : Except PicoError Bytes}
    (h : residentReadAttempts o v t capacity r candidates = .ok data) :
    (r = .ok data ∧ ∀ M, some M ∈ candidates → residentManifestFind M.objects t = none) ∨
      ∃ M d, some M ∈ candidates ∧ residentManifestFind M.objects t = some d ∧ residentUnseal o v M d capacity = .ok data := by
  induction candidates generalizing r with
  | nil => exact .inl ⟨h, fun M hM => nomatch hM⟩
  | cons candidate candidates ih =>
    cases candidate with
    | none =>
      rcases ih h with ⟨hr, hnone⟩ | ⟨M, d, hM, hrest⟩
      · exact .inl ⟨hr, fun M hM => hnone M ((List.mem_cons.mp hM).resolve_left nofun)⟩
      · exact .inr ⟨M, d, List.mem_cons_of_mem _ hM, hrest⟩
    | some M =>
      unfold residentReadAttempts at h
      cases hfind : residentManifestFind M.objects t with
      | none =>
        rw [hfind] at h
        rcases ih h with ⟨hr, hnone⟩ | ⟨M', d, hM', hrest⟩
        · refine .inl ⟨hr, fun M' hM' => ?_⟩
          rcases List.mem_cons.mp hM' with hsame | hM'
          · rwa [Option.some.inj hsame]
          · exact hnone M' hM'
        · exact .inr ⟨M', d, List.mem_cons_of_mem _ hM', hrest⟩
      | some d =>
        simp only [hfind] at h
        cases hunseal : residentUnseal o v M d capacity with
        | ok opened =>
          rw [hunseal] at h
          cases h
          exact .inr ⟨M, d, List.mem_cons_self, hfind, hunseal⟩
        | error e =>
          rw [hunseal] at h
          rcases ih h with ⟨hr, -⟩ | ⟨M', d', hM', hrest⟩
          · cases hr
          · exact .inr ⟨M', d', List.mem_cons_of_mem _ hM', hrest⟩

private theorem residentReadAttempts_absent {candidates : List (Option Manifest)} {r : Except PicoError Bytes}
    (h : ∀ M, some M ∈ candidates → residentManifestFind M.objects t = none) : residentReadAttempts o v t capacity r candidates = r := by
  induction candidates with
  | nil => rfl
  | cons candidate candidates ih =>
    have hrest := ih fun M hM => h M (List.mem_cons_of_mem _ hM)
    cases candidate with
    | none => exact hrest
    | some M =>
      unfold residentReadAttempts
      rw [h M List.mem_cons_self]
      exact hrest

/-- The manifests that a read goes through are the valid ones of the slot. -/
private theorem mem_candidates (hload : residentManifestLoad o slot v = .ok (m, M)) {M' : Manifest} :
    some M' ∈ [some M, residentManifestCandidate o slot v m.other] ↔ ∃ m', residentManifestParseSlot o slot v m' = .ok M' := by
  have hparse : residentManifestParseSlot o slot v m = .ok M := residentManifestLoad_parse hload
  simp only [List.mem_cons, Option.some.injEq, List.not_mem_nil, or_false]
  constructor
  · rintro (rfl | hother)
    · exact ⟨m, hparse⟩
    · exact ⟨m.other, residentManifestCandidate_parse hother.symm⟩
  · rintro ⟨m', hm'⟩
    rcases eq_or_ne m' m with rfl | hne
    · exact .inl (Except.ok.inj (hm'.symm.trans hparse))
    · obtain rfl : m' = m.other := by cases m <;> cases m' <;> first | rfl | exact absurd rfl hne
      refine .inr ?_
      rw [residentManifestCandidate, hm']
      rfl

/-! ### Reads -/

/-- What is opened is what was sealed. -/
private theorem Sealed.opens (law : o.Lawful) (small : RefusesSmall o) (h : Sealed o slot d data record) (hv : v d.recordId = some record)
    (hM : Formed slot M) (hopen : residentUnseal o v M d capacity = .ok found) : found = data := by
  by_cases hfits : data.length ≤ capacity
  · exact Except.ok.inj (hopen.symm.trans (h.unseal law hv hM capacity hfits))
  obtain ⟨-, policyHash, generation, size, hpolicy, hseal⟩ := h
  unfold residentUnseal at hopen
  rw [hpolicy] at hopen
  simp only [bind, Except.bind, hv] at hopen
  split at hopen
  · cases hopen
  · exact absurd hopen (small hseal ⟨hM.namespaceId.symm, hM.containerKind.symm, hM.containerId.symm, rfl⟩ (Nat.lt_of_not_le hfits))

/-- Without the object a read succeeds with no bytes. -/
private theorem Lacks.read (h : Lacks o slot v t) (capacity : Nat) : residentContainerRead (some o) slot v t capacity = .ok [] := by
  obtain ⟨⟨m, M⟩, hload⟩ := h.loads
  have hnone : ∀ M', some M' ∈ [some M, residentManifestCandidate o slot v m.other] → residentManifestFind M'.objects t = none :=
    fun M' hM' => by
      obtain ⟨m', hparse⟩ := (mem_candidates hload).mp hM'
      exact h.absent m' M' hparse
  unfold residentContainerRead
  rw [if_neg (by rw [h.type]; simp)]
  dsimp only
  rw [hload]
  exact residentReadAttempts_absent hnone

private theorem Lacks.not_readsObjects (h : Lacks o slot v t) : ¬ ReadsObjects o slot v t capacity := fun hreads => by
  obtain ⟨m, M, d, record, hparse, hfind, -⟩ := hreads [] (h.read capacity)
  rw [h.absent m M hparse] at hfind
  cases hfind

private theorem Genuine.readsObjects (law : o.Lawful) (small : RefusesSmall o) (h : Genuine o slot v) (hlacks : ¬ Lacks o slot v t) :
    ReadsObjects o slot v t capacity := by
  intro data hread
  unfold residentContainerRead at hread
  split at hread
  · cases hread
  · next htype =>
    rw [Bool.not_eq_false] at htype
    dsimp only at hread
    split at hread
    · cases hread
    · next m M hload =>
      rcases residentReadAttempts_ok hread with ⟨-, hnone⟩ | ⟨M', d, hM', hfind, hopen⟩
      · exact absurd ⟨htype, ⟨_, hload⟩, fun m' M' hparse => hnone M' ((mem_candidates hload).mpr ⟨m', hparse⟩)⟩ hlacks
      · obtain ⟨m', hparse⟩ := (mem_candidates hload).mp hM'
        obtain ⟨hformed, -, hrecords⟩ := h.parsed law hparse
        obtain ⟨data', record, hrecord, hsealed⟩ := hrecords d (List.mem_of_find?_eq_some hfind)
        obtain rfl := hsealed.opens law small hrecord hformed hopen
        exact ⟨m', M', d, record, hparse, hfind, hsealed.1, hrecord, hsealed⟩

/-- Whatever calls came before, a read that succeeds has read an object, unless the slot has a manifest and none has the object. -/
theorem readsObjects_iff (law : o.Lawful) (small : RefusesSmall o) {s : Store Nat UInt8} (reached : Reached o s) (slot : Slot)
    (t capacity : Nat) : ReadsObjects o slot s.view t capacity ↔ ¬ Lacks o slot s.view t :=
  ⟨fun hreads hlacks => hlacks.not_readsObjects hreads, (reached.genuine law slot).1.readsObjects law small⟩

/-! ### On a plain store -/

section Plain

private theorem plainStore_small : RefusesSmall plainStore := by
  intro r r' policyHash data b found capacity capacity' hseal hsame hsmall hopen
  simp only [plainStore] at hseal hopen
  split at hseal
  · cases hseal
    split at hopen
    · next hfits =>
      have hheader : (PlainStore.header r.object).length = 12 := rfl
      rw [List.length_append, hheader] at hfits
      omega
    · cases hopen
  · cases hseal

private theorem blankStore_reached : Reached plainStore blankStore := .start fun _ _ _ => ⟨rfl, rfl⟩

theorem registered_readsObjects : ¬ Lacks plainStore plainSlot registered.view fidoResidentObjectCredential ∧
    ReadsObjects plainStore plainSlot registered.view fidoResidentObjectCredential 1 := by
  have hhas : ((residentManifestParseSlot plainStore plainSlot registered.view .slot0).toOption.any fun M =>
    (residentManifestFind M.objects fidoResidentObjectCredential).isSome) = true := by decide +kernel
  have hlacks : ¬ Lacks plainStore plainSlot registered.view fidoResidentObjectCredential := fun h => by
    cases hparse : residentManifestParseSlot plainStore plainSlot registered.view .slot0 with
    | error e =>
      rw [hparse] at hhas
      cases hhas
    | ok M =>
      rw [hparse] at hhas
      have hfind := h.absent .slot0 M hparse
      simp [Except.toOption, hfind] at hhas
  have hreached : Reached plainStore registered := blankStore_reached.next (.completes plainSlot (.create firstContents) _)
  exact ⟨hlacks, (readsObjects_iff PlainStore.lawful plainStore_small hreached plainSlot _ _).mpr hlacks⟩

/-- An update of a credential in a slot without a container. -/
def orphan : Store Nat UInt8 := ((SlotCall.updateCredential [9]).run (some plainStore) plainSlot blankStore).2

private theorem orphan_lacks : Lacks plainStore plainSlot orphan.view fidoResidentObjectRpIdHash := by
  have hloads : (residentManifestLoad plainStore plainSlot orphan.view).toBool = true := by decide +kernel
  have habsent : ∀ m, ((residentManifestParseSlot plainStore plainSlot orphan.view m).toOption.all fun M =>
      (residentManifestFind M.objects fidoResidentObjectRpIdHash).isNone) = true := by
    intro m
    cases m <;> decide +kernel
  refine ⟨by decide, exists_ok hloads, fun m M hparse => ?_⟩
  have hnone := habsent m
  rw [hparse] at hnone
  simpa [Except.toOption] using hnone

/-- It makes a container of the credential alone, and the hash of its RP is read from it as no bytes. -/
theorem orphan_reads_absent : Reached plainStore orphan ∧
    residentContainerRead (some plainStore) plainSlot orphan.view fidoResidentObjectRpIdHash 32 = .ok [] ∧
      ¬ ReadsObjects plainStore plainSlot orphan.view fidoResidentObjectRpIdHash 32 :=
  ⟨blankStore_reached.next (.completes plainSlot (.updateCredential [9]) _), orphan_lacks.read 32, orphan_lacks.not_readsObjects⟩

end Plain
end FidoTouch.Resident
