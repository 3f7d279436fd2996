import Mathlib.Data.List.Basic
import FidoTouch.Resident.ObjectStore

/-! A concrete object store without secrecy: fixed-width fields, the data in clear. The laws hold
of it, so runs of the container code can be evaluated. -/
namespace FidoTouch.Resident
namespace PlainStore

/-- Four bytes, least significant first. -/
def word (n : Nat) : Bytes :=
  [UInt8.ofNat n, UInt8.ofNat (n / 256), UInt8.ofNat (n / 65536), UInt8.ofNat (n / 16777216)]

def words (ns : List Nat) : Bytes := ns.flatMap word

def unwords : Bytes → List Nat
  | a :: b :: c :: d :: rest =>
    (a.toNat + 256 * b.toNat + 65536 * c.toNat + 16777216 * d.toNat) :: unwords rest
  | _ => []

private theorem unwords_word {n : Nat} (hn : n < 4294967296) (rest : Bytes) :
    unwords (word n ++ rest) = n :: unwords rest := by
  simp only [word, List.cons_append, List.nil_append, unwords, UInt8.toNat_ofNat', List.cons.injEq, and_true]
  omega

private theorem unwords_words {ns : List Nat} (hn : ∀ n ∈ ns, n < 4294967296) : unwords (words ns) = ns := by
  induction ns with
  | nil => rfl
  | cons n ns ih =>
    rw [words, List.flatMap_cons, unwords_word (hn n (by simp))]
    exact congrArg _ (ih fun x hx => hn x (by simp [hx]))

private def flag (b : Bool) : Nat := if b then 1 else 0

def descriptorFields (d : Descriptor) : List Nat :=
  [d.objectType, d.objectTag, d.generation, d.logicalSize, d.recordId, d.storedSize, d.policyId, d.keyDomain,
    if d.protection = .aeadSecret then 1 else 0, flag d.flags.mutable, flag d.flags.nonExportable, flag d.flags.inline]

/-- The fields that are not flags are what must fit. -/
theorem descriptorFields_lt {d : Descriptor} (h : ∀ n ∈ [d.objectType, d.objectTag, d.generation, d.logicalSize, d.recordId,
    d.storedSize, d.policyId, d.keyDomain], n < 4294967296) {n : Nat} (hn : n ∈ descriptorFields d) : n < 4294967296 := by
  have hflag : ∀ b, flag b < 4294967296 := fun b => by cases b <;> decide
  obtain ⟨t, tag, g, size, record, stored, policy, domain, p, ⟨m, x, i⟩⟩ := d
  simp only [descriptorFields, List.mem_cons, List.not_mem_nil, or_false] at hn
  simp only [List.mem_cons, List.not_mem_nil, or_false, forall_eq_or_imp, forall_eq] at h
  obtain ⟨h1, h2, h3, h4, h5, h6, h7, h8⟩ := h
  rcases hn with rfl | rfl | rfl | rfl | rfl | rfl | rfl | rfl | rfl | rfl | rfl | rfl <;> first
    | assumption
    | exact hflag _
    | (split <;> decide)

def readDescriptors : List Nat → List Descriptor
  | t :: tag :: g :: size :: record :: stored :: policy :: domain :: p :: m :: x :: i :: rest =>
    ⟨t, tag, g, size, record, stored, policy, domain, if p = 1 then .aeadSecret else .authenticatedPublic,
      ⟨m = 1, x = 1, i = 1⟩⟩ :: readDescriptors rest
  | _ => []

private theorem readDescriptors_fields (ds : List Descriptor) :
    readDescriptors (ds.flatMap descriptorFields) = ds := by
  induction ds with
  | nil => rfl
  | cons d ds ih =>
    obtain ⟨t, tag, g, size, record, stored, policy, domain, p, ⟨m, x, i⟩⟩ := d
    rw [List.flatMap_cons]
    simp only [descriptorFields, List.cons_append, List.nil_append, readDescriptors, ih]
    cases p <;> cases m <;> cases x <;> cases i <;> simp [flag]

def manifestFields (m : Manifest) : List Nat :=
  [m.namespaceId, m.containerKind, m.containerId, m.generation, m.previousGeneration] ++
    m.objects.flatMap descriptorFields

def readManifest : List Nat → Option Manifest
  | ns :: kind :: id :: g :: prev :: rest => some ⟨ns, kind, id, g, prev, 0, readDescriptors rest⟩
  | _ => none

def header (d : Descriptor) : Bytes := words [d.objectType, d.generation, d.logicalSize]

end PlainStore
open PlainStore

/-- An object store that keeps everything in clear. -/
def plainStore : ObjectStore where
  manifestHeaderSize := 20
  descriptorSize := 48
  recordHeaderSize := 12
  authTagSize := 0
  manifestMaxObjects := 8
  policyFormatVersion := 1
  policyHash := .ok
  manifestBuild m capacity :=
    if (words (manifestFields m)).length ≤ capacity ∧ ∀ n ∈ manifestFields m, n < 4294967296 then
      .ok (words (manifestFields m))
    else .error .wrongLength
  manifestParse b := match readManifest (unwords b) with
    | some m => .ok m
    | none => .error .wrongData
  recordHeaderParse b d :=
    if unwords (b.take 12) = [d.objectType, d.generation, d.logicalSize] ∧ b.length = 12 + d.logicalSize then .ok ()
    else .error .wrongData
  recordSeal r _ data capacity :=
    if r.object.objectType < 4294967296 ∧ r.object.generation < 4294967296 ∧ r.object.logicalSize < 4294967296 ∧
        r.object.logicalSize = data.length ∧ 12 + data.length ≤ capacity then .ok (header r.object ++ data)
    else .error .wrongLength
  recordUnseal r _ b capacity :=
    if b.take 12 = header r.object ∧ b.length ≤ 12 + capacity then .ok (b.drop 12) else .error .wrongSignature

namespace PlainStore

private theorem header_length (d : Descriptor) : (header d).length = 12 := rfl

private theorem take_header (d : Descriptor) (data : Bytes) : (header d ++ data).take 12 = header d :=
  List.take_left' (header_length d)

private theorem unwords_header {d : Descriptor} (ht : d.objectType < 4294967296) (hg : d.generation < 4294967296)
    (hl : d.logicalSize < 4294967296) : unwords (header d) = [d.objectType, d.generation, d.logicalSize] :=
  unwords_words (by simp [ht, hg, hl])

private theorem seal_ok {r : RecordManifest} {ph data b : Bytes} {capacity : Nat}
    (h : plainStore.recordSeal r ph data capacity = .ok b) :
    (r.object.objectType < 4294967296 ∧ r.object.generation < 4294967296 ∧ r.object.logicalSize < 4294967296) ∧
      r.object.logicalSize = data.length ∧ b = header r.object ++ data := by
  simp only [plainStore] at h
  split at h
  · rename_i hc
    cases h
    exact ⟨⟨hc.1, hc.2.1, hc.2.2.1⟩, hc.2.2.2.1, rfl⟩
  · simp at h

theorem lawful : plainStore.Lawful where
  max_objects := by decide
  record_overhead := by decide
  manifest_parse := by
    intro m cap b hext h
    simp only [plainStore] at h ⊢
    split at h
    · rename_i hc
      cases h
      refine ⟨by simp [words, manifestFields, word], ?_⟩
      rw [unwords_words hc.2]
      simp only [manifestFields, List.cons_append, List.nil_append, readManifest, readDescriptors_fields]
      rw [← hext]
    · simp at h
  policy_hash p := ⟨p, rfl⟩
  record_seal := by
    intro r ph data hr hl
    refine ⟨header r.object ++ data, ?_, by simp [plainStore, header_length]⟩
    obtain ⟨h1, h2, h3⟩ := hr
    simp only [plainStore]
    rw [if_pos ⟨by omega, h2, h3, hl, by omega⟩]
  record_nonempty := by
    intro r ph data cap b h
    obtain ⟨-, -, rfl⟩ := seal_ok h
    simp [header, words, word]
  header_accept := by
    intro r ph data cap b h
    obtain ⟨⟨ht, hg, hs⟩, hl, rfl⟩ := seal_ok h
    simp only [plainStore]
    rw [take_header, unwords_header ht hg hs, if_pos ⟨rfl, by simp [header_length, hl]⟩]
  header_reject := by
    intro r ph data cap b d h hd
    obtain ⟨⟨ht, hg, hs⟩, hl, rfl⟩ := seal_ok h
    simp only [plainStore] at hd
    split at hd
    · rename_i hc
      rw [take_header, unwords_header ht hg hs] at hc
      simp only [List.cons.injEq] at hc
      exact ⟨hc.1.1.symm, hc.1.2.1.symm, hc.1.2.2.1.symm⟩
    · simp at hd
  record_unseal := by
    intro r r' ph data cap b cap' h hr hc
    obtain ⟨-, -, rfl⟩ := seal_ok h
    obtain ⟨-, -, -, hobj⟩ := hr
    simp only [plainStore]
    rw [← hobj, take_header, if_pos ⟨rfl, by simp [header_length, hc]⟩, List.drop_left' (header_length _)]

end PlainStore

end FidoTouch.Resident
