import FidoTouch.Oath.Applet
import FidoTouch.PlainSdk
import FidoTouch.Tlv

/-! Credential records as sequences of TLV elements, for an SDK whose TLV functions are right. -/
namespace FidoTouch.Oath
open FidoTouch.Program Handler FidoTouch.Storage
open Tlv (Item encode fieldOf valueOf Around)

/-- The SDK reads the elements that a buffer starts with, and writes lengths in their shortest form. -/
class TlvCorrect [Sdk] : Prop where
  reads : Tlv.Reads Sdk.tlvWalk fun data tag => (Sdk.tlvFindTag data tag).map fun field => (field.offset, field.data)
  formatLen : ∀ n < 65536, Sdk.tlvFormatLen n = (Tlv.Form.least n).bytes n

section
variable [Sdk]

/-- What is found under a tag. -/
def lookup (data : Bytes) (tag : Nat) : Option Bytes := (Sdk.tlvFindTag data tag).map TlvField.data

/-- The elements that can be read from a buffer, and the rest of which none can. -/
structure Parsed (data : Bytes) (items : List Item) (tail : Bytes) : Prop where
  split : data = encode items ++ tail
  unread : Sdk.tlvWalk tail = []

variable [TlvCorrect] {data tail : Bytes} {items : List Item} {tag : Nat} {field : TlvField}

theorem exists_parsed (data : Bytes) : ∃ items tail, Parsed data items tail := by
  obtain ⟨items, tail, hsplit, hunread⟩ := TlvCorrect.reads.split data
  exact ⟨items, tail, hsplit, hunread⟩

theorem Parsed.walk (h : Parsed data items tail) : Sdk.tlvWalk data = items.map Item.element := by
  rw [h.split, TlvCorrect.reads.append, h.unread, List.append_nil]

theorem Parsed.find (h : Parsed data items tail) (tag : Nat) :
    Sdk.tlvFindTag data tag = (fieldOf tag items).map fun field => ⟨field.1, field.2⟩ := by
  have hfind := TlvCorrect.reads.find items tail tag h.unread
  rw [← h.split] at hfind
  rw [← hfind]
  cases Sdk.tlvFindTag data tag <;> rfl

theorem Parsed.lookup (h : Parsed data items tail) (tag : Nat) : lookup data tag = valueOf tag items := by
  rw [Oath.lookup, h.find, ← Tlv.fieldFrom_value tag 0, Option.map_map]
  rfl

theorem Parsed.around (h : Parsed data items tail) (hfield : Sdk.tlvFindTag data tag = some field) :
    ∃ before i after, Around tag items before i after ∧ field.offset = (encode before ++ i.head).length ∧ field.data = i.value := by
  rw [h.find, Option.map_eq_some_iff] at hfield
  obtain ⟨⟨offset, value⟩, hfield, rfl⟩ := hfield
  exact Tlv.fieldOf_around hfield

theorem parsed_encode (items : List Item) : Parsed (encode items) items [] := by
  refine ⟨(List.append_nil _).symm, ?_⟩
  obtain ⟨items', tail, hsplit, hunread⟩ := exists_parsed []
  obtain ⟨-, rfl⟩ := List.append_eq_nil_iff.mp hsplit.symm
  exact hunread

omit [TlvCorrect] in
/-- Elements in place of those read, with the same rest, are read instead. -/
theorem Parsed.replace (h : Parsed data items tail) (items' : List Item) : Parsed (encode items' ++ tail) items' tail :=
  ⟨rfl, h.unread⟩

/-! ### Re-encoding -/

theorem tlvAppend_eq {value : Bytes} (i : Item) (h : value.length < 65536) : tlvAppend i.tag value = (i.rewrite value h).bytes := by
  simp only [tlvAppend, TlvCorrect.formatLen _ h, Item.bytes, Item.head, Item.rewrite, Tlv.tagBytes, List.append_assoc]
  rfl

/-- An element again, its length in the shortest form, a key replaced. -/
def reencode (encrypted : Bytes) (h : encrypted.length < 65536) (i : Item) : Item :=
  i.rewrite (if i.tag = tagKey then encrypted else i.value) (by
    split
    · exact h
    · exact i.fits.lt)

theorem Parsed.replaceKey (h : Parsed data items tail) {encrypted : Bytes} (hlength : encrypted.length < 65536) :
    tlvReplaceKey data encrypted = encode (items.map (reencode encrypted hlength)) := by
  rw [tlvReplaceKey, h.walk, encode, List.flatMap_map, List.flatMap_map]
  congr 1
  funext i
  exact tlvAppend_eq i _

omit [Sdk] [TlvCorrect] in
/-- Each value that is looked up is the one before, the key apart. -/
theorem valueOf_reencode {encrypted : Bytes} (hlength : encrypted.length < 65536) (items : List Item) (tag : Nat) :
    valueOf tag (items.map (reencode encrypted hlength)) =
      (valueOf tag items).map fun value => if tag = tagKey then encrypted else value := by
  have htag : (fun i : Item => decide (i.tag = tag)) ∘ reencode encrypted hlength = fun i => decide (i.tag = tag) := rfl
  rw [valueOf, List.find?_map, htag, Option.map_map, valueOf, Option.map_map]
  cases hfind : items.find? fun i => i.tag = tag with
  | none => rfl
  | some i =>
    have hi : i.tag = tag := by simpa using List.find?_some hfind
    simp [reencode, Item.rewrite, hi]

end

/-- An SDK whose TLV functions are those of the library. -/
@[reducible] def readerSdk : Sdk :=
  { plainSdk with
    tlvFindTag := fun data tag => (Tlv.find data tag).map fun field => ⟨field.1, field.2⟩
    tlvWalk := Tlv.walk
    tlvFormatLen := fun n => (Tlv.Form.least n).bytes n }

instance readerSdk_correct : @TlvCorrect readerSdk :=
  let := readerSdk
  { reads := by
      have hfind : (fun data tag => (Sdk.tlvFindTag data tag).map fun field => (field.offset, field.data)) = Tlv.find := by
        funext data tag
        change ((Tlv.find data tag).map _).map _ = _
        rw [Option.map_map]
        exact Option.map_id'
      rw [hfind]
      exact Tlv.reads_walk
    formatLen := fun _ _ => rfl }

/-- An unlocked applet without files. -/
def emptyCard (fates : List Bool) : OathState :=
  ⟨Storage.Store.powerUp (fun _ => none) fates, true, true, List.replicate 8 0, [], fun _ => 0⟩

end FidoTouch.Oath
