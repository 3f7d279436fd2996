import FidoTouch.Oath.Lookups

/-! What RENAME makes of a record. It writes the new name in the place of the old one and the low byte of its length
before it, so the length has to fit in as many bytes as the old one's took. -/
namespace FidoTouch.Oath
open FidoTouch.Program Handler FidoTouch.Storage
open Tlv (Item encode Around Canonical)

section
variable {items : List Item} {new : Bytes}

/-- A file holds well-formed elements: those of a record, the first name replaced. -/
def RenamedTo (items : List Item) (new : Bytes) (file : Option Bytes) : Prop :=
  ∃ items', file = some (encode items') ∧ items'.map Item.element = Tlv.setFirst tagName new (items.map Item.element)

/-- A length that takes as many bytes as another one, with the same high byte where there is one. -/
def LengthFits (old new : Nat) : Prop := if old < 128 then new < 128 else if old < 256 then new < 256 else new / 256 = old / 256

instance (old new : Nat) : Decidable (LengthFits old new) := by
  unfold LengthFits
  infer_instance

theorem lengthFits_iff {old new : Nat} (hold : old < 65536) : LengthFits old new ↔
    (Tlv.Form.least old).Fits new ∧ (Tlv.Form.least old = .three → new / 256 = old / 256) := by
  unfold LengthFits Tlv.Form.least
  split
  · exact ⟨fun h => ⟨h, nofun⟩, And.left⟩
  · split
    · exact ⟨fun h => ⟨h, nofun⟩, And.left⟩
    · refine ⟨fun h => ⟨?_, fun _ => h⟩, fun h => h.2 rfl⟩
      simp only [Tlv.Form.Fits]
      omega

/-- Where the record that RENAME writes can be read, the length fits: the elements after the name take no fewer bytes
than before, so the length of the name takes no more. -/
theorem lengthFits_of_reading {before after items' : List Item} {i : Item} (hcanonical : Canonical items)
    (haround : Around tagName items before i after)
    (hbytes : encode items' = encode before ++ Tlv.tagBytes i.tag ++ i.form.patched i.value.length (UInt8.ofNat new.length) ++ new ++ encode after)
    (hread : items'.map Item.element = before.map Item.element ++ (tagName, new) :: after.map Item.element) :
    LengthFits i.value.length new.length := by
  have hi : i.form = Tlv.Form.least i.value.length := hcanonical i (by rw [haround.split]; simp)
  have hafter : Canonical after := fun k hk => hcanonical k (by rw [haround.split]; simp [hk])
  simp only [List.append_assoc] at hbytes
  obtain ⟨rest, rfl, hrest⟩ := Tlv.encode_prefix hbytes
  rw [List.map_append, List.append_cancel_left_eq] at hread
  cases rest with
  | nil => simp at hread
  | cons j rest =>
    simp only [List.map_cons, List.cons.injEq, Item.element, Prod.mk.injEq] at hread
    obtain ⟨⟨htag, rfl⟩, hread⟩ := hread
    rw [Tlv.encode_cons, Item.bytes, Item.head, htag, ← haround.tagged, List.append_assoc, List.append_assoc, List.append_cancel_left_eq] at hrest
    have hsize := hafter.length_le hread
    have hlength := congrArg List.length hrest
    simp only [List.length_append] at hlength
    have hfits := j.fits
    have hnew := hfits.lt
    rw [hi] at hlength hrest
    unfold LengthFits
    unfold Tlv.Form.least at hlength hrest
    split
    · next hshort =>
      rw [if_pos hshort] at hlength
      cases hform : j.form <;> rw [hform] at hlength hfits <;>
        simp only [Tlv.Form.bytes, Tlv.Form.patched, List.length_cons, List.length_nil, List.dropLast, List.nil_append] at hlength
      · exact hfits
      · omega
      · omega
    · next hlong =>
      rw [if_neg hlong] at hlength hrest
      split
      · next hshort =>
        rw [if_pos hshort] at hlength
        cases hform : j.form <;> rw [hform] at hlength hfits <;> simp only [Tlv.Form.Fits] at hfits
        · omega
        · exact hfits
        · simp [Tlv.Form.bytes, Tlv.Form.patched] at hlength
          omega
      · next hlong' =>
        rw [if_neg hlong'] at hrest
        have hold := i.fits.lt
        cases hform : j.form <;> rw [hform] at hrest hfits <;>
          simp only [Tlv.Form.bytes, Tlv.Form.patched, List.dropLast, List.cons_append, List.nil_append, List.cons.injEq, Tlv.Form.Fits] at hrest hfits
        · have hbyte := congrArg UInt8.toNat hrest.1
          simp at hbyte
          omega
        · exact absurd hrest.1 (by decide)
        · have hbyte := congrArg UInt8.toNat hrest.2.1
          simp only [UInt8.toNat_ofNat'] at hbyte
          omega

end

section
variable [Sdk] [TlvCorrect] {apdu : Apdu} {s s' : OathState} {name new : Bytes} {fid : Nat} {items : List Item}

omit [Sdk] [TlvCorrect] in
/-- A record that is left as it was still has its old name. -/
theorem not_renamedTo_same {before after : List Item} {i : Item} (haround : Around tagName items before i after) (hne : i.value ≠ new) :
    ¬ RenamedTo items new (some (encode items)) := by
  rintro ⟨items', hbytes, hread⟩
  obtain rfl := Tlv.encode_injective (Option.some.inj hbytes).symm
  rw [haround.setFirst, haround.split, List.map_append, List.map_cons, List.append_cancel_left_eq, List.cons.injEq] at hread
  exact hne (congrArg Prod.snd hread.1)

/-- The record that RENAME writes has the new name and all else as it was exactly when the length fits. -/
theorem renamedTo_written_iff (hcanonical : Canonical items) {before after : List Item} {i : Item}
    (haround : Around tagName items before i after) :
    RenamedTo items new (some (renamedRecord (encode items) ⟨(encode before ++ i.head).length, i.value⟩ new)) ↔
      LengthFits i.value.length new.length := by
  have hi : i.form = Tlv.Form.least i.value.length := hcanonical i (by rw [haround.split]; simp)
  constructor
  · rintro ⟨items', hbytes, hread⟩
    rw [haround.setFirst] at hread
    refine lengthFits_of_reading hcanonical haround ?_ hread
    have htake := haround.take []
    have hdrop := haround.drop_value []
    rw [List.append_nil] at htake hdrop
    rw [← Option.some.inj hbytes, renamedRecord, htake, hdrop, Tlv.head_patch, List.append_nil]
  · intro hfits
    rw [lengthFits_iff i.fits.lt, ← hi] at hfits
    have hwritten := (parsed_encode items).renamed haround hfits.1 hfits.2
    refine ⟨_, congrArg some (hwritten.trans (List.append_nil _)), ?_⟩
    have helement : (i.withValue new hfits.1).element = (tagName, new) := Prod.ext haround.tagged rfl
    rw [haround.setFirst, List.map_append, List.map_cons, helement]

/-- A successful RENAME of a record as PUT writes it leaves a record with the new name and all else as it was exactly when
the length of the new name fits where the old one's stood, and the write does not fail. -/
theorem rename_keeps_record_iff (hnames : renameNames apdu = some (name, new)) (hfound : findOathCred s.store.view name = some fid)
    (hrecord : s.store.view fid = some (encode items)) (hcanonical : Canonical items) (hrun : cmdRename apdu s = (.ok (), s')) :
    RenamedTo items new (s'.store.view fid) ↔ LengthFits name.length new.length ∧ s.store.fates.head? ≠ some false := by
  rcases cmdRename_run apdu s with ⟨e, hfail⟩ | ⟨name', new', fid', data, old, t, ht, hrenames, hwritten⟩
  · rw [hfail] at hrun
    cases hrun
  obtain rfl : t = s' := congrArg Prod.snd (ht.symm.trans hrun)
  obtain ⟨rfl, rfl⟩ := Prod.mk.inj (Option.some.inj (hnames.symm.trans hrenames.names))
  obtain rfl := Option.some.inj (hfound.symm.trans hrenames.found)
  obtain rfl := Option.some.inj (hrecord.symm.trans (fileData_some.mp hrenames.record).1)
  obtain ⟨before, i, after, haround, rfl⟩ := (parsed_encode items).field hrenames.field
  obtain ⟨record, field, hrecord', -, hfield, rfl⟩ := nameAt_some (findOathCred_some hfound).2
  obtain rfl := Option.some.inj (hrecord'.symm.trans hrecord)
  obtain rfl := Option.some.inj (hfield.symm.trans hrenames.field)
  rcases hwritten with ⟨hview, hfate⟩ | ⟨hview, hfate⟩
  · rw [hview, Function.update_self, renamedTo_written_iff hcanonical haround]
    exact (and_iff_left hfate).symm
  · rw [hview, hrecord]
    exact iff_of_false (not_renamedTo_same haround hrenames.ne) fun h => h.2 hfate

end

section Plain
attribute [local instance] readerSdk

/-- A TOTP credential of the name `"a"`. -/
private def namedRecord : Bytes := [0x71, 1, 0x61, 0x73, 3, 0x21, 6, 9]

private def namedCard : OathState :=
  ⟨Storage.Store.powerUp (fun fid => if fid = efOathCred then some namedRecord else none) [], true, true, List.replicate 8 0,
    [], fun _ => 0⟩

private def renameApdu (newName : Bytes) : Apdu := ⟨0, insRename, 0, 0, [0x71, 1, 0x61] ++ newName⟩

private def shortRename : Apdu := renameApdu [0x71, 1, 0x62]

/-- The new name takes 200 bytes, its length two. -/
private def longRename : Apdu := renameApdu ([0x71, 0x81, 200] ++ List.replicate 200 0x62)

theorem short_name_renamed :
    RenamedTo (Tlv.decode namedRecord) [0x62] ((cmdRename shortRename namedCard).2.store.view efOathCred) :=
  (@rename_keeps_record_iff _ _ shortRename namedCard _ [0x61] [0x62] efOathCred _ (by decide +kernel) (by decide +kernel)
    (by decide +kernel) (by unfold Canonical; decide +kernel) (run_of_ok (by decide +kernel))).mpr ⟨by decide, by decide⟩

/-- RENAME succeeds, and the length it leaves for the new name is no length. -/
theorem long_name_breaks_record : renameNames longRename = some ([0x61], List.replicate 200 0x62) ∧
    (cmdRename longRename namedCard).1 = .ok () ∧ Canonical (Tlv.decode namedRecord) ∧
    namedCard.store.view efOathCred = some (encode (Tlv.decode namedRecord)) ∧
    ¬ RenamedTo (Tlv.decode namedRecord) (List.replicate 200 0x62) ((cmdRename longRename namedCard).2.store.view efOathCred) := by
  refine ⟨by decide +kernel, by decide +kernel, by unfold Canonical; decide +kernel, by decide +kernel, ?_⟩
  rintro ⟨items', hfile, hread⟩
  have hdecoded : ((cmdRename longRename namedCard).2.store.view efOathCred).map (fun data => (Tlv.decode data).map Item.element) =
      some (Tlv.setFirst tagName (List.replicate 200 0x62) ((Tlv.decode namedRecord).map Item.element)) := by
    rw [hfile, Option.map_some, Tlv.decode_encode, hread]
  revert hdecoded
  decide +kernel

end Plain
end FidoTouch.Oath
