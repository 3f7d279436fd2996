import FidoTouch.Cbor
import FidoTouch.PlainSdk

/-! What tinycbor reads of the items the device writes, and a decoder that reads them back. -/
namespace FidoTouch

/-! ### The bytes of an item -/

mutual

/-- The device writes the item as these bytes. -/
inductive Encodes : CborItem → Bytes → Prop
  | uint {n : Nat} (h : n < 2 ^ 64) : Encodes (.uint n) (Cbor.uint n)
  | nint {n : Nat} (hpos : 0 < n) (h : n < 2 ^ 64) : Encodes (.nint n) (Cbor.negativeInt n)
  | bytes {b : Bytes} (h : b.length < 2 ^ 64) : Encodes (.bytes b) (Cbor.byteString b)
  | text {b : Bytes} (h : b.length < 2 ^ 64) : Encodes (.text b) (Cbor.textString b)
  | bool (b : Bool) : Encodes (.bool b) (Cbor.boolean b)
  | map {entries : List (CborItem × CborItem)} {b : Bytes} (h : EncodesAll entries b) : Encodes (.map entries) (Cbor.openMap b)

/-- The entries of a map one after the other, each its key and its value. -/
inductive EncodesAll : List (CborItem × CborItem) → Bytes → Prop
  | nil : EncodesAll [] []
  | cons {key value : CborItem} {entries : List (CborItem × CborItem)} {k v b : Bytes} (hkey : Encodes key k) (hvalue : Encodes value v)
    (h : EncodesAll entries b) : EncodesAll ((key, value) :: entries) (k ++ v ++ b)

end

theorem EncodesAll.append {l r : List (CborItem × CborItem)} {b b' : Bytes} (hl : EncodesAll l b) (hr : EncodesAll r b') :
    EncodesAll (l ++ r) (b ++ b') := by
  induction l generalizing b with
  | nil =>
    cases hl
    exact hr
  | cons entry entries ih =>
    cases hl with
    | cons hkey hvalue h =>
      rw [List.cons_append, List.append_assoc]
      exact .cons hkey hvalue (ih h)

theorem EncodesAll.single {key value : CborItem} {k v : Bytes} (hkey : Encodes key k) (hvalue : Encodes value v) :
    EncodesAll [(key, value)] (k ++ v) := by
  have hall := EncodesAll.cons hkey hvalue .nil
  rwa [List.append_nil] at hall

/-- tinycbor reads the items that the device writes, whatever comes after them. -/
def CborReads [Sdk] : Prop := ∀ {item : CborItem} {b : Bytes} (rest : Bytes), Encodes item b → Sdk.cborDecode (b ++ rest) = .ok item

/-- It also reads a map of given size. -/
def MapReads [Sdk] : Prop := ∀ {entries : List (CborItem × CborItem)} {b : Bytes} (rest : Bytes), entries.length < 2 ^ 64 →
  EncodesAll entries b → Sdk.cborDecode (Cbor.map entries.length ++ b ++ rest) = .ok (.map entries)

/-! ### A decoder -/

namespace PlainCbor

/-- The major type of an item, its argument, and what follows. -/
def decodeHead : Bytes → Option (Nat × Nat × Bytes)
  | [] => none
  | b :: rest =>
    let info := b.toNat % 32
    if info < 24 then some (b.toNat / 32, info, rest)
    else
      let width := 2 ^ (info - 24)
      if info < 28 ∧ width ≤ rest.length then some (b.toNat / 32, beNat (rest.take width), rest.drop width) else none

/-- A number or a string, by its major type. -/
def itemOfHead : (major n : Nat) → Bytes → Option (CborItem × Bytes)
  | 0, n, rest => some (.uint n, rest)
  | 1, n, rest => some (.nint (n + 1), rest)
  | 2, n, rest => if n ≤ rest.length then some (.bytes (rest.take n), rest.drop n) else none
  | 3, n, rest => if n ≤ rest.length then some (.text (rest.take n), rest.drop n) else none
  | _, _, _ => none

mutual

def decodeItem : (fuel : Nat) → Bytes → Option (CborItem × Bytes)
  | fuel + 1, b :: rest =>
    if b = 0xf4 then some (.bool false, rest)
    else if b = 0xf5 then some (.bool true, rest)
    else if b = 0xbf then (decodeEntries fuel rest).map fun found => (.map found.1, found.2)
    else match decodeHead (b :: rest) with
      | some (major, n, rest) => itemOfHead major n rest
      | none => none
  | _, _ => none

def decodeEntries : (fuel : Nat) → Bytes → Option (List (CborItem × CborItem) × Bytes)
  | fuel + 1, b :: rest =>
    if b = 0xff then some ([], rest)
    else match decodeItem fuel (b :: rest) with
      | none => none
      | some (key, rest) => match decodeItem fuel rest with
        | none => none
        | some (value, rest) => (decodeEntries fuel rest).map fun found => ((key, value) :: found.1, found.2)
  | _, _ => none

end

def decode (b : Bytes) : Except Nat CborItem :=
  match decodeItem b.length b with
  | some (item, _) => .ok item
  | none => .error 1

/-! ### It reads what the device writes -/

private theorem bigEndian_succ (width n : Nat) :
    Cbor.head.bigEndian (width + 1) n = Cbor.head.bigEndian width (n / 256) ++ [UInt8.ofNat n] := by
  simp only [Cbor.head.bigEndian, List.range_succ_eq_map, List.reverse_cons, List.map_append, List.map_cons, List.map_nil, Nat.pow_zero,
    Nat.div_one, ← List.map_reverse, List.map_map]
  congr 1
  refine List.map_congr_left fun i _ => ?_
  simp only [Function.comp_apply, Nat.succ_eq_add_one, Nat.pow_succ, Nat.mul_comm, Nat.div_div_eq_div_mul]

@[simp] private theorem bigEndian_length (width n : Nat) : (Cbor.head.bigEndian width n).length = width := by
  simp [Cbor.head.bigEndian]

private theorem beNat_bigEndian (width n : Nat) : beNat (Cbor.head.bigEndian width n) = n % 256 ^ width := by
  induction width generalizing n with
  | zero => simp [Cbor.head.bigEndian, beNat, Nat.mod_one]
  | succ width ih =>
    have hlast : ∀ (b : Bytes) (x : UInt8), beNat (b ++ [x]) = beNat b * 256 + x.toNat := fun b x => by simp [beNat]
    rw [bigEndian_succ, hlast, ih, UInt8.toNat_ofNat', show 2 ^ 8 = 256 from rfl, show 256 ^ (width + 1) = 256 * 256 ^ width by
      rw [Nat.pow_succ, Nat.mul_comm], Nat.mod_mul]
    omega

/-- An argument that stands in bytes of its own. -/
private theorem decodeHead_wide {major : UInt8} (hmajor : major.toNat < 7) {k n : Nat} (hk : k < 4) (h : n < 256 ^ 2 ^ k) (rest : Bytes) :
    decodeHead ((major * 32 + UInt8.ofNat (24 + k)) :: Cbor.head.bigEndian (2 ^ k) n ++ rest) = some (major.toNat, n, rest) := by
  have hfirst : (major * 32 + UInt8.ofNat (24 + k)).toNat = major.toNat * 32 + (24 + k) := by
    simp only [UInt8.toNat_add, UInt8.toNat_mul, UInt8.toNat_ofNat', Nat.reducePow, UInt8.toNat_ofNat]
    omega
  have hinfo : (major.toNat * 32 + (24 + k)) % 32 = 24 + k := by omega
  have hdiv : (major.toNat * 32 + (24 + k)) / 32 = major.toNat := by omega
  rw [List.cons_append, decodeHead]
  simp only [hfirst, hinfo, hdiv, if_neg (show ¬ 24 + k < 24 by omega), Nat.add_sub_cancel_left]
  rw [if_pos ⟨by omega, by simp⟩]
  simp [beNat_bigEndian, Nat.mod_eq_of_lt h]

theorem decodeHead_head {major : UInt8} (hmajor : major.toNat < 7) {n : Nat} (h : n < 2 ^ 64) (rest : Bytes) :
    decodeHead (Cbor.head major n ++ rest) = some (major.toNat, n, rest) := by
  unfold Cbor.head
  split
  · next hsmall =>
    have hfirst : (major * 32 + UInt8.ofNat n).toNat = major.toNat * 32 + n := by
      simp only [UInt8.toNat_add, UInt8.toNat_mul, UInt8.toNat_ofNat', Nat.reducePow, UInt8.toNat_ofNat]
      omega
    have hinfo : (major.toNat * 32 + n) % 32 = n := by omega
    have hdiv : (major.toNat * 32 + n) / 32 = major.toNat := by omega
    rw [List.cons_append, List.nil_append, decodeHead]
    simp only [hfirst, hinfo, hdiv, if_pos hsmall]
  · split
    · next h8 =>
      have hwide := decodeHead_wide (k := 0) hmajor (by omega) (by simpa using h8) rest
      rwa [show Cbor.head.bigEndian (2 ^ 0) n = [UInt8.ofNat n] by simp [Cbor.head.bigEndian]] at hwide
    · split
      · next h16 => exact decodeHead_wide (k := 1) hmajor (by omega) (by simpa using h16) rest
      · split
        · next h32 => exact decodeHead_wide (k := 2) hmajor (by omega) (by simpa using h32) rest
        · exact decodeHead_wide (k := 3) hmajor (by omega) (by simpa using h) rest

private theorem head_cons {major : UInt8} (hmajor : major.toNat < 4) (n : Nat) :
    ∃ b tail, Cbor.head major n = b :: tail ∧ b.toNat < 128 := by
  have hfirst : ∀ k < 28, (major * 32 + UInt8.ofNat k).toNat < 128 := fun k hk => by
    simp only [UInt8.toNat_add, UInt8.toNat_mul, UInt8.toNat_ofNat', Nat.reducePow, UInt8.toNat_ofNat]
    omega
  unfold Cbor.head
  split
  · exact ⟨_, _, rfl, hfirst n (by omega)⟩
  · split
    · exact ⟨_, _, rfl, hfirst 24 (by omega)⟩
    · split
      · exact ⟨_, _, rfl, hfirst 25 (by omega)⟩
      · split
        · exact ⟨_, _, rfl, hfirst 26 (by omega)⟩
        · exact ⟨_, _, rfl, hfirst 27 (by omega)⟩

/-- An item that is a number or a string goes by its head. -/
private theorem decodeItem_head {major : UInt8} (hmajor : major.toNat < 4) {n : Nat} (h : n < 2 ^ 64) (fuel : Nat) (rest : Bytes) :
    decodeItem (fuel + 1) (Cbor.head major n ++ rest) = itemOfHead major.toNat n rest := by
  obtain ⟨b, tail, hcons, hb⟩ := head_cons hmajor n
  have hne : ∀ x : UInt8, 128 ≤ x.toNat → b ≠ x := fun x hx he => by
    rw [he] at hb
    omega
  have hread := decodeHead_head (Nat.lt_of_lt_of_le hmajor (by decide)) h rest
  rw [hcons] at hread ⊢
  rw [List.cons_append] at hread ⊢
  rw [decodeItem, if_neg (hne 0xf4 (by decide)), if_neg (hne 0xf5 (by decide)), if_neg (hne 0xbf (by decide)), hread]

theorem encodes_cons {item : CborItem} {b : Bytes} (h : Encodes item b) : ∃ first tail, b = first :: tail ∧ first ≠ 0xff := by
  have hfirst : ∀ first : UInt8, first.toNat < 128 → first ≠ 0xff := fun first hlt he => by
    rw [he] at hlt
    exact absurd hlt (by decide)
  have hhead : ∀ (major : UInt8) (_ : major.toNat < 4) (n : Nat), ∃ first tail, Cbor.head major n = first :: tail ∧ first ≠ 0xff :=
    fun major hmajor n => by
      obtain ⟨first, tail, hcons, hlt⟩ := head_cons hmajor n
      exact ⟨first, tail, hcons, hfirst first hlt⟩
  have hstring : ∀ (major : UInt8) (_ : major.toNat < 4) (n : Nat) (rest : Bytes),
      ∃ first tail, Cbor.head major n ++ rest = first :: tail ∧ first ≠ 0xff := fun major hmajor n rest => by
    obtain ⟨first, tail, hcons, hne⟩ := hhead major hmajor n
    exact ⟨first, tail ++ rest, by rw [hcons, List.cons_append], hne⟩
  cases h with
  | uint => exact hhead 0 (by decide) _
  | nint => exact hhead 1 (by decide) _
  | bytes => exact hstring 2 (by decide) _ _
  | text => exact hstring 3 (by decide) _ _
  | bool b => cases b <;> exact ⟨_, _, rfl, by decide⟩
  | map => exact ⟨_, _, rfl, by decide⟩

private theorem bytes_of_head (b rest : Bytes) : itemOfHead 2 b.length (b ++ rest) = some (.bytes b, rest) := by
  simp [itemOfHead]

private theorem text_of_head (b rest : Bytes) : itemOfHead 3 b.length (b ++ rest) = some (.text b, rest) := by
  simp [itemOfHead]

private theorem nint_of_head {n : Nat} (hpos : 0 < n) (rest : Bytes) : itemOfHead 1 (n - 1) rest = some (.nint n, rest) := by
  rw [itemOfHead, Nat.sub_add_cancel hpos]

private theorem negativeInt_eq {n : Nat} (hpos : 0 < n) (h : n < 2 ^ 64) : Cbor.negativeInt n = Cbor.head 1 (n - 1) := by
  have harg : (n + 2 ^ 64 - 1) % 2 ^ 64 = n - 1 := by omega
  rw [Cbor.negativeInt, harg]

private theorem map_of_entries {fuel : Nat} {b rest : Bytes} {entries : List (CborItem × CborItem)}
    (h : decodeEntries fuel b = some (entries, rest)) : decodeItem (fuel + 1) (0xbf :: b) = some (.map entries, rest) := by
  have hfalse : (0xbf : UInt8) ≠ 0xf4 := by decide
  have htrue : (0xbf : UInt8) ≠ 0xf5 := by decide
  simp only [decodeItem, if_neg hfalse, if_neg htrue, if_true, h, Option.map_some]

mutual

theorem decodeItem_encodes {item : CborItem} {b : Bytes} (h : Encodes item b) {fuel : Nat} (hfuel : b.length ≤ fuel) (rest : Bytes) :
    decodeItem fuel (b ++ rest) = some (item, rest) := by
  obtain ⟨first, tail, hcons, -⟩ := encodes_cons h
  obtain ⟨fuel, rfl⟩ : ∃ f, fuel = f + 1 := ⟨fuel - 1, by rw [hcons, List.length_cons] at hfuel; omega⟩
  cases h with
  | uint hn =>
    rw [Cbor.uint, decodeItem_head (by decide) hn]
    rfl
  | nint hpos hn =>
    rw [negativeInt_eq hpos hn, decodeItem_head (by decide) (Nat.lt_of_le_of_lt (Nat.sub_le _ _) hn)]
    exact nint_of_head hpos rest
  | bytes hlength =>
    rw [Cbor.byteString, List.append_assoc, decodeItem_head (by decide) hlength]
    exact bytes_of_head _ rest
  | text hlength =>
    rw [Cbor.textString, List.append_assoc, decodeItem_head (by decide) hlength]
    exact text_of_head _ rest
  | bool b => cases b <;> rfl
  | map hall =>
    rw [Cbor.openMap, List.length_cons, List.length_append, List.length_singleton] at hfuel
    rw [Cbor.openMap, List.cons_append, List.append_assoc, List.singleton_append]
    exact map_of_entries (decodeEntries_encodes hall (by omega) rest)

theorem decodeEntries_encodes {entries : List (CborItem × CborItem)} {b : Bytes} (h : EncodesAll entries b) {fuel : Nat}
    (hfuel : b.length < fuel) (rest : Bytes) : decodeEntries fuel (b ++ 0xff :: rest) = some (entries, rest) := by
  obtain ⟨fuel, rfl⟩ : ∃ f, fuel = f + 1 := ⟨fuel - 1, by omega⟩
  cases h with
  | nil => simp [decodeEntries]
  | @cons key value entries k v b hkey hvalue hall =>
    obtain ⟨first, tail, hcons, hfirst⟩ := encodes_cons hkey
    obtain ⟨first', tail', hcons', -⟩ := encodes_cons hvalue
    have hk : 0 < k.length := by simp [hcons]
    have hv : 0 < v.length := by simp [hcons']
    simp only [List.length_append] at hfuel
    have hfirstItem : decodeItem fuel (k ++ (v ++ (b ++ 0xff :: rest))) = _ := decodeItem_encodes hkey (by omega) _
    have hsecondItem : decodeItem fuel (v ++ (b ++ 0xff :: rest)) = _ := decodeItem_encodes hvalue (by omega) _
    have hrest : decodeEntries fuel (b ++ 0xff :: rest) = _ := decodeEntries_encodes hall (by omega) rest
    rw [List.append_assoc, List.append_assoc]
    rw [hcons, List.cons_append] at hfirstItem ⊢
    simp only [decodeEntries, if_neg hfirst, hfirstItem, hsecondItem, hrest, Option.map_some]

end

end PlainCbor

/-- The plain SDK with a decoder for what the device writes. -/
@[reducible] def cborSdk : Sdk := { plainSdk with cborDecode := PlainCbor.decode }

theorem cborSdk_reads : @CborReads cborSdk := by
  intro item b rest h
  have hread : PlainCbor.decodeItem (b ++ rest).length (b ++ rest) = some (item, rest) :=
    PlainCbor.decodeItem_encodes h (by simp) rest
  show PlainCbor.decode (b ++ rest) = .ok item
  rw [PlainCbor.decode, hread]

/-! ### Maps of given size -/

namespace PlainCbor

def decodeCounted : (fuel n : Nat) → Bytes → Option (List (CborItem × CborItem) × Bytes)
  | _, 0, b => some ([], b)
  | fuel, n + 1, b => match decodeItem fuel b with
    | none => none
    | some (key, rest) => match decodeItem fuel rest with
      | none => none
      | some (value, rest) => (decodeCounted fuel n rest).map fun found => ((key, value) :: found.1, found.2)

/-- A map of given size is read entry by entry, any other item as before. -/
def decodeMaps (b : Bytes) : Except Nat CborItem :=
  match decodeHead b with
  | some (5, n, rest) => match decodeCounted rest.length n rest with
    | some (entries, _) => .ok (.map entries)
    | none => .error 1
  | _ => decode b

theorem decodeCounted_encodes {entries : List (CborItem × CborItem)} {b : Bytes} (h : EncodesAll entries b) {fuel : Nat}
    (hfuel : b.length ≤ fuel) (rest : Bytes) : decodeCounted fuel entries.length (b ++ rest) = some (entries, rest) := by
  induction entries generalizing b with
  | nil =>
    cases h
    rfl
  | cons entry entries ih =>
    cases h with
    | @cons key value _ k v b' hkey hvalue hall =>
      simp only [List.length_append] at hfuel
      have hfirst : decodeItem fuel (k ++ (v ++ (b' ++ rest))) = _ := decodeItem_encodes hkey (by omega) _
      have hsecond : decodeItem fuel (v ++ (b' ++ rest)) = _ := decodeItem_encodes hvalue (by omega) _
      rw [List.append_assoc, List.append_assoc, List.length_cons]
      simp only [decodeCounted, hfirst, hsecond, ih hall (by omega), Option.map_some]

/-- An item that is no map of given size has another head, or none. -/
private theorem decodeHead_encodes {item : CborItem} {b : Bytes} (h : Encodes item b) (rest : Bytes) {n : Nat} {tail : Bytes} :
    decodeHead (b ++ rest) ≠ some (5, n, tail) := by
  have hhead (major : UInt8) (hmajor : major.toNat < 4) (m : Nat) (hm : m < 2 ^ 64) (rest : Bytes) :
      decodeHead (Cbor.head major m ++ rest) ≠ some (5, n, tail) := by
    rw [decodeHead_head (by omega) hm]
    intro hsame
    have hfive := congrArg Prod.fst (Option.some.inj hsame)
    dsimp only at hfive
    omega
  cases h with
  | uint hn => exact hhead 0 (by decide) _ hn rest
  | nint hpos hn => exact hhead 1 (by decide) _ (Nat.mod_lt _ (by decide)) rest
  | bytes hlength =>
    rw [Cbor.byteString, List.append_assoc]
    exact hhead 2 (by decide) _ hlength _
  | text hlength =>
    rw [Cbor.textString, List.append_assoc]
    exact hhead 3 (by decide) _ hlength _
  | bool b => cases b <;> simp [Cbor.boolean, decodeHead]
  | map hall => simp [Cbor.openMap, decodeHead]

end PlainCbor

/-- The plain SDK with a decoder for maps of either kind. -/
@[reducible] def mapSdk : Sdk := { plainSdk with cborDecode := PlainCbor.decodeMaps }

theorem mapSdk_maps : @MapReads mapSdk := by
  intro entries b rest hsize h
  show PlainCbor.decodeMaps (Cbor.map entries.length ++ b ++ rest) = .ok (.map entries)
  rw [PlainCbor.decodeMaps, Cbor.map, List.append_assoc, PlainCbor.decodeHead_head (by decide) hsize]
  simp only [show (5 : UInt8).toNat = 5 from rfl, PlainCbor.decodeCounted_encodes h (by simp : b.length ≤ (b ++ rest).length)]

theorem mapSdk_reads : @CborReads mapSdk := by
  intro item b rest h
  show PlainCbor.decodeMaps (b ++ rest) = .ok item
  unfold PlainCbor.decodeMaps
  split
  · next hhead => exact absurd hhead (PlainCbor.decodeHead_encodes h rest)
  · exact cborSdk_reads rest h

end FidoTouch
