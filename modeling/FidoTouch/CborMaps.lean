import FidoTouch.CborItems

/-! Looking a key up in a map of given size, as a platform does in the extension outputs of an answer or in a COSE key. -/
namespace FidoTouch

namespace Cbor

theorem head_pos (major : UInt8) (n : Nat) (b : Bytes) : 1 ≤ (head major n ++ b).length := by
  rw [List.length_append]
  unfold head
  split_ifs <;> simp only [List.length_cons] <;> omega

/-! ### Skipping items -/

/-- How many items stand inside an item of a major type with this argument. -/
def inside (major n : Nat) : Nat := if major = 4 then n else if major = 5 then 2 * n else if major = 6 then 1 else 0

/-- What stands behind the next `count` items; `fuel` bounds the heads that are read. -/
def skipItems : (fuel count : Nat) → Bytes → Option Bytes
  | _, 0, b => some b
  | 0, _ + 1, _ => none
  | fuel + 1, count + 1, b => match PlainCbor.decodeHead b with
    | none => none
    | some (major, n, rest) =>
      if major = 2 ∨ major = 3 then if n ≤ rest.length then skipItems fuel count (rest.drop n) else none
      else skipItems fuel (count + inside major n) rest

/-- The bytes are `items` items with `heads` heads, their contents included. -/
def Skips (b : Bytes) (items heads : Nat) : Prop :=
  ∀ fuel count rest, skipItems (fuel + heads) (count + items) (b ++ rest) = skipItems fuel count rest

namespace Skips
variable {b b' : Bytes} {items items' heads heads' n : Nat}

theorem append (h : Skips b items heads) (h' : Skips b' items' heads') : Skips (b ++ b') (items + items') (heads + heads') := by
  intro fuel count rest
  rw [List.append_assoc, show fuel + (heads + heads') = fuel + heads' + heads by omega,
    show count + (items + items') = count + items' + items by omega, h, h']

/-- An item that is its head alone, or the head of a container, which asks for what stands inside. -/
theorem head_inside {major : UInt8} (hmajor : major.toNat < 7) (hstring : ¬ (major.toNat = 2 ∨ major.toNat = 3)) (hn : n < 2 ^ 64)
    (fuel count : Nat) (rest : Bytes) :
    skipItems (fuel + 1) (count + 1) (head major n ++ rest) = skipItems fuel (count + inside major.toNat n) rest := by
  rw [skipItems, PlainCbor.decodeHead_head hmajor hn]
  simp only [if_neg hstring]

theorem uint (hn : n < 2 ^ 64) : Skips (uint n) 1 1 := fun _ _ _ => head_inside (by decide) (by decide) hn _ _ _

theorem negativeInt (n : Nat) : Skips (negativeInt n) 1 1 := fun _ _ _ =>
  head_inside (by decide) (by decide) (Nat.mod_lt _ (by decide)) _ _ _

theorem array (hn : n < 2 ^ 64) (h : Skips b n heads) : Skips (array n ++ b) 1 (heads + 1) := by
  intro fuel count rest
  rw [List.append_assoc, ← Nat.add_assoc, Cbor.array, head_inside (by decide) (by decide) hn]
  exact h fuel count rest

private theorem string {major : UInt8} (hmajor : major.toNat = 2 ∨ major.toNat = 3) (hb : b.length < 2 ^ 64) :
    Skips (head major b.length ++ b) 1 1 := by
  intro fuel count rest
  rw [List.append_assoc, skipItems, PlainCbor.decodeHead_head (by omega) hb]
  simp only [if_pos hmajor, List.length_append, Nat.le_add_right, if_true, List.drop_left' rfl]

theorem byteString (hb : b.length < 2 ^ 64) : Skips (byteString b) 1 1 := string (.inl rfl) hb

theorem textString (hb : b.length < 2 ^ 64) : Skips (textString b) 1 1 := string (.inr rfl) hb

theorem boolean (v : Bool) : Skips (boolean v) 1 1 := by
  intro fuel count rest
  cases v <;> rfl

/-- As many steps as there are bytes are enough. -/
theorem skip (h : Skips b items heads) (hheads : heads ≤ b.length) (rest : Bytes) :
    skipItems (b ++ rest).length items (b ++ rest) = some rest := by
  have hskip := h ((b ++ rest).length - heads) 0 rest
  rw [Nat.sub_add_cancel (by rw [List.length_append]; omega), Nat.zero_add] at hskip
  rw [hskip]
  cases (b ++ rest).length - heads <;> rfl

end Skips

/-! ### Maps -/

/-- The value of a key in the next `n` entries. -/
def valueOf (key : Bytes) : (n : Nat) → Bytes → Option Bytes
  | 0, _ => none
  | n + 1, b => do
    let value ← skipItems b.length 1 b
    let rest ← skipItems value.length 1 value
    if b.take (b.length - value.length) = key then some (value.take (value.length - rest.length)) else valueOf key n rest

/-- The value that a map has for a key, given by its bytes. -/
def mapValue (key b : Bytes) : Option Bytes :=
  match PlainCbor.decodeHead b with
  | some (5, n, entries) => valueOf key n entries
  | _ => none

/-- The value that a map has for a text key. -/
def entryOf (key : String) (b : Bytes) : Option Bytes := mapValue (text key) b

section
variable {key key' value rest : Bytes} {heads heads' n : Nat}

private theorem take_front (b rest : Bytes) : (b ++ rest).take ((b ++ rest).length - rest.length) = b := by
  rw [List.length_append, Nat.add_sub_cancel, List.take_left' rfl]

theorem valueOf_cons (hkey : Skips key' 1 heads) (hheads : heads ≤ key'.length) (hvalue : Skips value 1 heads')
    (hheads' : heads' ≤ value.length) : valueOf key (n + 1) (key' ++ (value ++ rest)) = if key' = key then some value else valueOf key n rest := by
  simp only [valueOf, hkey.skip hheads, hvalue.skip hheads', Option.bind_eq_bind, Option.bind_some, take_front]

theorem mapValue_map (hn : n < 2 ^ 64) (entries : Bytes) : mapValue key (map n ++ entries) = valueOf key n entries := by
  rw [mapValue, map, PlainCbor.decodeHead_head (by decide) hn]
  rfl

end
end Cbor
end FidoTouch
