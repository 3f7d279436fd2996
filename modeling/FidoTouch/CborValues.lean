import FidoTouch.CborMaps

/-! CBOR values with containers of definite length: their bytes, a decoder that reads these back, and the canonical form that
CTAP2 asks of them. -/
namespace FidoTouch.Cbor

inductive Value where
  | uint (n : Nat)
  /-- The number `-n`. -/
  | negative (n : Nat)
  | bytes (b : Bytes)
  | text (b : Bytes)
  | bool (b : Bool)
  | array (items : List Value)
  | map (entries : List (Value × Value))

namespace Value

def ofText (s : String) : Value := .text (ascii s)

mutual

def encode : Value → Bytes
  | .uint n => Cbor.uint n
  | .negative n => negativeInt n
  | .bytes b => byteString b
  | .text b => textString b
  | .bool b => boolean b
  | .array items => Cbor.array items.length ++ encodeAll items
  | .map entries => Cbor.map entries.length ++ encodeEntries entries

def encodeAll : List Value → Bytes
  | [] => []
  | v :: vs => encode v ++ encodeAll vs

def encodeEntries : List (Value × Value) → Bytes
  | [] => []
  | e :: es => encodeEntry e ++ encodeEntries es

def encodeEntry : Value × Value → Bytes
  | (k, v) => encode k ++ encode v

end

/-! ### Values that can be written -/

mutual

/-- Every number and every length has its place in a head. -/
def Sized : Value → Prop
  | .uint n => n < 2 ^ 64
  | .negative n => 0 < n ∧ n < 2 ^ 64
  | .bytes b => b.length < 2 ^ 64
  | .text b => b.length < 2 ^ 64
  | .bool _ => True
  | .array items => items.length < 2 ^ 64 ∧ SizedAll items
  | .map entries => entries.length < 2 ^ 64 ∧ SizedEntries entries

def SizedAll : List Value → Prop
  | [] => True
  | v :: vs => Sized v ∧ SizedAll vs

def SizedEntries : List (Value × Value) → Prop
  | [] => True
  | e :: es => SizedEntry e ∧ SizedEntries es

def SizedEntry : Value × Value → Prop
  | (k, v) => Sized k ∧ Sized v

end

theorem sizedAll_iff {vs : List Value} : SizedAll vs ↔ ∀ v ∈ vs, v.Sized := by
  induction vs with
  | nil => simp [SizedAll]
  | cons v vs ih => rw [SizedAll, ih, List.forall_mem_cons]

theorem sizedEntries_iff {es : List (Value × Value)} : SizedEntries es ↔ ∀ e ∈ es, e.1.Sized ∧ e.2.Sized := by
  induction es with
  | nil => simp [SizedEntries]
  | cons e es ih => rw [SizedEntries, ih, List.forall_mem_cons, SizedEntry]

/-! ### The decoder -/

mutual

def decode : (fuel : Nat) → Bytes → Option (Value × Bytes)
  | 0, _ => none
  | fuel + 1, b => match PlainCbor.decodeHead b with
    | some (0, n, rest) => some (.uint n, rest)
    | some (1, n, rest) => some (.negative (n + 1), rest)
    | some (2, n, rest) => if n ≤ rest.length then some (.bytes (rest.take n), rest.drop n) else none
    | some (3, n, rest) => if n ≤ rest.length then some (.text (rest.take n), rest.drop n) else none
    | some (4, n, rest) => (decodeAll fuel n rest).map fun found => (.array found.1, found.2)
    | some (5, n, rest) => (decodeEntries fuel n rest).map fun found => (.map found.1, found.2)
    | some (7, n, rest) => if n = 20 ∨ n = 21 then some (.bool (n = 21), rest) else none
    | _ => none

def decodeAll : (fuel n : Nat) → Bytes → Option (List Value × Bytes)
  | _, 0, b => some ([], b)
  | 0, _ + 1, _ => none
  | fuel + 1, n + 1, b => do
    let (v, b) ← decode fuel b
    let (vs, b) ← decodeAll fuel n b
    return (v :: vs, b)

def decodeEntries : (fuel n : Nat) → Bytes → Option (List (Value × Value) × Bytes)
  | _, 0, b => some ([], b)
  | 0, _ + 1, _ => none
  | fuel + 1, n + 1, b => do
    let (k, b) ← decode fuel b
    let (v, b) ← decode fuel b
    let (es, b) ← decodeEntries fuel n b
    return ((k, v) :: es, b)

end

/-- A buffer that holds one value and nothing behind it. -/
def read (b : Bytes) : Option Value :=
  match decode (2 * b.length) b with
  | some (v, []) => some v
  | _ => none

private theorem head_length (major : UInt8) (n : Nat) : 0 < (head major n).length := by
  have := head_pos major n []
  rw [List.append_nil] at this
  omega

theorem encode_pos (v : Value) : 0 < v.encode.length := by
  cases v with
  | bool b => exact Nat.one_pos
  | _ =>
    rw [encode]
    first | exact head_length _ _ | exact head_pos _ _ _

private theorem negativeInt_head {n : Nat} (hpos : 0 < n) (h : n < 2 ^ 64) : negativeInt n = head 1 (n - 1) := by
  have harg : (n + 2 ^ 64 - 1) % 2 ^ 64 = n - 1 := by omega
  rw [negativeInt, harg]

mutual

/-- Twice as many steps as there are bytes are enough: each byte may open a container and end one. -/
theorem decode_encode (v : Value) (h : v.Sized) {fuel : Nat} (hfuel : 2 * v.encode.length ≤ fuel) (rest : Bytes) :
    decode fuel (v.encode ++ rest) = some (v, rest) := by
  obtain ⟨fuel, rfl⟩ : ∃ f, fuel = f + 1 := ⟨fuel - 1, by have := encode_pos v; omega⟩
  cases v with
  | uint n =>
    rw [decode, encode, Cbor.uint, PlainCbor.decodeHead_head (by decide) h]
    rfl
  | negative n =>
    obtain ⟨hpos, hn⟩ := h
    rw [decode, encode, negativeInt_head hpos hn, PlainCbor.decodeHead_head (by decide) (by omega)]
    simp only [show (1 : UInt8).toNat = 1 from rfl, Nat.sub_add_cancel hpos]
  | bytes b =>
    rw [decode, encode, byteString, List.append_assoc, PlainCbor.decodeHead_head (by decide) h]
    simp only [show (2 : UInt8).toNat = 2 from rfl, List.length_append, Nat.le_add_right, if_true, List.take_left' rfl, List.drop_left' rfl]
  | text b =>
    rw [decode, encode, textString, List.append_assoc, PlainCbor.decodeHead_head (by decide) h]
    simp only [show (3 : UInt8).toNat = 3 from rfl, List.length_append, Nat.le_add_right, if_true, List.take_left' rfl, List.drop_left' rfl]
  | bool b => cases b <;> rfl
  | array items =>
    obtain ⟨hcount, hitems⟩ := h
    have hhead := head_length 4 items.length
    rw [encode, List.length_append, Cbor.array] at hfuel
    rw [decode, encode, Cbor.array, List.append_assoc, PlainCbor.decodeHead_head (by decide) hcount]
    simp only [show (4 : UInt8).toNat = 4 from rfl, decodeAll_encode items hitems (show 2 * (encodeAll items).length < fuel by omega) rest,
      Option.map_some]
  | map entries =>
    obtain ⟨hcount, hentries⟩ := h
    have hhead := head_length 5 entries.length
    rw [encode, List.length_append, Cbor.map] at hfuel
    rw [decode, encode, Cbor.map, List.append_assoc, PlainCbor.decodeHead_head (by decide) hcount]
    simp only [show (5 : UInt8).toNat = 5 from rfl,
      decodeEntries_encode entries hentries (show 2 * (encodeEntries entries).length < fuel by omega) rest, Option.map_some]

theorem decodeAll_encode (vs : List Value) (h : SizedAll vs) {fuel : Nat} (hfuel : 2 * (encodeAll vs).length < fuel) (rest : Bytes) :
    decodeAll fuel vs.length (encodeAll vs ++ rest) = some (vs, rest) := by
  obtain ⟨fuel, rfl⟩ : ∃ f, fuel = f + 1 := ⟨fuel - 1, by omega⟩
  cases vs with
  | nil => rfl
  | cons v vs =>
    obtain ⟨hv, hvs⟩ := h
    have hpos := encode_pos v
    rw [encodeAll, List.length_append] at hfuel
    rw [encodeAll, List.append_assoc, List.length_cons, decodeAll, decode_encode v hv (by omega), Option.bind_eq_bind, Option.bind_some]
    simp only [decodeAll_encode vs hvs (show 2 * (encodeAll vs).length < fuel by omega) rest, Option.bind_eq_bind, Option.bind_some]
    rfl

theorem decodeEntries_encode (es : List (Value × Value)) (h : SizedEntries es) {fuel : Nat} (hfuel : 2 * (encodeEntries es).length < fuel)
    (rest : Bytes) : decodeEntries fuel es.length (encodeEntries es ++ rest) = some (es, rest) := by
  obtain ⟨fuel, rfl⟩ : ∃ f, fuel = f + 1 := ⟨fuel - 1, by omega⟩
  match es, h, hfuel with
  | [], _, _ => rfl
  | (k, v) :: es, ⟨⟨hk, hv⟩, hes⟩, hfuel =>
    have hpos := encode_pos k
    rw [encodeEntries, encodeEntry, List.length_append, List.length_append] at hfuel
    rw [encodeEntries, encodeEntry, List.append_assoc, List.append_assoc, List.length_cons, decodeEntries, decode_encode k hk (by omega),
      Option.bind_eq_bind, Option.bind_some]
    simp only [decode_encode v hv (show 2 * v.encode.length ≤ fuel by omega),
      decodeEntries_encode es hes (show 2 * (encodeEntries es).length < fuel by omega) rest, Option.bind_eq_bind, Option.bind_some]
    rfl

end

/-- What is written is read back as the same value. -/
theorem read_encode {v : Value} (h : v.Sized) : read v.encode = some v := by
  have hdecode := decode_encode v h (le_refl _) []
  rw [List.append_nil] at hdecode
  rw [read, hdecode]

/-! ### The canonical form -/

/-- The order of keys: a lower major type, then fewer bytes, then the lower bytes come first. -/
def KeyBefore (k k' : Value) : Prop :=
  let major (b : Bytes) : Nat := (byteAt b 0).toNat / 32
  major k.encode < major k'.encode ∨ major k.encode = major k'.encode ∧
    (k.encode.length < k'.encode.length ∨ k.encode.length = k'.encode.length ∧ k.encode < k'.encode)

instance (k k' : Value) : Decidable (KeyBefore k k') := by
  unfold KeyBefore
  infer_instance

mutual

/-- The keys of every map ascend, so that none stands twice. Heads are always written in their shortest form. -/
def Canonical : Value → Prop
  | .array items => CanonicalAll items
  | .map entries => (entries.map Prod.fst).Pairwise KeyBefore ∧ CanonicalEntries entries
  | _ => True

def CanonicalAll : List Value → Prop
  | [] => True
  | v :: vs => Canonical v ∧ CanonicalAll vs

def CanonicalEntries : List (Value × Value) → Prop
  | [] => True
  | e :: es => CanonicalEntry e ∧ CanonicalEntries es

def CanonicalEntry : Value × Value → Prop
  | (k, v) => Canonical k ∧ Canonical v

end

theorem canonicalAll_iff {vs : List Value} : CanonicalAll vs ↔ ∀ v ∈ vs, v.Canonical := by
  induction vs with
  | nil => simp [CanonicalAll]
  | cons v vs ih => rw [CanonicalAll, ih, List.forall_mem_cons]

theorem canonicalEntries_iff {es : List (Value × Value)} : CanonicalEntries es ↔ ∀ e ∈ es, e.1.Canonical ∧ e.2.Canonical := by
  induction es with
  | nil => simp [CanonicalEntries]
  | cons e es ih => rw [CanonicalEntries, ih, List.forall_mem_cons, CanonicalEntry]

/-- What a map holds under a key. -/
def get : Value → (k : Value) → Option Value
  | .map entries, k => (entries.find? fun e => e.1.encode = k.encode).map Prod.snd
  | _, _ => none

theorem KeyBefore.encode_ne {k k' : Value} (h : KeyBefore k k') : k.encode ≠ k'.encode := by
  intro heq
  rw [KeyBefore, heq] at h
  rcases h with h | ⟨-, h | ⟨-, h⟩⟩
  · exact lt_irrefl _ h
  · exact lt_irrefl _ h
  · exact List.lt_irrefl _ h

/-- No key stands twice, so every entry is found under its own. -/
theorem get_of_mem {entries : List (Value × Value)} (hcanonical : (Value.map entries).Canonical) {k v : Value} (h : (k, v) ∈ entries) :
    (Value.map entries).get k = some v := by
  obtain ⟨hkeys, -⟩ := hcanonical
  rw [get]
  induction entries with
  | nil => cases h
  | cons e entries ih =>
    rw [List.map_cons, List.pairwise_cons] at hkeys
    rcases List.mem_cons.1 h with rfl | h
    · rw [List.find?_cons_of_pos (by simp)]
      rfl
    · have hne : e.1.encode ≠ k.encode := (hkeys.1 k (List.mem_map_of_mem h)).encode_ne
      rw [List.find?_cons_of_neg (by simpa using hne), ih h hkeys.2]

theorem get_absent {entries : List (Value × Value)} {k : Value} (h : ∀ e ∈ entries, e.1.encode ≠ k.encode) :
    (Value.map entries).get k = none := by
  rw [get, List.find?_eq_none.2 fun e he => by simpa using h e he]
  rfl

end Value
end FidoTouch.Cbor
