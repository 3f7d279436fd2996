import Mathlib.Data.List.Basic

/-! Sequences of elements with a tag, a length in one to three bytes and a value: how they are written, where the values
lie, and a reader of them. -/
namespace FidoTouch.Tlv

/-! ### Lengths and tags -/

/-- A length stands for itself, or follows a byte that tells in how many bytes it is written. -/
inductive Form where
  | one | two | three
  deriving DecidableEq, Repr

namespace Form

def Fits : Form → Nat → Prop
  | one, n => n < 128
  | two, n => n < 256
  | three, n => n < 65536

instance (f : Form) (n : Nat) : Decidable (f.Fits n) := by
  cases f <;> exact inferInstanceAs (Decidable (_ < _))

def bytes : Form → Nat → List UInt8
  | one, n => [UInt8.ofNat n]
  | two, n => [0x81, UInt8.ofNat n]
  | three, n => [0x82, UInt8.ofNat (n / 256), UInt8.ofNat n]

/-- The form a writer takes. -/
def least (n : Nat) : Form := if n < 128 then one else if n < 256 then two else three

theorem Fits.lt {f : Form} {n : Nat} (h : f.Fits n) : n < 65536 := by
  cases f <;> simp only [Fits] at h <;> omega

theorem least_fits {n : Nat} (h : n < 65536) : (least n).Fits n := by
  unfold least
  split
  · assumption
  · split
    · assumption
    · exact h

/-- No form that a length fits is shorter. -/
theorem least_le {f : Form} {n : Nat} (h : f.Fits n) (m : Nat) : ((least n).bytes n).length ≤ (f.bytes m).length := by
  unfold least
  cases f <;> simp only [Fits] at h
  · simp [h, bytes]
  · split <;> simp [bytes]
  · split
    · simp [bytes]
    · split <;> simp [bytes]

/-- The last byte of a length, replaced. -/
def patched (f : Form) (n : Nat) (b : UInt8) : List UInt8 := (f.bytes n).dropLast ++ [b]

theorem bytes_ne_nil (f : Form) (n : Nat) : f.bytes n ≠ [] := by cases f <;> simp [bytes]

/-- The patched length is another one in the same form, as long as what comes before its last byte agrees. -/
theorem patched_eq {f : Form} {n m : Nat} (h : f = three → m / 256 = n / 256) : f.patched n (UInt8.ofNat m) = f.bytes m := by
  cases f
  · rfl
  · rfl
  · simp [patched, bytes, h rfl]

theorem ofNat_toNat {n : Nat} (h : n < 256) : (UInt8.ofNat n).toNat = n := by simp; omega

private theorem ofNat_inj {n m : Nat} (hn : n < 256) (hm : m < 256) (h : UInt8.ofNat n = UInt8.ofNat m) : n = m := by
  rw [← ofNat_toNat hn, h, ofNat_toNat hm]

private theorem ofNat_ne {n m : Nat} (hn : n < 128) (hm : 128 ≤ m) (hm' : m < 256) : UInt8.ofNat n ≠ UInt8.ofNat m := by
  intro h
  have heq := ofNat_inj (by omega) hm' h
  omega

/-- A length written before anything else can be read in one way only. -/
theorem bytes_prefix {f g : Form} {n m : Nat} (hf : f.Fits n) (hg : g.Fits m) {x y : List UInt8}
    (h : f.bytes n ++ x = g.bytes m ++ y) : f = g ∧ n = m ∧ x = y := by
  cases f <;> cases g <;> simp only [Fits] at hf hg <;>
    simp only [bytes, List.cons_append, List.nil_append, List.cons.injEq] at h
  case one.one => exact ⟨rfl, ofNat_inj (by omega) (by omega) h.1, h.2⟩
  case one.two => exact absurd h.1 (ofNat_ne (m := 0x81) hf (by omega) (by omega))
  case one.three => exact absurd h.1 (ofNat_ne (m := 0x82) hf (by omega) (by omega))
  case two.one => exact absurd h.1.symm (ofNat_ne (m := 0x81) hg (by omega) (by omega))
  case two.two => exact ⟨rfl, ofNat_inj hf hg h.2.1, h.2.2⟩
  case two.three => exact absurd h.1 (by decide)
  case three.one => exact absurd h.1.symm (ofNat_ne (m := 0x82) hg (by omega) (by omega))
  case three.two => exact absurd h.1 (by decide)
  case three.three =>
    have hhigh := ofNat_inj (by omega) (by omega) h.2.1
    have hlow := congrArg UInt8.toNat h.2.2.1
    simp only [UInt8.toNat_ofNat'] at hlow
    exact ⟨rfl, by omega, h.2.2.2⟩

end Form

/-- A tag takes one byte, or two where the low five bits of the first are all set. -/
def TagOk (tag : Nat) : Prop := tag < 256 ∧ tag % 32 ≠ 31 ∨ 256 ≤ tag ∧ tag < 65536 ∧ tag / 256 % 32 = 31

instance (tag : Nat) : Decidable (TagOk tag) := inferInstanceAs (Decidable (_ ∨ _))

def tagBytes (tag : Nat) : List UInt8 := (if tag > 0xff then [UInt8.ofNat (tag / 256)] else []) ++ [UInt8.ofNat tag]

theorem tagBytes_prefix {t u : Nat} (ht : TagOk t) (hu : TagOk u) {x y : List UInt8}
    (h : tagBytes t ++ x = tagBytes u ++ y) : t = u ∧ x = y := by
  unfold tagBytes at h
  rcases ht with ⟨ht, ht'⟩ | ⟨ht, ht', ht''⟩ <;> rcases hu with ⟨hu, hu'⟩ | ⟨hu, hu', hu''⟩
  · rw [if_neg (by omega), if_neg (by omega)] at h
    simp only [List.cons_append, List.nil_append, List.cons.injEq] at h
    exact ⟨Form.ofNat_inj ht hu h.1, h.2⟩
  · rw [if_neg (by omega), if_pos (by omega)] at h
    simp only [List.cons_append, List.nil_append, List.cons.injEq] at h
    have := Form.ofNat_inj ht (by omega) h.1
    omega
  · rw [if_pos (by omega), if_neg (by omega)] at h
    simp only [List.cons_append, List.nil_append, List.cons.injEq] at h
    have := Form.ofNat_inj (by omega) hu h.1
    omega
  · rw [if_pos (by omega), if_pos (by omega)] at h
    simp only [List.cons_append, List.nil_append, List.cons.injEq] at h
    have hhigh := Form.ofNat_inj (by omega) (by omega) h.1
    have hlow := congrArg UInt8.toNat h.2.1
    simp only [UInt8.toNat_ofNat'] at hlow
    exact ⟨by omega, h.2.2⟩

/-! ### Elements -/

/-- An element as it is written, its length in one of the forms that hold it. -/
structure Item where
  tag : Nat
  form : Form
  value : List UInt8
  tagOk : TagOk tag
  fits : form.Fits value.length

def Item.head (i : Item) : List UInt8 := tagBytes i.tag ++ i.form.bytes i.value.length

def Item.bytes (i : Item) : List UInt8 := i.head ++ i.value

/-- What a reader sees of an element. -/
def Item.element (i : Item) : Nat × List UInt8 := (i.tag, i.value)

/-- The same tag with a new value, in the shortest form. -/
def Item.rewrite (i : Item) (value : List UInt8) (h : value.length < 65536) : Item :=
  ⟨i.tag, Form.least value.length, value, i.tagOk, Form.least_fits h⟩

/-- The same tag and form with a new value. -/
def Item.withValue (i : Item) (value : List UInt8) (h : i.form.Fits value.length) : Item := ⟨i.tag, i.form, value, i.tagOk, h⟩

theorem Item.withValue_head {i : Item} {value : List UInt8} (h : i.form.Fits value.length) (hsame : value.length = i.value.length) :
    (i.withValue value h).head = i.head := by
  simp only [Item.head, Item.withValue, hsame]

def encode (items : List Item) : List UInt8 := items.flatMap Item.bytes

@[simp] theorem encode_nil : encode [] = [] := rfl
@[simp] theorem encode_cons (i : Item) (is : List Item) : encode (i :: is) = i.bytes ++ encode is := rfl
@[simp] theorem encode_append (is js : List Item) : encode (is ++ js) = encode is ++ encode js := by simp [encode]

theorem Item.bytes_prefix {i j : Item} {x y : List UInt8} (h : i.bytes ++ x = j.bytes ++ y) : i = j ∧ x = y := by
  obtain ⟨t, f, v, ht, hf⟩ := i
  obtain ⟨u, g, w, hu, hg⟩ := j
  simp only [Item.bytes, Item.head, List.append_assoc] at h
  obtain ⟨rfl, hrest⟩ := tagBytes_prefix ht hu h
  obtain ⟨rfl, hlength, hvalue⟩ := Form.bytes_prefix hf hg hrest
  obtain ⟨rfl, rfl⟩ := List.append_inj hvalue hlength
  exact ⟨rfl, rfl⟩

theorem Item.two_le (i : Item) : 2 ≤ i.bytes.length := by
  obtain ⟨t, f, v, ht, hf⟩ := i
  have htag : 1 ≤ (tagBytes t).length := by simp [tagBytes]
  have hform : 1 ≤ (f.bytes v.length).length := List.length_pos_iff.mpr (f.bytes_ne_nil _)
  simp only [Item.bytes, Item.head, List.length_append]
  omega

/-! ### Fields -/

/-- The first element with a tag: where its value starts when the elements start at an offset, and the value. -/
def fieldFrom (tag : Nat) : Nat → List Item → Option (Nat × List UInt8)
  | _, [] => none
  | offset, i :: is => if i.tag = tag then some (offset + i.head.length, i.value) else fieldFrom tag (offset + i.bytes.length) is

def fieldOf (tag : Nat) (items : List Item) : Option (Nat × List UInt8) := fieldFrom tag 0 items

def valueOf (tag : Nat) (items : List Item) : Option (List UInt8) := (items.find? fun i => i.tag = tag).map Item.value

theorem fieldFrom_value (tag offset : Nat) (items : List Item) : (fieldFrom tag offset items).map Prod.snd = valueOf tag items := by
  induction items generalizing offset with
  | nil => rfl
  | cons i is ih =>
    by_cases h : i.tag = tag
    · simp [fieldFrom, valueOf, h]
    · simp only [fieldFrom, if_neg h, ih, valueOf, List.find?_cons, decide_eq_false h]

/-- The elements around the first one with a tag. -/
structure Around (tag : Nat) (items : List Item) (before : List Item) (i : Item) (after : List Item) : Prop where
  split : items = before ++ i :: after
  first : ∀ j ∈ before, j.tag ≠ tag
  tagged : i.tag = tag

theorem fieldFrom_around {tag offset : Nat} {items : List Item} {o : Nat} {v : List UInt8} (h : fieldFrom tag offset items = some (o, v)) :
    ∃ before i after, Around tag items before i after ∧ o = offset + (encode before ++ i.head).length ∧ v = i.value := by
  induction items generalizing offset with
  | nil => cases h
  | cons i is ih =>
    by_cases htag : i.tag = tag
    · rw [fieldFrom, if_pos htag, Option.some.injEq, Prod.mk.injEq] at h
      exact ⟨[], i, is, ⟨rfl, by simp, htag⟩, by simpa using h.1.symm, h.2.symm⟩
    · rw [fieldFrom, if_neg htag] at h
      obtain ⟨before, j, after, haround, ho, hv⟩ := ih h
      refine ⟨i :: before, j, after, ⟨by rw [haround.split]; rfl, ?_, haround.tagged⟩, ?_, hv⟩
      · intro k hk
        rcases List.mem_cons.mp hk with rfl | hk
        · exact htag
        · exact haround.first k hk
      · simp only [ho, encode_cons, List.length_append]
        omega

theorem fieldOf_around {tag : Nat} {items : List Item} {o : Nat} {v : List UInt8} (h : fieldOf tag items = some (o, v)) :
    ∃ before i after, Around tag items before i after ∧ o = (encode before ++ i.head).length ∧ v = i.value := by
  obtain ⟨before, i, after, haround, ho, hv⟩ := fieldFrom_around h
  exact ⟨before, i, after, haround, by simpa using ho, hv⟩

private theorem fieldFrom_first {tag : Nat} {before after : List Item} {i : Item} (hfirst : ∀ j ∈ before, j.tag ≠ tag)
    (htag : i.tag = tag) (offset : Nat) :
    fieldFrom tag offset (before ++ i :: after) = some (offset + (encode before ++ i.head).length, i.value) := by
  induction before generalizing offset with
  | nil => simp [fieldFrom, htag]
  | cons j before ih =>
    rw [List.cons_append, fieldFrom, if_neg (hfirst j (by simp)), ih fun k hk => hfirst k (by simp [hk])]
    simp only [encode_cons, List.length_append, Option.some.injEq, Prod.mk.injEq, and_true]
    omega

theorem Around.field {tag : Nat} {items before after : List Item} {i : Item} (h : Around tag items before i after) :
    fieldOf tag items = some ((encode before ++ i.head).length, i.value) := by
  rw [h.split, fieldOf, fieldFrom_first h.first h.tagged]
  simp

/-- Another element in its place is the first one with its tag. -/
theorem Around.replace {tag : Nat} {items before after : List Item} {i j : Item} (h : Around tag items before i after)
    (hj : j.tag = tag) : Around tag (before ++ j :: after) before j after :=
  ⟨rfl, h.first, hj⟩

/-- Other tags do not see the replacement. -/
theorem Around.valueOf_ne {tag tag' : Nat} {items before after : List Item} {i j : Item} (h : Around tag items before i after)
    (hj : j.tag = tag) (hne : tag' ≠ tag) : valueOf tag' (before ++ j :: after) = valueOf tag' items := by
  have hi : i.tag ≠ tag' := fun heq => hne (heq.symm.trans h.tagged)
  have hj' : j.tag ≠ tag' := fun heq => hne (heq.symm.trans hj)
  rw [h.split]
  simp [valueOf, List.find?_append, hi, hj']

theorem Around.valueOf_eq {tag : Nat} {items before after : List Item} {i j : Item} (h : Around tag items before i after)
    (hj : j.tag = tag) : valueOf tag (before ++ j :: after) = some j.value := by
  rw [← fieldFrom_value tag 0, ← fieldOf, (h.replace hj).field]
  rfl

/-- The first value with a tag replaced, in what a reader sees. -/
def setFirst (tag : Nat) (value : List UInt8) : List (Nat × List UInt8) → List (Nat × List UInt8)
  | [] => []
  | e :: es => if e.1 = tag then (tag, value) :: es else e :: setFirst tag value es

theorem Around.setFirst {tag : Nat} {items before after : List Item} {i : Item} (h : Around tag items before i after) (value : List UInt8) :
    setFirst tag value (items.map Item.element) = before.map Item.element ++ (tag, value) :: after.map Item.element := by
  obtain ⟨rfl, hfirst, htag⟩ := h
  induction before with
  | nil => simp [Tlv.setFirst, Item.element, htag]
  | cons j before ih =>
    have hj : j.element.1 ≠ tag := hfirst j (by simp)
    rw [List.cons_append, List.map_cons, Tlv.setFirst, if_neg hj, ih fun k hk => hfirst k (by simp [hk])]
    rfl

/-! ### Splices at a field -/

section
variable {tag : Nat} {items before after : List Item} {i : Item} {o : Nat} (tail : List UInt8)

private theorem split_bytes (h : Around tag items before i after) :
    encode items ++ tail = (encode before ++ i.head) ++ (i.value ++ (encode after ++ tail)) := by
  simp [h.split, Item.bytes]

theorem Around.take (h : Around tag items before i after) :
    (encode items ++ tail).take (encode before ++ i.head).length = encode before ++ i.head := by
  rw [split_bytes tail h, List.take_left]

theorem Around.drop (h : Around tag items before i after) :
    (encode items ++ tail).drop (encode before ++ i.head).length = i.value ++ (encode after ++ tail) := by
  rw [split_bytes tail h, List.drop_left]

theorem Around.drop_value (h : Around tag items before i after) :
    (encode items ++ tail).drop ((encode before ++ i.head).length + i.value.length) = encode after ++ tail := by
  rw [← List.drop_drop, h.drop tail, List.drop_left]

end

/-- The byte before a value is the last one of its length. -/
theorem head_patch (before : List UInt8) (i : Item) (b : UInt8) :
    (before ++ i.head).set ((before ++ i.head).length - 1) b = before ++ tagBytes i.tag ++ i.form.patched i.value.length b := by
  have hne := i.form.bytes_ne_nil i.value.length
  obtain ⟨first, last, hsplit⟩ : ∃ first last, i.form.bytes i.value.length = first ++ [last] :=
    ⟨_, _, (List.dropLast_append_getLast hne).symm⟩
  simp only [Item.head, Form.patched, hsplit, List.dropLast_concat]
  rw [← List.append_assoc, ← List.append_assoc, List.length_append, List.length_singleton, Nat.add_sub_cancel,
    List.set_append_right _ _ (Nat.le_refl _), Nat.sub_self, List.append_assoc (before ++ _)]
  rfl

section
variable {tag : Nat} {items before after : List Item} {i : Item} {value : List UInt8}

/-- A new value and a new last byte of its length, which the form must hold. -/
theorem Around.splice (h : Around tag items before i after) (hfits : i.form.Fits value.length)
    (hhigh : i.form = .three → value.length / 256 = i.value.length / 256) (tail : List UInt8) :
    ((encode items ++ tail).take (encode before ++ i.head).length).set ((encode before ++ i.head).length - 1)
        (UInt8.ofNat value.length) ++ value ++ (encode items ++ tail).drop ((encode before ++ i.head).length + i.value.length) =
      encode (before ++ i.withValue value hfits :: after) ++ tail := by
  rw [h.take tail, h.drop_value tail, head_patch, Form.patched_eq hhigh]
  simp [Item.withValue, Item.bytes, Item.head]

/-- A value whose first bytes are written over. -/
theorem Around.update (h : Around tag items before i after) {n : Nat} (hn : value.length = n) (hlength : n ≤ i.value.length)
    (tail : List UInt8) :
    ∃ hfits, (encode items ++ tail).take (encode before ++ i.head).length ++ value ++
        (encode items ++ tail).drop ((encode before ++ i.head).length + n) =
      encode (before ++ i.withValue (value ++ i.value.drop n) hfits :: after) ++ tail := by
  subst hn
  have hsame : (value ++ i.value.drop value.length).length = i.value.length := by
    rw [List.length_append, List.length_drop]
    omega
  refine ⟨by rw [hsame]; exact i.fits, ?_⟩
  rw [h.take tail, ← List.drop_drop, h.drop tail, List.drop_append_of_le_length hlength, encode_append, encode_cons, Item.bytes,
    Item.withValue_head _ hsame]
  simp [Item.withValue]

end

/-! ### Shortest encodings -/

/-- Every length is in the form a writer takes. -/
def Canonical (items : List Item) : Prop := ∀ i ∈ items, i.form = Form.least i.value.length

theorem Canonical.length_le {items items' : List Item} (h : Canonical items)
    (heq : items'.map Item.element = items.map Item.element) : (encode items).length ≤ (encode items').length := by
  induction items generalizing items' with
  | nil => simp
  | cons i is ih =>
    cases items' with
    | nil => simp at heq
    | cons j js =>
      simp only [List.map_cons, List.cons.injEq, Item.element, Prod.mk.injEq] at heq
      obtain ⟨⟨htag, hvalue⟩, hrest⟩ := heq
      have hform := Form.least_le (hvalue ▸ j.fits) i.value.length
      rw [← h i (by simp)] at hform
      have hlater := ih (fun k hk => h k (by simp [hk])) hrest
      simp only [encode_cons, Item.bytes, Item.head, htag, hvalue, List.length_append]
      omega

/-- What starts with some elements starts with these elements in any reading. -/
theorem encode_prefix {before items : List Item} {x : List UInt8} (h : encode items = encode before ++ x) :
    ∃ rest, items = before ++ rest ∧ encode rest = x := by
  induction before generalizing items with
  | nil => exact ⟨items, rfl, by simpa using h⟩
  | cons i before ih =>
    cases items with
    | nil =>
      have hlength := congrArg List.length h
      have := i.two_le
      simp only [encode_nil, encode_cons, List.length_append, List.length_nil] at hlength
      omega
    | cons j items =>
      rw [encode_cons, encode_cons, List.append_assoc] at h
      obtain ⟨rfl, hrest⟩ := Item.bytes_prefix h
      obtain ⟨rest, rfl, hx'⟩ := ih hrest
      exact ⟨rest, rfl, hx'⟩

theorem encode_injective {items items' : List Item} (h : encode items' = encode items) : items' = items := by
  obtain ⟨rest, hsplit, hrest⟩ := encode_prefix (h.trans (List.append_nil _).symm)
  cases rest with
  | nil => rw [hsplit, List.append_nil]
  | cons i rest =>
    have := i.two_le
    have hlength := congrArg List.length hrest
    rw [encode_cons, List.length_append, List.length_nil] at hlength
    omega

/-! ### Readers -/

/-- A reader of such sequences reads the elements that a buffer starts with, and finds a tag among them. -/
structure Reads (walk : List UInt8 → List (Nat × List UInt8)) (find : List UInt8 → Nat → Option (Nat × List UInt8)) : Prop where
  append : ∀ items tail, walk (encode items ++ tail) = items.map Item.element ++ walk tail
  split : ∀ data, ∃ items tail, data = encode items ++ tail ∧ walk tail = []
  find : ∀ items tail tag, walk tail = [] → find (encode items ++ tail) tag = fieldOf tag items

def readTag : List UInt8 → Option (Nat × List UInt8)
  | [] => none
  | a :: rest =>
    if a.toNat % 32 = 31 then match rest with
      | [] => none
      | b :: rest => some (a.toNat * 256 + b.toNat, rest)
    else some (a.toNat, rest)

def readLength : List UInt8 → Option (Form × Nat × List UInt8)
  | [] => none
  | n :: rest =>
    if n = 0x81 then match rest with
      | [] => none
      | n :: rest => some (.two, n.toNat, rest)
    else if n = 0x82 then match rest with
      | hi :: lo :: rest => some (.three, hi.toNat * 256 + lo.toNat, rest)
      | _ => none
    else some (.one, n.toNat, rest)

def readItem (data : List UInt8) : Option (Item × List UInt8) :=
  match readTag data with
  | none => none
  | some (tag, rest) => match readLength rest with
    | none => none
    | some (form, n, rest) =>
      if h : TagOk tag ∧ form.Fits (rest.take n).length ∧ n ≤ rest.length then
        some (⟨tag, form, rest.take n, h.1, h.2.1⟩, rest.drop n)
      else none

/-- The elements that can be read, at most so many, and the rest. -/
def readItems : Nat → List UInt8 → List Item × List UInt8
  | 0, data => ([], data)
  | fuel + 1, data => match readItem data with
    | none => ([], data)
    | some (i, rest) => (i :: (readItems fuel rest).1, (readItems fuel rest).2)

def decode (data : List UInt8) : List Item := (readItems data.length data).1

def walk (data : List UInt8) : List (Nat × List UInt8) := (decode data).map Item.element

def find (data : List UInt8) (tag : Nat) : Option (Nat × List UInt8) := fieldOf tag (decode data)

private theorem readTag_bytes {tag : Nat} (h : TagOk tag) (x : List UInt8) : readTag (tagBytes tag ++ x) = some (tag, x) := by
  unfold tagBytes
  rcases h with ⟨h, h'⟩ | ⟨h, h', h''⟩
  · rw [if_neg (by omega)]
    simp only [List.nil_append, List.cons_append, readTag, Form.ofNat_toNat h, if_neg h']
  · rw [if_pos (by omega)]
    simp only [List.nil_append, List.cons_append, readTag, Form.ofNat_toNat (n := tag / 256) (by omega), if_pos h'',
      UInt8.toNat_ofNat', Option.some.injEq, Prod.mk.injEq, and_true]
    omega

private theorem readLength_bytes {form : Form} {n : Nat} (h : form.Fits n) (x : List UInt8) :
    readLength (form.bytes n ++ x) = some (form, n, x) := by
  cases form <;> simp only [Form.Fits] at h
  · have h1 : UInt8.ofNat n ≠ 0x81 := Form.ofNat_ne (m := 0x81) h (by omega) (by omega)
    have h2 : UInt8.ofNat n ≠ 0x82 := Form.ofNat_ne (m := 0x82) h (by omega) (by omega)
    simp only [Form.bytes, List.cons_append, List.nil_append, readLength, if_neg h1, if_neg h2,
      Form.ofNat_toNat (n := n) (by omega)]
  · simp only [Form.bytes, List.cons_append, List.nil_append, readLength, if_true, Form.ofNat_toNat h]
  · have hlow : n / 256 * 256 + n % 256 = n := by omega
    simp only [Form.bytes, List.cons_append, List.nil_append, readLength, if_true, if_neg (show (0x82 : UInt8) ≠ 0x81 by decide),
      Form.ofNat_toNat (n := n / 256) (by omega), UInt8.toNat_ofNat', hlow]

theorem readItem_bytes (i : Item) (x : List UInt8) : readItem (i.bytes ++ x) = some (i, x) := by
  have htake : (i.value ++ x).take i.value.length = i.value := List.take_left
  simp only [readItem, Item.bytes, Item.head, List.append_assoc, readTag_bytes i.tagOk, readLength_bytes i.fits, htake,
    List.drop_left, List.length_append]
  rw [dif_pos ⟨i.tagOk, i.fits, by omega⟩]

private theorem readTag_ok {data rest : List UInt8} {tag : Nat} (h : readTag data = some (tag, rest)) : data = tagBytes tag ++ rest := by
  cases data with
  | nil => cases h
  | cons a data =>
    have ha := a.toNat_lt
    simp only [readTag] at h
    split at h
    · next hlow =>
      cases data with
      | nil => cases h
      | cons b data =>
        obtain ⟨rfl, rfl⟩ : _ ∧ _ := by simpa using h
        have hb := b.toNat_lt
        have hhigh : (a.toNat * 256 + b.toNat) / 256 = a.toNat := by omega
        have hbyte : UInt8.ofNat (a.toNat * 256 + b.toNat) = b := by
          apply UInt8.toNat_inj.mp
          rw [UInt8.toNat_ofNat']
          omega
        rw [tagBytes, if_pos (by omega), hhigh, hbyte, UInt8.ofNat_toNat]
        rfl
    · obtain ⟨rfl, rfl⟩ : _ ∧ _ := by simpa using h
      rw [tagBytes, if_neg (by omega), UInt8.ofNat_toNat]
      rfl

private theorem readLength_ok {data rest : List UInt8} {form : Form} {n : Nat} (h : readLength data = some (form, n, rest)) :
    data = form.bytes n ++ rest := by
  cases data with
  | nil => cases h
  | cons a data =>
    simp only [readLength] at h
    split at h
    · next ha =>
      cases data with
      | nil => cases h
      | cons b data =>
        obtain ⟨rfl, rfl, rfl⟩ : _ ∧ _ ∧ _ := by simpa using h
        simp [Form.bytes, ha]
    · split at h
      · next ha =>
        match data, h with
        | hi :: lo :: data, h =>
          obtain ⟨rfl, rfl, rfl⟩ : _ ∧ _ ∧ _ := by simpa using h
          have hlo := lo.toNat_lt
          have hhigh : (hi.toNat * 256 + lo.toNat) / 256 = hi.toNat := by omega
          have hbyte : UInt8.ofNat (hi.toNat * 256 + lo.toNat) = lo := by
            apply UInt8.toNat_inj.mp
            rw [UInt8.toNat_ofNat']
            omega
          rw [Form.bytes, hhigh, hbyte, UInt8.ofNat_toNat, ha]
          rfl
      · obtain ⟨rfl, rfl, rfl⟩ : _ ∧ _ ∧ _ := by simpa using h
        simp [Form.bytes]

theorem readItem_ok {data rest : List UInt8} {i : Item} (h : readItem data = some (i, rest)) : data = i.bytes ++ rest := by
  unfold readItem at h
  split at h
  · cases h
  · next tag data' htag =>
    split at h
    · cases h
    · next form n data'' hlength =>
      split at h
      · next hok =>
        obtain ⟨rfl, rfl⟩ : _ ∧ _ := by simpa using h
        have hn : (data''.take n).length = n := by simp [hok.2.2]
        rw [readTag_ok htag, readLength_ok hlength]
        simp only [Item.bytes, Item.head, hn, List.append_assoc, List.take_append_drop]
      · cases h

private theorem readItem_shorter {data rest : List UInt8} {i : Item} (h : readItem data = some (i, rest)) : rest.length < data.length := by
  have hlength := congrArg List.length (readItem_ok h)
  have := i.two_le
  rw [List.length_append] at hlength
  omega

/-- More fuel than there are bytes makes no difference. -/
private theorem readItems_fuel {f g : Nat} {data : List UInt8} (hf : data.length ≤ f) (hg : data.length ≤ g) :
    readItems f data = readItems g data := by
  induction f generalizing g data with
  | zero =>
    obtain rfl : data = [] := List.length_eq_zero_iff.mp (by omega)
    cases g <;> rfl
  | succ f ih =>
    cases g with
    | zero =>
      obtain rfl : data = [] := List.length_eq_zero_iff.mp (by omega)
      rfl
    | succ g =>
      simp only [readItems]
      cases hread : readItem data with
      | none => rfl
      | some read =>
        obtain ⟨i, rest⟩ := read
        have hshorter := readItem_shorter hread
        dsimp only
        rw [ih (g := g) (by omega) (by omega)]

private theorem decode_cons (i : Item) (x : List UInt8) : decode (i.bytes ++ x) = i :: decode x := by
  have := i.two_le
  obtain ⟨fuel, hfuel⟩ : ∃ fuel, (i.bytes ++ x).length = fuel + 1 := ⟨(i.bytes ++ x).length - 1, by
    rw [List.length_append]
    omega⟩
  rw [List.length_append] at hfuel
  rw [decode, List.length_append, hfuel, readItems, readItem_bytes, decode]
  dsimp only
  rw [readItems_fuel (by omega) (Nat.le_refl x.length)]

theorem decode_append (items : List Item) (tail : List UInt8) : decode (encode items ++ tail) = items ++ decode tail := by
  induction items with
  | nil => rfl
  | cons i is ih => rw [encode_cons, List.append_assoc, decode_cons, ih, List.cons_append]

theorem decode_encode (items : List Item) : decode (encode items) = items := by
  rw [← List.append_nil (encode items), decode_append]
  exact List.append_nil items

private theorem readItems_split (fuel : Nat) (data : List UInt8) :
    data = encode (readItems fuel data).1 ++ (readItems fuel data).2 ∧ (data.length ≤ fuel → decode (readItems fuel data).2 = []) := by
  induction fuel generalizing data with
  | zero =>
    refine ⟨rfl, fun h => ?_⟩
    obtain rfl : data = [] := List.length_eq_zero_iff.mp (by omega)
    rfl
  | succ fuel ih =>
    simp only [readItems]
    cases hread : readItem data with
    | none =>
      refine ⟨rfl, fun _ => ?_⟩
      dsimp only
      cases data with
      | nil => rfl
      | cons b bs => rw [decode, List.length_cons, readItems, hread]
    | some read =>
      obtain ⟨i, rest⟩ := read
      obtain ⟨hsplit, hdone⟩ := ih rest
      have hshorter := readItem_shorter hread
      refine ⟨?_, fun h => hdone (by omega)⟩
      dsimp only
      rw [encode_cons, List.append_assoc, ← hsplit]
      exact readItem_ok hread

theorem reads_walk : Reads walk find where
  append items tail := by rw [walk, decode_append, List.map_append, walk]
  split data := by
    obtain ⟨hsplit, hdone⟩ := readItems_split data.length data
    exact ⟨_, _, hsplit, by rw [walk, hdone (Nat.le_refl _), List.map_nil]⟩
  find items tail tag h := by
    have hnone : decode tail = [] := by simpa [walk] using h
    rw [find, decode_append, hnone, List.append_nil]

end FidoTouch.Tlv
