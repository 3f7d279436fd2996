import Mathlib.Data.List.Basic

/-! Loops that take the members of a map from one flat list: a key, and after a key that is known its value. The value of an
unknown key stays where it is, and is read as the next key. -/
namespace FidoTouch.Program

/-- How a loop reads: what a key is compared as, whether it may come now, and what is done with the value of a known one. -/
structure MemberLoop (σ ν κ ε : Type) where
  keyOf : ν → Except ε κ
  accept : σ → κ → Except ε σ
  member : κ → Option (σ → ν → Except ε σ)
  /-- A known key is the last item. -/
  atEnd : ε

namespace MemberLoop
variable {σ ν κ ε α β : Type}

/-- The items of a map one after the other. -/
def flat (members : List (ν × ν)) : List ν := members.flatMap fun m => [m.1, m.2]

@[simp] theorem flat_nil : flat ([] : List (ν × ν)) = [] := rfl

@[simp] theorem flat_cons (k v : ν) (members : List (ν × ν)) : flat ((k, v) :: members) = k :: v :: flat members := rfl

@[simp] theorem flat_append (l r : List (ν × ν)) : flat (l ++ r) = flat l ++ flat r := List.flatMap_append

/-- Take the items in turn: the next one is a key, or the value of the known key before it. -/
def items (l : MemberLoop σ ν κ ε) : Option (σ → ν → Except ε σ) → List ν → σ → Except ε σ
  | none, [], s => .ok s
  | some _, [], _ => .error l.atEnd
  | none, k :: rest, s => (l.keyOf k).bind fun key => (l.accept s key).bind fun s => items l (l.member key) rest s
  | some read, v :: rest, s => (read s v).bind fun s => items l none rest s

/-- The loop runs until the map is at its end. -/
def run (l : MemberLoop σ ν κ ε) : List ν → σ → Except ε σ := l.items none

theorem except_bind_ok {x : Except ε α} {f : α → Except ε β} {b : β} (h : x.bind f = .ok b) : ∃ a, x = .ok a ∧ f a = .ok b := by
  cases x with
  | error e => cases h
  | ok a => exact ⟨a, rfl, h⟩

variable {l : MemberLoop σ ν κ ε} {key key' : κ} {read : σ → ν → Except ε σ} {k v : ν} {rest : List ν} {s s₁ s₂ p : σ}
  {pre post members : List (ν × ν)}

/-- What a key is read as. -/
theorem run_cons_ok (h : l.run (k :: rest) s = .ok p) :
    ∃ key s₁, l.keyOf k = .ok key ∧ l.accept s key = .ok s₁ ∧ l.items (l.member key) rest s₁ = .ok p := by
  obtain ⟨key, hkey, h⟩ := except_bind_ok h
  obtain ⟨s₁, haccept, h⟩ := except_bind_ok h
  exact ⟨key, s₁, hkey, haccept, h⟩

theorem run_cons (hkey : l.keyOf k = .ok key) (haccept : l.accept s key = .ok s₁) :
    l.run (k :: rest) s = l.items (l.member key) rest s₁ := by
  simp only [run, items, hkey, haccept, Except.bind]

/-- A value is there for a known key, and is read. -/
theorem items_some_ok (h : l.items (some read) rest s = .ok p) :
    ∃ v rest' s₁, rest = v :: rest' ∧ read s v = .ok s₁ ∧ l.run rest' s₁ = .ok p := by
  cases rest with
  | nil => cases h
  | cons v rest =>
    obtain ⟨s₁, hread, h⟩ := except_bind_ok h
    exact ⟨v, rest, s₁, rfl, hread, h⟩

/-- Each key is one that the loop knows. -/
def Known (l : MemberLoop σ ν κ ε) (members : List (ν × ν)) : Prop :=
  ∀ m ∈ members, ∃ key read, l.keyOf m.1 = .ok key ∧ l.member key = some read

/-- A member with a known key is read whole. -/
theorem run_member_ok (hkey : l.keyOf k = .ok key) (hmember : l.member key = some read) (h : l.run (k :: v :: rest) s = .ok p) :
    ∃ s₁ s₂, l.accept s key = .ok s₁ ∧ read s₁ v = .ok s₂ ∧ l.run rest s₂ = .ok p := by
  obtain ⟨key', s₁, hkey', haccept, h⟩ := run_cons_ok h
  obtain rfl : key' = key := Except.ok.inj (hkey'.symm.trans hkey)
  rw [hmember] at h
  obtain ⟨_, _, s₂, hrest, hread, h⟩ := items_some_ok h
  obtain ⟨rfl, rfl⟩ := List.cons.inj hrest
  exact ⟨s₁, s₂, haccept, hread, h⟩

/-- After members with known keys the loop stands before a key. -/
theorem run_append (hknown : Known l pre) (s : σ) : l.run (flat pre ++ rest) s = (l.run (flat pre) s).bind fun s => l.run rest s := by
  induction pre generalizing s with
  | nil => rfl
  | cons m pre ih =>
    obtain ⟨k, v⟩ := m
    obtain ⟨key, read, hkey, hmember⟩ := hknown (k, v) (List.mem_cons_self ..)
    have ih := ih fun m hm => hknown m (List.mem_cons_of_mem _ hm)
    cases haccept : l.accept s key with
    | error e => simp only [run, items, flat_cons, List.cons_append, hkey, haccept, Except.bind]
    | ok s₁ =>
      rw [flat_cons, List.cons_append, List.cons_append, run_cons hkey haccept, run_cons hkey haccept, hmember]
      simp only [items]
      cases read s₁ v with
      | error e => rfl
      | ok s₂ => exact ih s₂

theorem run_append_ok (hknown : Known l pre) (h : l.run (flat (pre ++ post)) s = .ok p) :
    ∃ s', l.run (flat pre) s = .ok s' ∧ l.run (flat post) s' = .ok p := by
  rw [flat_append, run_append hknown] at h
  exact except_bind_ok h

theorem Known.left (h : Known l (pre ++ post)) : Known l pre := fun m hm => h m (List.mem_append_left _ hm)

theorem Known.right (h : Known l (pre ++ post)) : Known l post := fun m hm => h m (List.mem_append_right _ hm)

/-- What neither a key nor a value touches is the same in the end. -/
theorem items_keeps {f : σ → β} {pending : Option (σ → ν → Except ε σ)} (haccept : ∀ key s s', l.accept s key = .ok s' → f s' = f s)
    (hread : ∀ key read s v s', l.member key = some read → read s v = .ok s' → f s' = f s)
    (hpending : ∀ read s v s', pending = some read → read s v = .ok s' → f s' = f s) (h : l.items pending rest s = .ok p) : f p = f s := by
  induction rest generalizing pending s with
  | nil =>
    cases pending <;> cases h
    rfl
  | cons v rest ih =>
    cases pending with
    | none =>
      obtain ⟨key, s₁, -, hs₁, h⟩ := run_cons_ok h
      rw [ih (fun read s v s' hmember => hread key read s v s' hmember) h, haccept key s s₁ hs₁]
    | some read =>
      obtain ⟨_, _, s₁, hrest, hs₁, h⟩ := items_some_ok h
      obtain ⟨rfl, rfl⟩ := List.cons.inj hrest
      rw [ih (fun _ _ _ _ hnone => by cases hnone) h, hpending read s v s₁ rfl hs₁]

/-- What no member of the map touches is the same in the end. -/
theorem run_keeps {f : σ → β} (hknown : Known l members) (haccept : ∀ key s s', l.accept s key = .ok s' → f s' = f s)
    (hread : ∀ m ∈ members, ∀ key read, l.keyOf m.1 = .ok key → l.member key = some read → ∀ s s', read s m.2 = .ok s' → f s' = f s)
    (h : l.run (flat members) s = .ok p) : f p = f s := by
  induction members generalizing s with
  | nil =>
    cases h
    rfl
  | cons m members ih =>
    obtain ⟨k, v⟩ := m
    obtain ⟨key, read, hkey, hmember⟩ := hknown (k, v) (List.mem_cons_self ..)
    obtain ⟨s₁, s₂, hs₁, hs₂, h⟩ := run_member_ok hkey hmember h
    have hrest : f p = f s₂ := ih (fun m hm => hknown m (List.mem_cons_of_mem _ hm))
      (fun m hm => hread m (List.mem_cons_of_mem _ hm)) h
    rw [hrest, hread (k, v) (List.mem_cons_self ..) key read hkey hmember s₁ s₂ hs₂, haccept key s s₁ hs₁]

/-! ### Values that are taken for keys -/

/-- What is left of the values that are keys at the same time: each known key has a field of its own for them, and what
an unknown key is as a value never comes from a known one. -/
structure Observed (l : MemberLoop σ ν κ ε) (β α : Type) where
  view : σ → β
  field : κ → β → α
  val : ν → α
  Own : α → Prop
  Ready : σ → Prop
  accept_view : ∀ {key s s'}, l.accept s key = .ok s' → view s' = view s
  accept_ready : ∀ {key read s s'}, l.accept s key = .ok s' → l.member key = some read → Ready s'
  read_ready : ∀ {key read s s' v}, l.member key = some read → read s v = .ok s' → Ready s → Ready s'
  read_field : ∀ {key read s s' v key'}, l.member key = some read → read s v = .ok s' → l.keyOf v = .ok key' →
    field key (view s') = val v
  read_frame : ∀ {key read s s' v key'}, l.member key = some read → read s v = .ok s' → key' ≠ key →
    field key' (view s') = field key' (view s)
  known_own : ∀ {v key read}, l.keyOf v = .ok key → l.member key = some read → Own (val v)
  unknown_not_own : ∀ {s s' v key}, Ready s → l.keyOf v = .ok key → l.accept s key = .ok s' → l.member key = none → ¬ Own (val v)

/-- No two keys are the same to the loop. -/
def Distinct (l : MemberLoop σ ν κ ε) (members : List (ν × ν)) : Prop := (members.map Prod.fst).Pairwise fun k k' => l.keyOf k ≠ l.keyOf k'

namespace Observed
variable (o : Observed l β α)

/-- A member that is not there leaves its field alone. -/
private theorem field_absent (hknown : Known l members) (habsent : ∀ m ∈ members, l.keyOf m.1 ≠ .ok key)
    (h : l.run (flat members) s = .ok p) : o.field key (o.view p) = o.field key (o.view s) :=
  run_keeps (f := fun s => o.field key (o.view s)) hknown (fun _ _ _ haccept => congrArg (o.field key) (o.accept_view haccept))
    (fun m hm _ _ hkey hmember _ _ hread => o.read_frame hmember hread fun heq => habsent m hm (heq ▸ hkey)) h

/-- A value that could be a key is what its field holds in the end. -/
private theorem field_present (hknown : Known l members) (hdistinct : Distinct l members) (h : l.run (flat members) s = .ok p)
    {m : ν × ν} (hm : m ∈ members) (hkey : l.keyOf m.1 = .ok key) (hvalue : l.keyOf m.2 = .ok key') :
    o.field key (o.view p) = o.val m.2 := by
  induction members generalizing s with
  | nil => cases hm
  | cons first members ih =>
    obtain ⟨k, v⟩ := first
    obtain ⟨key₀, read, hkey₀, hmember⟩ := hknown (k, v) (List.mem_cons_self ..)
    obtain ⟨s₁, s₂, -, hread, h⟩ := run_member_ok hkey₀ hmember h
    have hrest : Known l members := fun m hm => hknown m (List.mem_cons_of_mem _ hm)
    obtain ⟨hfirst, hdistinct⟩ := List.pairwise_cons.mp hdistinct
    rcases List.mem_cons.mp hm with rfl | hm
    · obtain rfl : key₀ = key := Except.ok.inj (hkey₀.symm.trans hkey)
      have habsent : ∀ m ∈ members, l.keyOf m.1 ≠ .ok key₀ := fun m hm heq =>
        hfirst m.1 (List.mem_map_of_mem hm) (hkey₀.trans heq.symm)
      rw [o.field_absent hrest habsent h]
      exact o.read_field hmember hread hvalue
    · exact ih hrest hdistinct h hm

/-- Where a known key takes the next key for its value, some field ends with something else than the value that the map
has for it. -/
private theorem misaligned (hknown : Known l post) (hdistinct : Distinct l post) (hmember : l.member key = some read) (hready : o.Ready s)
    (hown : ∀ m ∈ post, ∀ key', l.keyOf m.1 = .ok key' → o.Own (o.field key' (o.view s)))
    (h : l.items (some read) (flat post) s = .ok p) :
    ∃ m ∈ post, ∃ key' key'', l.keyOf m.1 = .ok key' ∧ l.keyOf m.2 = .ok key'' ∧ o.Own (o.field key' (o.view p)) ∧ ¬ o.Own (o.val m.2) := by
  induction post generalizing key read s with
  | nil => cases h
  | cons m post ih =>
    obtain ⟨k, value⟩ := m
    obtain ⟨_, _, s₁, hrest, hread, h⟩ := items_some_ok h
    obtain ⟨rfl, rfl⟩ := List.cons.inj hrest
    obtain ⟨key₁, read₁, hkey₁, hmember₁⟩ := hknown (k, value) (List.mem_cons_self ..)
    have hknown' : Known l post := fun m hm => hknown m (List.mem_cons_of_mem _ hm)
    obtain ⟨hfirst, hdistinct'⟩ := List.pairwise_cons.mp hdistinct
    have hfield : o.field key (o.view s₁) = o.val k := o.read_field hmember hread hkey₁
    -- whatever was taken for a value by now, it is a known key
    have hown₁ : ∀ m ∈ (k, value) :: post, ∀ key', l.keyOf m.1 = .ok key' → o.Own (o.field key' (o.view s₁)) := fun m hm key' hkey' => by
      by_cases hsame : key' = key
      · rw [hsame, hfield]
        exact o.known_own hkey₁ hmember₁
      · rw [o.read_frame hmember hread hsame]
        exact hown m hm key' hkey'
    obtain ⟨key₂, s₂, hkey₂, haccept, h⟩ := run_cons_ok h
    cases hmember₂ : l.member key₂ with
    | none =>
      rw [hmember₂] at h
      refine ⟨(k, value), List.mem_cons_self .., key₁, key₂, hkey₁, hkey₂, ?_,
        o.unknown_not_own (o.read_ready hmember hread hready) hkey₂ haccept hmember₂⟩
      have habsent : ∀ m ∈ post, l.keyOf m.1 ≠ .ok key₁ := fun m hm heq => hfirst m.1 (List.mem_map_of_mem hm) (hkey₁.trans heq.symm)
      rw [o.field_absent hknown' habsent h, o.accept_view haccept]
      exact hown₁ _ (List.mem_cons_self ..) key₁ hkey₁
    | some read₂ =>
      rw [hmember₂] at h
      obtain ⟨m, hm, hfound⟩ := ih hknown' hdistinct' hmember₂ (o.accept_ready haccept hmember₂)
        (fun m hm key' hkey' => by
          rw [o.accept_view haccept]
          exact hown₁ m (List.mem_cons_of_mem _ hm) key' hkey') h
      exact ⟨m, List.mem_cons_of_mem _ hm, hfound⟩

/-- Where nothing is unlike the map in the end, no known key took a key for its value. -/
theorem not_misaligned (hknown : Known l (pre ++ post)) (hdistinct : Distinct l (pre ++ post)) (hinit : ∀ key, o.Own (o.field key (o.view s)))
    (hpre : l.run (flat pre) s = .ok s₁) (hp : l.run (flat post) s₁ = .ok p) {q s₂ : σ} (hview : o.view s₂ = o.view s₁)
    (hready : o.Ready s₂) (hmember : l.member key = some read) (hq : l.items (some read) (flat post) s₂ = .ok q) : o.view q ≠ o.view p := by
  intro hsame
  have hdistinct' : Distinct l pre ∧ Distinct l post ∧ ∀ k ∈ pre.map Prod.fst, ∀ k' ∈ post.map Prod.fst, l.keyOf k ≠ l.keyOf k' := by
    rw [Distinct, List.map_append] at hdistinct
    exact List.pairwise_append.mp hdistinct
  have hown : ∀ m ∈ post, ∀ key, l.keyOf m.1 = .ok key → o.Own (o.field key (o.view s₂)) := fun m hm key hkey => by
    have habsent : ∀ m' ∈ pre, l.keyOf m'.1 ≠ .ok key := fun m' hm' heq =>
      hdistinct'.2.2 m'.1 (List.mem_map_of_mem hm') m.1 (List.mem_map_of_mem hm) (heq.trans hkey.symm)
    rw [hview, o.field_absent hknown.left habsent hpre]
    exact hinit key
  obtain ⟨m, hm, key₁, key₂, hkey₁, hkey₂, hfirst, hsecond⟩ := o.misaligned hknown.right hdistinct'.2.1 hmember hready hown hq
  rw [hsame, o.field_present hknown.right hdistinct'.2.1 hp hm hkey₁ hkey₂] at hfirst
  exact absurd hfirst hsecond

end Observed

/-- A member with an unknown key makes no difference exactly when its value is an unknown key, too, and the loop accepts both
and goes on. -/
theorem insert_iff {view : σ → β} (hknown : Known l pre) (hpre : l.run (flat pre) s = .ok s₁)
    (hunknown : ∀ key, l.keyOf k = .ok key → l.member key = none)
    (hmisaligned : ∀ key s₂ key' s₃ read q, l.keyOf k = .ok key → l.accept s₁ key = .ok s₂ → l.accept s₂ key' = .ok s₃ →
      l.member key' = some read → l.items (some read) (flat post) s₃ = .ok q → view q ≠ view p) :
    (∃ q, l.run (flat (pre ++ (k, v) :: post)) s = .ok q ∧ view q = view p) ↔
      ∃ key s₂ key' s₃, l.keyOf k = .ok key ∧ l.accept s₁ key = .ok s₂ ∧ l.keyOf v = .ok key' ∧ l.accept s₂ key' = .ok s₃ ∧
        l.member key' = none ∧ ∃ q, l.run (flat post) s₃ = .ok q ∧ view q = view p := by
  have hrun : l.run (flat (pre ++ (k, v) :: post)) s = l.run (k :: v :: flat post) s₁ := by
    rw [flat_append, run_append hknown, hpre, flat_cons]
    rfl
  rw [hrun]
  constructor
  · rintro ⟨q, hq, hview⟩
    obtain ⟨key, s₂, hkey, haccept, hq⟩ := run_cons_ok hq
    rw [hunknown key hkey] at hq
    obtain ⟨key', s₃, hkey', haccept', hq⟩ := run_cons_ok hq
    refine ⟨key, s₂, key', s₃, hkey, haccept, hkey', haccept', ?_⟩
    cases hmember : l.member key' with
    | none =>
      rw [hmember] at hq
      exact ⟨rfl, q, hq, hview⟩
    | some read =>
      rw [hmember] at hq
      exact absurd hview (hmisaligned key s₂ key' s₃ read q hkey haccept haccept' hmember hq)
  · rintro ⟨key, s₂, key', s₃, hkey, haccept, hkey', haccept', hmember, q, hq, hview⟩
    refine ⟨q, ?_, hview⟩
    rw [run_cons hkey haccept, hunknown key hkey]
    exact (run_cons hkey' haccept').trans (by rw [hmember]; exact hq)

/-- Another value of a known key makes no difference exactly when it is read as the same, from the variables as they were in the
beginning. -/
theorem replace_iff {view : σ → β} {f : β → α} {v' : ν} (hknown : Known l (pre ++ (k, v) :: post)) (hdistinct : Distinct l (pre ++ (k, v) :: post))
    (hkey : l.keyOf k = .ok key) (hmember : l.member key = some read) (haccept : ∀ key s s', l.accept s key = .ok s' → view s' = view s)
    (hkeeps : ∀ key' read s v s', key' ≠ key → l.member key' = some read → read s v = .ok s' → f (view s') = f (view s))
    (hset : ∀ s s' s'', read s v = .ok s' → read s v' = .ok s'' → f (view s'') = f (view s') → s'' = s')
    (hp : l.run (flat (pre ++ (k, v) :: post)) s = .ok p) :
    ∃ s₂ s₃, f (view s₂) = f (view s) ∧ read s₂ v = .ok s₃ ∧
      ((∃ q, l.run (flat (pre ++ (k, v') :: post)) s = .ok q ∧ view q = view p) ↔ read s₂ v' = .ok s₃) := by
  obtain ⟨s₁, hpre, hp⟩ := run_append_ok hknown.left hp
  have hrun : l.run (flat (pre ++ (k, v') :: post)) s = l.run (k :: v' :: flat post) s₁ := by
    rw [flat_append, run_append hknown.left, hpre, flat_cons]
    rfl
  rw [Distinct, List.map_append, List.map_cons, List.pairwise_append] at hdistinct
  obtain ⟨-, hafter, hbefore⟩ := hdistinct
  have habsent : ∀ m ∈ post, l.keyOf m.1 ≠ .ok key := fun m hm heq =>
    (List.pairwise_cons.mp hafter).1 m.1 (List.mem_map_of_mem hm) (hkey.trans heq.symm)
  have habsent' : ∀ m ∈ pre, l.keyOf m.1 ≠ .ok key := fun m hm heq =>
    hbefore m.1 (List.mem_map_of_mem hm) k (List.mem_cons_self ..) (heq.trans hkey.symm)
  have hsame : ∀ {members s q}, Known l members → (∀ m ∈ members, l.keyOf m.1 ≠ .ok key) → l.run (flat members) s = .ok q →
      f (view q) = f (view s) := fun hknown habsent h =>
    run_keeps (f := fun s => f (view s)) hknown (fun key s s' h => congrArg f (haccept key s s' h))
      (fun m hm key' read' hkey' hmember' s s' hread =>
        hkeeps key' read' s m.2 s' (fun heq => habsent m hm (heq ▸ hkey')) hmember' hread) h
  have hpost : Known l post := fun m hm => hknown m (List.mem_append_right _ (List.mem_cons_of_mem _ hm))
  obtain ⟨s₂, s₃, hs₂, hs₃, hp⟩ := run_member_ok hkey hmember hp
  refine ⟨s₂, s₃, (congrArg f (haccept key s₁ s₂ hs₂)).trans (hsame hknown.left habsent' hpre), hs₃, ?_⟩
  rw [hrun]
  constructor
  · rintro ⟨q, hq, hview⟩
    obtain ⟨s₂', s₃', hs₂', hs₃', hq⟩ := run_member_ok hkey hmember hq
    obtain rfl : s₂' = s₂ := Except.ok.inj (hs₂'.symm.trans hs₂)
    have heq : f (view s₃') = f (view s₃) := by rw [← hsame hpost habsent hq, hview, hsame hpost habsent hp]
    obtain rfl : s₃' = s₃ := hset s₂' s₃ s₃' hs₃ hs₃' heq
    exact hs₃'
  · intro hread
    refine ⟨p, ?_, rfl⟩
    rw [run_cons hkey hs₂, hmember]
    simp only [items, hread, Except.bind]
    exact hp

end MemberLoop
end FidoTouch.Program
