import Mathlib.Order.Notation

/-! Runs of a deterministic machine: the moves of a run, invariants along it, and facts that
hold until a named event. -/
namespace FidoTouch.Program

/-- A machine answers an input and moves on; what the environment decides is part of the state. -/
structure Machine (σ ι ω : Type) where
  step : σ → ι → ω × σ

/-- One step of a run. -/
structure Move (σ ι ω : Type) where
  before : σ
  input : ι
  output : ω
  after : σ

namespace Machine
variable {σ ι ω : Type} (m : Machine σ ι ω)

def move (s : σ) (i : ι) : Move σ ι ω := ⟨s, i, (m.step s i).1, (m.step s i).2⟩

def trace : σ → List ι → List (Move σ ι ω)
  | _, [] => []
  | s, i :: is => m.move s i :: trace (m.step s i).2 is

/-- The state in which a run ends. -/
def finish : σ → List ι → σ
  | s, [] => s
  | s, i :: is => finish (m.step s i).2 is

variable {m} {I : σ → Prop} {A : σ → ι → Prop} {E F G : Move σ ι ω → Prop}

/-- Every move of a run is a move of the machine. -/
theorem trace_move {s : σ} {is : List ι} {t : Move σ ι ω} (ht : t ∈ m.trace s is) :
    t = m.move t.before t.input := by
  induction is generalizing s with
  | nil => simp [trace] at ht
  | cons i is ih =>
    rcases List.mem_cons.mp ht with rfl | ht
    · rfl
    · exact ih ht

/-- The moves of a run are made on its inputs. -/
theorem trace_inputs (s : σ) (is : List ι) : (m.trace s is).map Move.input = is := by
  induction is generalizing s with
  | nil => rfl
  | cons i is ih => rw [trace, List.map_cons, ih, move]

/-- What a step keeps under a condition holds around every move of a run whose moves meet it. -/
theorem trace_invariant (step : ∀ s i, I s → A s i → I (m.step s i).2) {s : σ} {is : List ι} (hs : I s)
    (hok : ∀ t ∈ m.trace s is, A t.before t.input) : ∀ t ∈ m.trace s is, I t.before ∧ I t.after := by
  induction is generalizing s with
  | nil => simp [trace]
  | cons i is ih =>
    have hi : A s i := hok (m.move s i) (by simp [trace])
    intro t ht
    rcases List.mem_cons.mp ht with rfl | ht
    · exact ⟨hs, step s i hs hi⟩
    · exact ih (step s i hs hi) (fun u hu => hok u (by simp [trace, hu])) t ht

/-- What the moves of a run keep holds where it ends. -/
theorem finish_invariant (step : ∀ s i, I s → E (m.move s i) → I (m.step s i).2) {s : σ} {is : List ι} (hs : I s)
    (hok : ∀ t ∈ m.trace s is, E t) : I (m.finish s is) := by
  induction is generalizing s with
  | nil => exact hs
  | cons i is ih => exact ih (step s i hs (hok (m.move s i) (by simp [trace]))) fun t ht => hok t (by simp [trace, ht])

/-- A fact about single moves made from invariant states holds of every move of such a run. -/
theorem trace_moves (step : ∀ s i, I s → A s i → I (m.step s i).2)
    (good : ∀ s i, I s → A s i → G (m.move s i)) {s : σ} {is : List ι} (hs : I s)
    (hok : ∀ t ∈ m.trace s is, A t.before t.input) : ∀ t ∈ m.trace s is, G t := by
  induction is generalizing s with
  | nil => simp [trace]
  | cons i is ih =>
    have hi : A s i := hok (m.move s i) (by simp [trace])
    intro t ht
    rcases List.mem_cons.mp ht with rfl | ht
    · exact good s i hs hi
    · exact ih (step s i hs hi) (fun u hu => hok u (by simp [trace, hu])) t ht

/-- What is counted along a run may stand in what its steps keep; after any beginning, the run goes on from a state in
which it holds of the count so far. -/
theorem trace_count {γ : Type} {J : γ → σ → Prop} {count : γ → Move σ ι ω → γ}
    (step : ∀ g s i, J g s → A s i → J (count g (m.move s i)) (m.step s i).2) {g : γ} {s : σ} {is : List ι} (hs : J g s)
    (hok : ∀ t ∈ m.trace s is, A t.before t.input) {before after : List (Move σ ι ω)}
    (ht : m.trace s is = before ++ after) :
    ∃ s' is', J (before.foldl count g) s' ∧ after = m.trace s' is' := by
  induction before generalizing g s is with
  | nil => exact ⟨s, is, hs, ht.symm⟩
  | cons t before ih =>
    cases is with
    | nil => simp [trace] at ht
    | cons i is =>
      rw [List.cons_append, trace, List.cons.injEq] at ht
      obtain ⟨rfl, ht⟩ := ht
      exact ih (step g s i hs (hok (m.move s i) (by simp [trace]))) (fun u hu => hok u (by simp [trace, hu])) ht

/-- Before each move of a run there holds what the steps keep, of the number of certain moves made so far. -/
theorem trace_counted {J : Nat → σ → Prop} {p : Move σ ι ω → Bool}
    (step : ∀ n s i, J n s → E (m.move s i) → J (n + (p (m.move s i)).toNat) (m.step s i).2) {n : Nat} {s : σ} {is : List ι}
    (hs : J n s) (hok : ∀ t ∈ m.trace s is, E t) {before after : List (Move σ ι ω)} {t : Move σ ι ω}
    (ht : m.trace s is = before ++ t :: after) : J (n + before.countP p) t.before ∧ t = m.move t.before t.input ∧ E t := by
  induction before generalizing n s is with
  | nil =>
    cases is with
    | nil => simp [trace] at ht
    | cons i is =>
      rw [List.nil_append, trace, List.cons.injEq] at ht
      obtain ⟨rfl, -⟩ := ht
      exact ⟨hs, rfl, hok _ (by simp [trace])⟩
  | cons u before ih =>
    cases is with
    | nil => simp [trace] at ht
    | cons i is =>
      rw [List.cons_append, trace, List.cons.injEq] at ht
      obtain ⟨rfl, ht⟩ := ht
      have hnext := ih (step n s i hs (hok _ (by simp [trace]))) (fun v hv => hok v (by simp [trace, hv])) ht
      have hcount : n + (m.move s i :: before).countP p = n + (p (m.move s i)).toNat + before.countP p := by
        cases hp : p (m.move s i) with
        | false => simp [hp]
        | true =>
          rw [List.countP_cons_of_pos hp, Bool.toNat_true]
          omega
      rwa [hcount]

/-- Where every step gives out the next number or none, a run gives out consecutive ones. -/
theorem trace_numbered {γ : Type} {J : Nat → σ → Prop} {number : Move σ ι ω → Option γ} {f : Nat → γ}
    (step : ∀ n s i, J n s → A s i → number (m.move s i) = none ∧ J n (m.step s i).2 ∨
      number (m.move s i) = some (f n) ∧ J (n + 1) (m.step s i).2) {n : Nat} {s : σ} {is : List ι} (hs : J n s)
    (hok : ∀ t ∈ m.trace s is, A t.before t.input) :
    ∃ count, (m.trace s is).filterMap number = (List.range' n count).map f := by
  induction is generalizing n s with
  | nil => exact ⟨0, rfl⟩
  | cons i is ih =>
    have hrest : ∀ t ∈ m.trace (m.step s i).2 is, A t.before t.input := fun t ht => hok t (by simp [trace, ht])
    rcases step n s i hs (hok (m.move s i) (by simp [trace])) with ⟨hnone, hnext⟩ | ⟨hsome, hnext⟩
    · obtain ⟨count, hcount⟩ := ih hnext hrest
      exact ⟨count, by rw [trace, List.filterMap_cons_none hnone, hcount]⟩
    · obtain ⟨count, hcount⟩ := ih hnext hrest
      exact ⟨count + 1, by rw [trace, List.filterMap_cons_some hsome, hcount, List.range'_succ, List.map_cons]⟩

/-- What only an event can end still holds before the first move that comes after none. -/
theorem trace_until (step : ∀ t ∈ m.trace s is, I t.before → E t ∨ I t.after) (hs : I s)
    {before after : List (Move σ ι ω)} {t : Move σ ι ω} (ht : m.trace s is = before ++ t :: after)
    (hno : ∀ u ∈ before, ¬ E u) : I t.before := by
  induction is generalizing s before with
  | nil => simp [trace] at ht
  | cons i is ih =>
    cases before with
    | nil =>
      rw [List.nil_append, trace, List.cons.injEq] at ht
      rw [← ht.1]
      exact hs
    | cons u before =>
      rw [List.cons_append, trace, List.cons.injEq] at ht
      have hfirst := step (m.move s i) (by simp [trace]) hs
      have hnext : I (m.step s i).2 := hfirst.resolve_left (ht.1 ▸ hno u (by simp))
      exact ih (fun v hv => step v (by simp [trace, hv])) hnext ht.2 fun v hv => hno v (by simp [hv])

/-- What holds after a move and only an event can end still holds before a later move, where no event comes
between the two. -/
theorem trace_between {s : σ} {is : List ι} (step : ∀ t ∈ m.trace s is, I t.before → E t ∨ I t.after)
    {before mid after : List (Move σ ι ω)} {t u : Move σ ι ω}
    (ht : m.trace s is = before ++ t :: (mid ++ u :: after)) (hnow : I t.after)
    (hno : ∀ v ∈ mid, ¬ E v) : I u.before := by
  induction is generalizing s before with
  | nil => simp [trace] at ht
  | cons i is ih =>
    have hstep : ∀ v ∈ m.trace (m.step s i).2 is, I v.before → E v ∨ I v.after := fun v hv => step v (by simp [trace, hv])
    cases before with
    | nil =>
      rw [List.nil_append, trace, List.cons.injEq] at ht
      exact trace_until hstep (by rw [← ht.1] at hnow; exact hnow) ht.2 hno
    | cons w before =>
      rw [List.cons_append, trace, List.cons.injEq] at ht
      exact ih hstep ht.2

/-- What holds before a move, and did not hold at the start, some earlier move brought about, and no move
after that one ended. -/
theorem trace_since {s : σ} {is : List ι} {before after : List (Move σ ι ω)} {t : Move σ ι ω}
    (step : ∀ t ∈ m.trace s is, I t.after → F t ∨ I t.before ∧ ¬ E t) (hs : ¬ I s)
    (ht : m.trace s is = before ++ t :: after) (hnow : I t.before) :
    ∃ l u r, before = l ++ u :: r ∧ F u ∧ ∀ v ∈ r, ¬ E v := by
  refine (since_or step ht hnow).resolve_left fun h => hs h.1
where
  since_or {s : σ} {is : List ι} {before after : List (Move σ ι ω)} {t : Move σ ι ω}
      (step : ∀ t ∈ m.trace s is, I t.after → F t ∨ I t.before ∧ ¬ E t)
      (ht : m.trace s is = before ++ t :: after) (hnow : I t.before) :
      (I s ∧ ∀ v ∈ before, ¬ E v) ∨ ∃ l u r, before = l ++ u :: r ∧ F u ∧ ∀ v ∈ r, ¬ E v := by
    induction is generalizing s before with
    | nil => simp [trace] at ht
    | cons i is ih =>
      cases before with
      | nil =>
        rw [List.nil_append, trace, List.cons.injEq] at ht
        rw [← ht.1] at hnow
        exact .inl ⟨hnow, by simp⟩
      | cons u before =>
        rw [List.cons_append, trace, List.cons.injEq] at ht
        obtain ⟨rfl, ht⟩ := ht
        rcases ih (fun v hv => step v (by simp [trace, hv])) ht with ⟨hi, hno⟩ | ⟨l, v, r, rfl, hf, hno⟩
        · rcases step (m.move s i) (by simp [trace]) hi with hf | ⟨hi, he⟩
          · exact .inr ⟨[], m.move s i, before, rfl, hf, hno⟩
          · refine .inl ⟨hi, fun v hv => ?_⟩
            rcases List.mem_cons.mp hv with rfl | hv
            · exact he
            · exact hno v hv
        · exact .inr ⟨m.move s i :: l, v, r, rfl, hf, hno⟩

end Machine

/-! ### Steps given by a relation -/

/-- What one step shows of itself. -/
structure Step (σ ι : Type) where
  before : σ
  shown : ι
  after : σ

variable {σ ι : Type}

/-- Steps one after the other, each from where the one before it ended. -/
inductive Run (step : σ → ι → σ → Prop) : σ → List (Step σ ι) → Prop
  | nil (s : σ) : Run step s []
  | cons {s s' : σ} {i : ι} {ts : List (Step σ ι)} : step s i s' → Run step s' ts → Run step s (⟨s, i, s'⟩ :: ts)

namespace Run
variable {step : σ → ι → σ → Prop} {s : σ} {ts l r : List (Step σ ι)} {I : σ → Prop} {A : Step σ ι → Prop}

/-- What the steps that meet a condition keep holds around every step of a run of such steps. -/
theorem invariant (h : Run step s ts) (hI : ∀ t, step t.before t.shown t.after → A t → I t.before → I t.after)
    (hA : ∀ t ∈ ts, A t) (hs : I s) : ∀ t ∈ ts, step t.before t.shown t.after ∧ I t.before ∧ I t.after := by
  induction h with
  | nil => simp
  | @cons s s' i ts hstep _ ih =>
    have hnext := hI ⟨s, i, s'⟩ hstep (hA _ (by simp)) hs
    intro t ht
    rcases List.mem_cons.mp ht with rfl | ht
    · exact ⟨hstep, hs, hnext⟩
    · exact ih (fun u hu => hA u (by simp [hu])) hnext t ht

/-- The end of a run is a run. -/
theorem suffix (h : Run step s (l ++ r)) (hI : ∀ t, step t.before t.shown t.after → A t → I t.before → I t.after)
    (hA : ∀ t ∈ l, A t) (hs : I s) : ∃ s', I s' ∧ Run step s' r := by
  induction l generalizing s with
  | nil => exact ⟨s, hs, h⟩
  | cons t l ih =>
    cases h with
    | @cons _ s' i _ hstep h =>
      exact ih h (fun u hu => hA u (by simp [hu])) (hI ⟨s, i, s'⟩ hstep (hA _ (by simp)) hs)

/-- What only an event can end still holds before a later step, or the event came before it. -/
theorem holds_until {E : Step σ ι → Prop} {t : Step σ ι} (h : Run step s (l ++ t :: r))
    (hI : ∀ t, step t.before t.shown t.after → I t.before → E t ∨ I t.after) (hs : I s) :
    (∃ u ∈ l, E u) ∨ step t.before t.shown t.after ∧ I t.before := by
  induction l generalizing s with
  | nil =>
    cases h with
    | cons hstep _ => exact .inr ⟨hstep, hs⟩
  | cons u l ih =>
    cases h with
    | @cons _ s' i _ hstep h =>
      rcases hI ⟨s, i, s'⟩ hstep hs with hevent | hnext
      · exact .inl ⟨_, List.mem_cons_self .., hevent⟩
      · exact (ih h hnext).imp (fun ⟨v, hv, hevent⟩ => ⟨v, List.mem_cons_of_mem _ hv, hevent⟩) id

/-- The beginning of a run is a run. -/
theorem before (h : Run step s (l ++ r)) : Run step s l := by
  induction l generalizing s with
  | nil => exact .nil s
  | cons t l ih =>
    cases h with
    | cons hstep h => exact .cons hstep (ih h)

/-- A budget that no step raises pays for the steps that lower it. -/
theorem count_le {pays : Step σ ι → Bool} (h : Run step s ts) (budget : σ → Nat)
    (hpays : ∀ t ∈ ts, budget t.after + (pays t).toNat ≤ budget t.before) : ts.countP pays ≤ budget s := by
  induction h with
  | nil => simp
  | @cons s s' i ts hstep h ih =>
    have hnow := hpays ⟨s, i, s'⟩ (by simp)
    have hlater := ih fun t ht => hpays t (by simp [ht])
    rw [List.countP_cons]
    dsimp only at hnow
    cases hp : pays ⟨s, i, s'⟩ <;> rw [hp] at hnow <;> simp only [Bool.toNat_true, Bool.toNat_false] at hnow <;> simp <;> omega

end Run
end FidoTouch.Program
