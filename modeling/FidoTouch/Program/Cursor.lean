import Mathlib.Data.List.Range
import FidoTouch.Program.Runs

/-! A cursor that a machine moves along a list: one item for each of its own inputs, then refusals, whatever other
inputs come in between. -/
namespace FidoTouch.Program

variable {σ ι ω : Type} {m : Machine σ ι ω} {A : ι → Prop} {own : ι → Bool} {items : List ω} {refused : ω} {At : Nat → σ → Prop}

/-- In a state at `k` the next own input is answered by item `k`; where there is none it is refused, and other inputs leave the place. -/
structure Cursor (m : Machine σ ι ω) (A : ι → Prop) (own : ι → Bool) (items : List ω) (refused : ω) (At : Nat → σ → Prop) : Prop where
  next : ∀ {k s i} (hk : k < items.length), A i → own i = true → At k s → (m.step s i).1 = items[k] ∧ At (k + 1) (m.step s i).2
  done : ∀ {s i}, A i → own i = true → At items.length s → (m.step s i).1 = refused ∧ At items.length (m.step s i).2
  other : ∀ {k s i}, A i → own i = false → At k s → At k (m.step s i).2

/-- The answers to the own inputs of a run. -/
def Machine.outputs (m : Machine σ ι ω) (own : ι → Bool) (s : σ) (is : List ι) : List ω :=
  ((m.trace s is).filter fun t => own t.input).map Move.output

theorem Machine.outputs_own {own : ι → Bool} {i : ι} (h : own i = true) (s : σ) (is : List ι) :
    m.outputs own s (i :: is) = (m.step s i).1 :: m.outputs own (m.step s i).2 is := by
  simp only [Machine.outputs, Machine.trace, Machine.move, List.filter_cons, h, if_true, List.map_cons]

theorem Machine.outputs_other {own : ι → Bool} {i : ι} (h : own i = false) (s : σ) (is : List ι) :
    m.outputs own s (i :: is) = m.outputs own (m.step s i).2 is := by
  simp only [Machine.outputs, Machine.trace, Machine.move, List.filter_cons, h, Bool.false_eq_true, if_false]

/-- By induction on the run: from place `k` on the items come in their order, each once, and then only refusals. -/
theorem Cursor.outputs (C : Cursor m A own items refused At) {is : List ι} (his : ∀ i ∈ is, A i) {k : Nat} {s : σ}
    (hk : k ≤ items.length) (hs : At k s) :
    m.outputs own s is = (List.range (is.countP own)).map fun n => items[k + n]?.getD refused := by
  induction is generalizing k s with
  | nil => rfl
  | cons i is ih =>
    have hi : A i := his i List.mem_cons_self
    have hrest : ∀ j ∈ is, A j := fun j hj => his j (List.mem_cons_of_mem i hj)
    cases hown : own i with
    | false =>
      rw [Machine.outputs_other hown, List.countP_cons_of_neg (by rw [hown]; exact Bool.false_ne_true)]
      exact ih hrest hk (C.other hi hown hs)
    | true =>
      rw [Machine.outputs_own hown, List.countP_cons_of_pos hown, List.range_succ_eq_map, List.map_cons, List.map_map]
      rcases Nat.lt_or_eq_of_le hk with hlt | rfl
      · obtain ⟨hanswer, hnext⟩ := C.next hlt hi hown hs
        rw [hanswer, ih hrest hlt hnext, Nat.add_zero, List.getElem?_eq_getElem hlt]
        simp only [Option.getD_some, Function.comp_def, Nat.succ_eq_add_one, Nat.add_assoc, Nat.add_comm 1]
      · obtain ⟨hanswer, hstay⟩ := C.done hi hown hs
        rw [hanswer, ih hrest (Nat.le_refl _) hstay, Nat.add_zero, List.getElem?_eq_none (Nat.le_refl _)]
        have hpast : ∀ n, items[items.length + n]? = none := fun n => List.getElem?_eq_none (Nat.le_add_right _ n)
        simp only [Option.getD_none, Function.comp_def, hpast]

end FidoTouch.Program
