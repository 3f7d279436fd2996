import FidoTouch.Program.Runs
import Mathlib.Data.List.Basic

/-! A machine with another one as a part of it: what the part answers in a run is what it answers by itself. -/
namespace FidoTouch.Program

variable {σ ι ω τ κ χ : Type}

/-- States of a machine and of its part that belong together stay together, under inputs of which `A` holds. Some of the inputs are
the part's own, and some of the outputs. -/
structure Machine.Part (m : Machine σ ι ω) (n : Machine τ κ χ) (R : σ → τ → Prop) (A : ι → Prop) (input : ι → Option κ)
    (output : ω → Option χ) : Prop where
  own : ∀ {s t i k}, R s t → A i → input i = some k → output (m.step s i).1 = some (n.step t k).1 ∧ R (m.step s i).2 (n.step t k).2
  other : ∀ {s t i}, R s t → A i → input i = none → output (m.step s i).1 = none ∧ R (m.step s i).2 t

namespace Machine.Part
variable {m : Machine σ ι ω} {n : Machine τ κ χ} {R : σ → τ → Prop} {A : ι → Prop} {input : ι → Option κ} {output : ω → Option χ}

/-- The part answers as if it had been alone with its inputs. -/
theorem outputs (h : m.Part n R A input output) {s : σ} {t : τ} {is : List ι} (hst : R s t) (his : ∀ i ∈ is, A i) :
    (m.trace s is).filterMap (fun u => output u.output) = (n.trace t (is.filterMap input)).map Move.output := by
  induction is generalizing s t with
  | nil => rfl
  | cons i is ih =>
    have hi := his i (List.mem_cons_self ..)
    have hrest : ∀ j ∈ is, A j := fun j hj => his j (List.mem_cons_of_mem _ hj)
    cases hpart : input i with
    | none =>
      obtain ⟨houtput, hstep⟩ := h.other hst hi hpart
      rw [trace, List.filterMap_cons_none (a := m.move s i) houtput, List.filterMap_cons_none hpart]
      exact ih hstep hrest
    | some k =>
      obtain ⟨houtput, hstep⟩ := h.own hst hi hpart
      rw [trace, List.filterMap_cons_some (a := m.move s i) houtput, List.filterMap_cons_some hpart, trace, List.map_cons, ih hstep hrest]
      rfl

end Machine.Part
end FidoTouch.Program
