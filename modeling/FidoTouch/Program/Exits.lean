import FidoTouch.Program.Ghost

/-! Triples of commands: what holds where a command returns, and what holds where it leaves with an error. -/
namespace FidoTouch.Program.Handler
variable {σ γ ε ε' α β : Type}

/-- From a state in `P` the command returns in `Q`, or it leaves with an error in `E`. -/
def Exits (P : σ → Prop) (x : Handler σ ε α) (Q : α → σ → Prop) (E : σ → Prop) : Prop :=
  ∀ s, P s → match x s with
    | (.ok a, s') => Q a s'
    | (.error _, s') => E s'

variable {P P' E : σ → Prop} {Q : α → σ → Prop} {R : β → σ → Prop}

namespace Exits

theorem pre {x : Handler σ ε α} (h : Exits P x Q E) (hP : ∀ s, P' s → P s) : Exits P' x Q E := fun s hs => h s (hP s hs)

/-- A fact that the state before implies may be assumed for the whole command. -/
theorem of_pre {c : Prop} {x : Handler σ ε α} (hc : ∀ s, P s → c) (h : c → Exits P x Q E) : Exits P x Q E := fun s hs => h (hc s hs) s hs

theorem bind {x : Handler σ ε α} {f : α → Handler σ ε β} (hx : Exits P x Q E) (hf : ∀ a, Exits (Q a) (f a) R E) :
    Exits P (x >>= f) R E := by
  intro s hs
  have h := hx s hs
  rw [bind_run]
  rcases hrun : x s with ⟨_ | a, t⟩ <;> rw [hrun] at h
  · exact h
  · exact hf a t h

theorem mapError {x : Handler σ ε α} (f : ε → ε') (hx : Exits P x Q E) : Exits P (Handler.mapError f x) Q E := by
  intro s hs
  have h := hx s hs
  unfold Handler.mapError
  rcases hrun : x s with ⟨_ | a, t⟩ <;> rw [hrun] at h <;> exact h

/-- The caller goes on in both ways. -/
theorem attempt {x : Handler σ ε α} {E' : σ → Prop} (hx : Exits P x Q E) :
    Exits P (Handler.attempt x : Handler σ ε' _) (fun r s => match r with
      | .ok a => Q a s
      | .error _ => E s) E' := by
  intro s hs
  have h := hx s hs
  rw [attempt_run]
  rcases hrun : x s with ⟨_ | a, t⟩ <;> rw [hrun] at h <;> exact h

theorem refuseIf {c : Prop} [Decidable c] {e : ε} {f : Unit → Handler σ ε β} (hE : ∀ s, P s → E s) (hf : ¬ c → Exits P (f ()) R E) :
    Exits P (Handler.refuseIf c e >>= f) R E := by
  by_cases hc : c
  · rw [refuseIf_true hc]
    exact fun s hs => hE s hs
  · rw [refuseIf_false hc, pure_bind]
    exact hf hc

/-- What holds at every exit holds in the state left. -/
theorem after {x : Handler σ ε α} (h : Exits P x (fun _ => E) E) {s : σ} (hs : P s) : E (x s).2 := by
  have hend := h s hs
  rcases hrun : x s with ⟨_ | a, t⟩ <;> rw [hrun] at hend <;> exact hend

/-- What every turn of a loop keeps is the invariant of the loop. -/
theorem forEach {f : β → Handler σ ε Unit} (h : ∀ b, Exits P (f b) (fun _ => P) E) (bs : List β) :
    Exits P (Handler.forEach bs f) (fun _ => P) E := by
  induction bs with
  | nil => exact fun s hs => hs
  | cons b bs ih => exact (h b).bind fun _ => ih

end Exits

theorem exits_pure {a : α} (h : ∀ s, P s → Q a s) : Exits P (pure a : Handler σ ε α) Q E := fun s hs => h s hs

theorem exits_fail {e : ε} (h : ∀ s, P s → E s) : Exits P (fail e : Handler σ ε α) Q E := fun s hs => h s hs

/-- A command beside a ghost keeps what its relation on the state carries over. -/
theorem exits_onState {P : Ghosted σ γ → Prop} {S : σ → σ → Prop} (x : Handler σ ε α) [hx : Keeps S x]
    (h : ∀ t s, S t.state s → P t → P { t with state := s }) : Exits P (onState x) (fun _ => P) P := by
  intro t ht
  have hkept := h t _ (hx.rel t.state) ht
  rw [onState_run]
  rcases (x t.state).1 with _ | a <;> exact hkept

end FidoTouch.Program.Handler
