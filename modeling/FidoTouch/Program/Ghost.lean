import FidoTouch.Program.Handler

/-! Commands that keep a ghost beside their state: what the ghost is told changes nothing of what the command does. -/
namespace FidoTouch.Program

/-- A state and what is remembered about it. -/
structure Ghosted (σ γ : Type) where
  state : σ
  ghost : γ

namespace Handler
variable {σ γ ε ε' α β : Type}

def onState (x : Handler σ ε α) : Handler (Ghosted σ γ) ε α := zoom Ghosted.state (fun s t => { t with state := s }) x

def onGhost (f : γ → γ) : Handler (Ghosted σ γ) ε Unit := modify fun t => { t with ghost := f t.ghost }

@[simp] theorem onState_run (x : Handler σ ε α) (t : Ghosted σ γ) :
    (onState x : Handler (Ghosted σ γ) ε α) t = ((x t.state).1, { t with state := (x t.state).2 }) := rfl
@[simp] theorem onGhost_run (f : γ → γ) (t : Ghosted σ γ) :
    (onGhost f : Handler (Ghosted σ γ) ε Unit) t = (.ok (), { t with ghost := f t.ghost }) := rfl

/-- A command with a ghost gives the result of the one without, and leaves its state. -/
def Shadows (y : Handler (Ghosted σ γ) ε α) (x : Handler σ ε α) : Prop := ∀ t, x t.state = ((y t).1, (y t).2.state)

theorem Shadows.bind {y : Handler (Ghosted σ γ) ε α} {x : Handler σ ε α} {g : α → Handler (Ghosted σ γ) ε β}
    {f : α → Handler σ ε β} (hy : Shadows y x) (hg : ∀ a, Shadows (g a) (f a)) : Shadows (y >>= g) (x >>= f) := by
  intro t
  rw [bind_run, bind_run, hy t]
  rcases y t with ⟨_ | a, t'⟩
  · rfl
  · exact hg a t'

/-- What is told to the ghost alone does not show. -/
theorem Shadows.ghost {f : γ → γ} {g : Unit → Handler (Ghosted σ γ) ε β} {x : Handler σ ε β} (hg : Shadows (g ()) x) :
    Shadows (onGhost f >>= g) x := fun t => hg { t with ghost := f t.ghost }

theorem shadows_pure (a : α) : Shadows (pure a : Handler (Ghosted σ γ) ε α) (pure a) := fun _ => rfl

theorem shadows_fail (e : ε) : Shadows (fail e : Handler (Ghosted σ γ) ε α) (fail e) := fun _ => rfl

theorem shadows_onState (x : Handler σ ε α) : Shadows (onState x : Handler (Ghosted σ γ) ε α) x := fun _ => rfl

theorem Shadows.attempt {y : Handler (Ghosted σ γ) ε α} {x : Handler σ ε α} (hy : Shadows y x) :
    Shadows (ε := ε') (Handler.attempt y) (Handler.attempt x) := by
  intro t
  rw [attempt_run, attempt_run, hy t]

theorem Shadows.mapError {y : Handler (Ghosted σ γ) ε α} {x : Handler σ ε α} (f : ε → ε') (hy : Shadows y x) :
    Shadows (Handler.mapError f y) (Handler.mapError f x) := by
  intro t
  unfold Handler.mapError
  rw [hy t]
  rcases y t with ⟨_ | _, _⟩ <;> rfl

/-- A command may tell its ghost at its end. -/
theorem Shadows.told {y : Handler (Ghosted σ γ) ε Unit} {x : Handler σ ε Unit} (hy : Shadows y x) (f : γ → γ) :
    Shadows (y >>= fun _ => onGhost f) x := by
  intro t
  rw [bind_run, hy t]
  rcases y t with ⟨_ | _, _⟩ <;> rfl

theorem shadows_foldFor {y : α → β → Handler (Ghosted σ γ) ε α} {x : α → β → Handler σ ε α}
    (h : ∀ a b, Shadows (y a b) (x a b)) (bs : List β) (a : α) : Shadows (foldFor bs a y) (foldFor bs a x) := by
  induction bs generalizing a with
  | nil => exact shadows_pure a
  | cons b bs ih => exact (h a b).bind ih

theorem shadows_forEach {y : β → Handler (Ghosted σ γ) ε Unit} {x : β → Handler σ ε Unit}
    (h : ∀ b, Shadows (y b) (x b)) (bs : List β) : Shadows (forEach bs y) (forEach bs x) := by
  induction bs with
  | nil => exact shadows_pure ()
  | cons b bs ih => exact (h b).bind fun _ => ih

/-! ### What the ghost was told -/

/-- Everything remembered has the property. -/
def Remembers (P : β → Prop) (t : Ghosted σ (List β)) : Prop := ∀ b ∈ t.ghost, P b

variable {P : β → Prop}

instance (x : Handler σ ε α) : Keeps (Preserves (Remembers P)) (onState x : Handler (Ghosted σ (List β)) ε α) := ⟨fun _ => id⟩

theorem keeps_told {b : β} (h : P b) :
    Keeps (Preserves (Remembers P)) (onGhost (b :: ·) : Handler (Ghosted σ (List β)) ε Unit) where
  rel t ht := by
    intro c hc
    rcases List.mem_cons.1 hc with rfl | hc
    · exact h
    · exact ht c hc

end Handler
end FidoTouch.Program
