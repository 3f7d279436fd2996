import FidoTouch.Program.Handler

/-! Which error a command leaves with: commands that never leave with a given one, whatever state they are run in. -/
namespace FidoTouch.Program.Handler

variable {σ ε ε' α β : Type} {e : ε}

/-- No run of the command leaves with this error. -/
class Avoids (e : ε) (x : Handler σ ε α) : Prop where
  ne : ∀ s, (x s).1 ≠ .error e

/-- A command that always returns a value leaves with no error at all. -/
theorem avoids_of {x : Handler σ ε α} (h : ∀ s, ∃ a, (x s).1 = .ok a) : Avoids e x where
  ne s hrun := by
    obtain ⟨a, ha⟩ := h s
    rw [ha] at hrun
    cases hrun

instance (a : α) : Avoids e (pure a : Handler σ ε α) := avoids_of fun _ => ⟨a, rfl⟩
instance : Avoids e (get : Handler σ ε σ) := avoids_of fun s => ⟨s, rfl⟩
instance (f : σ → α) : Avoids e (gets f : Handler σ ε α) := avoids_of fun s => ⟨f s, rfl⟩
instance (f : σ → σ) : Avoids e (modify f : Handler σ ε Unit) := avoids_of fun _ => ⟨(), rfl⟩
instance (x : Handler σ ε' α) : Avoids e (attempt x : Handler σ ε (Except ε' α)) := avoids_of fun s => ⟨(x s).1, rfl⟩

instance (x : Handler σ ε α) (f : α → Handler σ ε β) [hx : Avoids e x] [hf : ∀ a, Avoids e (f a)] : Avoids e (x >>= f) where
  ne s := by
    have hfirst := hx.ne s
    rw [bind_run]
    rcases hrun : x s with ⟨r, s'⟩
    rw [hrun] at hfirst
    cases r with
    | error e' => exact fun h => hfirst (congrArg _ (Except.error.inj h))
    | ok a => exact (hf a).ne s'

instance (f : α → β) (x : Handler σ ε α) [hx : Avoids e x] : Avoids e (f <$> x) where
  ne s := by
    have hfirst := hx.ne s
    rw [map_run]
    rcases hrun : x s with ⟨r, s'⟩
    rw [hrun] at hfirst
    cases r with
    | error e' => exact fun h => hfirst (congrArg _ (Except.error.inj h))
    | ok a => exact nofun

instance (c : Prop) [Decidable c] (x : Handler σ ε Unit) [hx : Avoids e x] : Avoids e (runIf c x) := by
  unfold runIf
  split <;> infer_instance

/-- By induction on the list. -/
instance (as : List α) (f : α → Handler σ ε Unit) [hf : ∀ a, Avoids e (f a)] : Avoids e (forEach as f) := by
  induction as with
  | nil => exact inferInstanceAs (Avoids e (pure () : Handler σ ε Unit))
  | cons a as ih => exact inferInstanceAs (Avoids e (f a >>= fun _ => forEach as f))

/-- By induction on the list. -/
instance (as : List α) (b : β) (f : β → α → Handler σ ε β) [hf : ∀ b a, Avoids e (f b a)] : Avoids e (foldFor as b f) := by
  induction as generalizing b with
  | nil => exact inferInstanceAs (Avoids e (pure b : Handler σ ε β))
  | cons a as ih => exact inferInstanceAs (Avoids e (f b a >>= fun b' => foldFor as b' f))

theorem Avoids.bind {x : Handler σ ε α} {f : α → Handler σ ε β} (hx : Avoids e x) (hf : ∀ a, Avoids e (f a)) : Avoids e (x >>= f) :=
  inferInstance

theorem avoids_fail {e' : ε} (h : e' ≠ e) : Avoids e (fail e' : Handler σ ε α) := ⟨fun _ hrun => h (Except.error.inj hrun)⟩

theorem avoids_refuseIf (c : Prop) [Decidable c] {e' : ε} (h : e' ≠ e) : Avoids e (refuseIf c e' : Handler σ ε Unit) := by
  unfold refuseIf
  split
  · exact avoids_fail h
  · infer_instance

theorem avoids_orFail (o : Option α) {e' : ε} (h : e' ≠ e) : Avoids e (orFail o e' : Handler σ ε α) := by
  cases o with
  | none => exact avoids_fail h
  | some a => exact inferInstanceAs (Avoids e (pure a : Handler σ ε α))

theorem avoids_ofExcept {r : Except ε α} (h : r ≠ .error e) : Avoids e (ofExcept r : Handler σ ε α) := ⟨fun _ => h⟩

/-- The caller never sees an error that none is turned into. -/
theorem avoids_mapError {f : ε' → ε} (h : ∀ e', f e' ≠ e) (x : Handler σ ε' α) : Avoids e (mapError f x) where
  ne s := by
    unfold mapError
    rcases x s with ⟨e' | a, s'⟩
    · exact fun hrun => h e' (Except.error.inj hrun)
    · exact nofun

/-- In one state, two commands in a row leave without the error when the first does there and the second where it goes on. -/
theorem ne_bind {x : Handler σ ε α} {f : α → Handler σ ε β} {s : σ} (hx : (x s).1 ≠ .error e)
    (hf : ∀ a s', x s = (.ok a, s') → (f a s').1 ≠ .error e) : ((x >>= f) s).1 ≠ .error e := by
  rw [bind_run]
  rcases hrun : x s with ⟨e' | a, s'⟩
  · rw [hrun] at hx
    exact fun h => hx (congrArg _ (Except.error.inj h))
  · exact hf a s' hrun

/-- Where the second command never leaves with the error, the first one has. -/
theorem bind_error {x : Handler σ ε α} {f : α → Handler σ ε β} (hf : ∀ a, Avoids e (f a)) {s : σ} (h : ((x >>= f) s).1 = .error e) :
    (x s).1 = .error e := by
  rw [bind_run] at h
  rcases hrun : x s with ⟨e' | a, s'⟩
  · rw [hrun] at h
    exact congrArg _ (Except.error.inj h)
  · rw [hrun] at h
    exact absurd h ((hf a).ne s')

/-- Where the first command never leaves with the error, the second one has, after the first succeeded. -/
theorem error_after {x : Handler σ ε α} {f : α → Handler σ ε β} (hx : Avoids e x) {s : σ} (h : ((x >>= f) s).1 = .error e) :
    ∃ a s', x s = (.ok a, s') ∧ (f a s').1 = .error e := by
  rw [bind_run] at h
  rcases hrun : x s with ⟨e' | a, s'⟩
  · rw [hrun] at h
    exact absurd (hrun ▸ congrArg _ (Except.error.inj h)) (hx.ne s)
  · rw [hrun] at h
    exact ⟨a, s', rfl, h⟩

end FidoTouch.Program.Handler
