import FidoTouch.Program.Handler

/-! Commands that answer the same from equivalent states and leave an equivalent one: run once more, they repeat themselves. -/
namespace FidoTouch.Program.Handler

variable {σ ε ε' α β : Type} {E : σ → σ → Prop}

/-- From equivalent states the answers are the same, and the command goes on in an equivalent state. -/
class Repeats (E : σ → σ → Prop) (x : Handler σ ε α) : Prop where
  keeps : ∀ s, E s (x s).2
  same : ∀ {s s'}, E s s' → (x s').1 = (x s).1

instance (priority := low) (x : Handler σ ε α) [hx : Repeats E x] : Keeps E x := ⟨hx.keeps⟩

variable [IsEquiv σ E]

/-- The second run ends where the first one did, up to equivalence. -/
theorem Repeats.both {x : Handler σ ε α} (hx : Repeats E x) {s s' : σ} (h : E s s') : E (x s).2 (x s').2 :=
  IsTrans.trans _ _ _ (Std.Symm.symm _ _ (hx.keeps s)) (IsTrans.trans _ _ _ h (hx.keeps s'))

instance (a : α) : Repeats E (pure a : Handler σ ε α) := ⟨fun s => Std.Refl.refl s, fun _ => rfl⟩
instance (e : ε) : Repeats E (fail e : Handler σ ε α) := ⟨fun s => Std.Refl.refl s, fun _ => rfl⟩
instance (r : Except ε α) : Repeats E (ofExcept r : Handler σ ε α) := ⟨fun s => Std.Refl.refl s, fun _ => rfl⟩

instance (c : Prop) [Decidable c] (e : ε) : Repeats E (refuseIf c e : Handler σ ε Unit) := by
  unfold refuseIf
  split <;> infer_instance

instance (o : Option α) (e : ε) : Repeats E (orFail o e : Handler σ ε α) := by
  cases o <;> (unfold orFail; infer_instance)

instance (x : Handler σ ε α) (f : α → Handler σ ε β) [hx : Repeats E x] [hf : ∀ a, Repeats E (f a)] : Repeats E (x >>= f) where
  keeps := (inferInstance : Keeps E (x >>= f)).rel
  same {s s'} h := by
    have hends := hx.both h
    have hanswers := hx.same h
    rw [bind_run, bind_run]
    rcases hs : x s with ⟨e | a, t⟩ <;> rcases hs' : x s' with ⟨e' | a', t'⟩ <;> rw [hs, hs'] at hanswers hends
    · cases hanswers
      rfl
    · cases hanswers
    · cases hanswers
    · cases hanswers
      exact (hf a).same hends

theorem Repeats.bind {x : Handler σ ε α} {f : α → Handler σ ε β} (hx : Repeats E x) (hf : ∀ a, Repeats E (f a)) :
    Repeats E (x >>= f) := inferInstance

instance (f : α → β) (x : Handler σ ε α) [Repeats E x] : Repeats E (f <$> x) :=
  inferInstanceAs (Repeats E (x >>= fun a => pure (f a)))

instance (c : Prop) [Decidable c] (x y : Handler σ ε α) [Repeats E x] [Repeats E y] : Repeats E (if c then x else y) := by
  split <;> assumption

omit [IsEquiv σ E] in
instance (x : Handler σ ε α) [hx : Repeats E x] : Repeats E (attempt x : Handler σ ε' (Except ε α)) where
  keeps := hx.keeps
  same h := congrArg Except.ok (hx.same h)

omit [IsEquiv σ E] in
instance (f : ε → ε') (x : Handler σ ε α) [hx : Repeats E x] : Repeats E (mapError f x) where
  keeps := (inferInstance : Keeps E (mapError f x)).rel
  same {s s'} h := by
    have hanswers := hx.same h
    unfold mapError
    rcases hs : x s with ⟨e | a, t⟩ <;> rcases hs' : x s' with ⟨e' | a', t'⟩ <;> rw [hs, hs'] at hanswers <;> cases hanswers <;> rfl

instance (as : List α) (b : β) (f : β → α → Handler σ ε β) [∀ b a, Repeats E (f b a)] : Repeats E (foldFor as b f) := by
  induction as generalizing b with
  | nil => unfold foldFor; infer_instance
  | cons a as ih => unfold foldFor; infer_instance

omit [IsEquiv σ E] in
/-- What is read of the state is the same in equivalent states. -/
theorem repeats_get {f : σ → Handler σ ε α} (hf : ∀ {s s'}, E s s' → f s' = f s) (h : ∀ s, Repeats E (f s)) :
    Repeats E (get >>= f) where
  keeps s := (h s).keeps s
  same {s s'} hs := by
    rw [bind_eq (get_run s), bind_eq (get_run s'), hf hs]
    exact (h s).same hs

end FidoTouch.Program.Handler
