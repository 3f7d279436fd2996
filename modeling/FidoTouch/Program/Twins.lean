import FidoTouch.Program.Handler

/-! Two runs side by side: commands that answer the same from states in a relation, and leave states in it. -/
namespace FidoTouch.Program.Handler

variable {σ ε ε' α β : Type} {R : σ → σ → Prop}

/-- The same answer, and two states in the relation. -/
structure Alike (R : σ → σ → Prop) (p q : Except ε α × σ) : Prop where
  answer : p.1 = q.1
  states : R p.2 q.2

/-- From states in the relation the command ends alike. -/
class Twins (R : σ → σ → Prop) (x : Handler σ ε α) : Prop where
  alike : ∀ {s t}, R s t → Alike R (x s) (x t)

theorem Alike.bind {x y : Handler σ ε α} {f g : α → Handler σ ε β} {s t : σ} (h : Alike R (x s) (y t))
    (hf : ∀ a s' t', x s = (.ok a, s') → R s' t' → Alike R (f a s') (g a t')) : Alike R ((x >>= f) s) ((y >>= g) t) := by
  obtain ⟨hanswer, hstates⟩ := h
  rw [bind_run, bind_run]
  rcases hs : x s with ⟨e | a, s'⟩ <;> rcases ht : y t with ⟨e' | a', t'⟩ <;> rw [hs, ht] at hanswer hstates <;> cases hanswer
  · exact ⟨rfl, hstates⟩
  · exact hf a s' t' hs hstates

/-- The state may be read first, as long as what follows ends alike. -/
theorem Twins.reads {f : σ → Handler σ ε β} (h : ∀ {s t}, R s t → Alike R (f s s) (f t t)) : Twins R (get >>= f) := ⟨h⟩

instance (a : α) : Twins R (pure a : Handler σ ε α) := ⟨fun h => ⟨rfl, h⟩⟩
instance (e : ε) : Twins R (fail e : Handler σ ε α) := ⟨fun h => ⟨rfl, h⟩⟩
instance (r : Except ε α) : Twins R (ofExcept r : Handler σ ε α) := ⟨fun h => ⟨rfl, h⟩⟩

instance (o : Option α) (e : ε) : Twins R (orFail o e : Handler σ ε α) := by
  cases o <;> (unfold orFail; infer_instance)

instance (c : Prop) [Decidable c] (e : ε) : Twins R (refuseIf c e : Handler σ ε Unit) := by
  unfold refuseIf
  split <;> infer_instance

instance (c : Prop) [Decidable c] (x : Handler σ ε Unit) [hx : Twins R x] : Twins R (runIf c x) := by
  unfold runIf
  split <;> infer_instance

instance (x : Handler σ ε α) (f : α → Handler σ ε β) [hx : Twins R x] [hf : ∀ a, Twins R (f a)] : Twins R (x >>= f) :=
  ⟨fun h => (hx.alike h).bind fun a _ _ _ => (hf a).alike⟩

theorem Twins.bind {x : Handler σ ε α} {f : α → Handler σ ε β} (hx : Twins R x) (hf : ∀ a, Twins R (f a)) : Twins R (x >>= f) :=
  inferInstance

instance (x : Handler σ ε α) [hx : Twins R x] : Twins R (attempt x : Handler σ ε' (Except ε α)) :=
  ⟨fun h => ⟨congrArg Except.ok (hx.alike h).answer, (hx.alike h).states⟩⟩

instance (g : ε → ε') (x : Handler σ ε α) [hx : Twins R x] : Twins R (mapError g x) where
  alike {s t} h := by
    obtain ⟨hanswer, hstates⟩ := hx.alike h
    unfold mapError
    rcases hs : x s with ⟨e | a, s'⟩ <;> rcases ht : x t with ⟨e' | a', t'⟩ <;> rw [hs, ht] at hanswer hstates <;> cases hanswer
    · exact ⟨rfl, hstates⟩
    · exact ⟨rfl, hstates⟩

/-- Of a loop's body only what it does for the elements matters. -/
theorem Twins.forEach {as : List α} {f : α → Handler σ ε Unit} (hf : ∀ a ∈ as, Twins R (f a)) : Twins R (Handler.forEach as f) := by
  induction as with
  | nil => exact inferInstanceAs (Twins R (pure ()))
  | cons a as ih => exact .bind (hf a (List.mem_cons_self ..)) fun _ => ih fun b hb => hf b (List.mem_cons_of_mem _ hb)

theorem Twins.foldFor {as : List α} {b : β} {f : β → α → Handler σ ε β} (hf : ∀ a ∈ as, ∀ b, Twins R (f b a)) :
    Twins R (Handler.foldFor as b f) := by
  induction as generalizing b with
  | nil => exact inferInstanceAs (Twins R (pure b))
  | cons a as ih => exact .bind (hf a (List.mem_cons_self ..) b) fun _ => ih fun c hc => hf c (List.mem_cons_of_mem _ hc)

instance (as : List α) (f : α → Handler σ ε Unit) [hf : ∀ a, Twins R (f a)] : Twins R (forEach as f) := .forEach fun a _ => hf a

instance (as : List α) (b : β) (f : β → α → Handler σ ε β) [hf : ∀ b a, Twins R (f b a)] : Twins R (foldFor as b f) :=
  .foldFor fun a _ b => hf b a

end FidoTouch.Program.Handler
