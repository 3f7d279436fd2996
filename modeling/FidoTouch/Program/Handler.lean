import Mathlib.Control.Monad.Basic
import Mathlib.Order.Defs.Unbundled

/-! Commands over a mutable state that leave with a value or with an error.
An error keeps the state reached, as a jump to a common exit label does. -/
namespace FidoTouch.Program

/-- A command: from a state it returns a value or an error, and the state it reached. -/
def Handler (σ ε α : Type) : Type := σ → Except ε α × σ

namespace Handler
variable {σ τ ε ε' α β γ : Type}

protected def pure (a : α) : Handler σ ε α := fun s => (.ok a, s)

protected def bind (x : Handler σ ε α) (f : α → Handler σ ε β) : Handler σ ε β := fun s =>
  match x s with
  | (.ok a, s') => f a s'
  | (.error e, s') => (.error e, s')

instance : Monad (Handler σ ε) where
  pure := Handler.pure
  bind := Handler.bind

@[simp] theorem pure_run (a : α) (s : σ) : (pure a : Handler σ ε α) s = (.ok a, s) := rfl

theorem bind_run (x : Handler σ ε α) (f : α → Handler σ ε β) (s : σ) :
    (x >>= f) s = match x s with
      | (.ok a, s') => f a s'
      | (.error e, s') => (.error e, s') := rfl

theorem map_run (f : α → β) (x : Handler σ ε α) (s : σ) :
    (f <$> x) s = match x s with
      | (.ok a, s') => (.ok (f a), s')
      | (.error e, s') => (.error e, s') := rfl

theorem map_snd (f : α → β) (x : Handler σ ε α) (s : σ) : ((f <$> x) s).2 = (x s).2 := by
  rw [map_run]
  rcases x s with ⟨_ | _, _⟩ <;> rfl

private theorem id_map (x : Handler σ ε α) : id <$> x = x := by
  funext s
  rw [map_run]
  split <;> simp_all

private theorem bind_assoc (x : Handler σ ε α) (f : α → Handler σ ε β) (g : β → Handler σ ε γ) :
    x >>= f >>= g = x >>= fun a => f a >>= g := by
  funext s
  simp only [bind_run]
  rcases x s with ⟨_ | _, _⟩ <;> rfl

instance : LawfulMonad (Handler σ ε) :=
  .mk' (Handler σ ε) id_map (fun _ _ => rfl) bind_assoc

/-- Leave with an error, keeping the state. -/
def fail (e : ε) : Handler σ ε α := fun s => (.error e, s)

def get : Handler σ ε σ := fun s => (.ok s, s)

/-- Read a part of the state. -/
def gets (f : σ → α) : Handler σ ε α := fun s => (.ok (f s), s)

def modify (f : σ → σ) : Handler σ ε Unit := fun s => (.ok (), f s)

/-- The guard `if (c) error(e)`. -/
def refuseIf (c : Prop) [Decidable c] (e : ε) : Handler σ ε Unit :=
  if c then fail e else pure ()

/-- The statement `if (c) { x }`. -/
def runIf (c : Prop) [Decidable c] (x : Handler σ ε Unit) : Handler σ ε Unit :=
  if c then x else pure ()

/-- Go on with the value of an option, or leave with an error. -/
def orFail (o : Option α) (e : ε) : Handler σ ε α :=
  match o with
  | some a => pure a
  | none => fail e

/-- Go on with a computed value, or leave with its error. -/
def ofExcept (r : Except ε α) : Handler σ ε α := fun s => (r, s)

/-- Run a command and hand its result, error included, to the caller. -/
def attempt (x : Handler σ ε α) : Handler σ ε' (Except ε α) := fun s => (.ok (x s).1, (x s).2)

/-- Run a command whose error is a different one for the caller. -/
def mapError (f : ε → ε') (x : Handler σ ε α) : Handler σ ε' α := fun s =>
  match x s with
  | (.ok a, s') => (.ok a, s')
  | (.error e, s') => (.error (f e), s')

/-- Run a command on one part of a larger state. -/
def zoom (part : τ → σ) (put : σ → τ → τ) (x : Handler σ ε α) : Handler τ ε α := fun t =>
  ((x (part t)).1, put (x (part t)).2 t)

/-- Run a command for each element in turn. -/
def forEach : List α → (α → Handler σ ε Unit) → Handler σ ε Unit
  | [], _ => pure ()
  | a :: as, f => f a >>= fun _ => forEach as f

/-- Thread a value through a list of steps. -/
def foldFor : List α → β → (β → α → Handler σ ε β) → Handler σ ε β
  | [], b, _ => pure b
  | a :: as, b, f => f b a >>= fun b' => foldFor as b' f

@[simp] theorem fail_run (e : ε) (s : σ) : (fail e : Handler σ ε α) s = (.error e, s) := rfl
@[simp] theorem get_run (s : σ) : (get : Handler σ ε σ) s = (.ok s, s) := rfl
@[simp] theorem gets_run (f : σ → α) (s : σ) : (gets f : Handler σ ε α) s = (.ok (f s), s) := rfl
@[simp] theorem modify_run (f : σ → σ) (s : σ) : (modify f : Handler σ ε Unit) s = (.ok (), f s) := rfl
@[simp] theorem attempt_run (x : Handler σ ε α) (s : σ) :
    (attempt x : Handler σ ε' (Except ε α)) s = (.ok (x s).1, (x s).2) := rfl
@[simp] theorem ofExcept_run (r : Except ε α) (s : σ) : (ofExcept r : Handler σ ε α) s = (r, s) := rfl
@[simp] theorem zoom_run (part : τ → σ) (put : σ → τ → τ) (x : Handler σ ε α) (t : τ) :
    zoom part put x t = ((x (part t)).1, put (x (part t)).2 t) := rfl

@[simp] theorem refuseIf_true {c : Prop} [Decidable c] (h : c) (e : ε) :
    (refuseIf c e : Handler σ ε Unit) = fail e := by simp [refuseIf, h]
@[simp] theorem refuseIf_false {c : Prop} [Decidable c] (h : ¬ c) (e : ε) :
    (refuseIf c e : Handler σ ε Unit) = pure () := by simp [refuseIf, h]

@[simp] theorem runIf_true {c : Prop} [Decidable c] (h : c) (x : Handler σ ε Unit) : runIf c x = x := by
  simp [runIf, h]
@[simp] theorem runIf_false {c : Prop} [Decidable c] (h : ¬ c) (x : Handler σ ε Unit) :
    runIf c x = pure () := by simp [runIf, h]

@[simp] theorem ofExcept_ok_bind (a : α) (f : α → Handler σ ε β) : (ofExcept (.ok a) >>= f) = f a := rfl
@[simp] theorem orFail_some_bind (a : α) (e : ε) (f : α → Handler σ ε β) : (orFail (some a) e >>= f) = f a := rfl

/-! ### Inversion of a successful run -/

theorem bind_ok {x : Handler σ ε α} {f : α → Handler σ ε β} {s s'' : σ} {b : β}
    (h : (x >>= f) s = (.ok b, s'')) : ∃ a s', x s = (.ok a, s') ∧ f a s' = (.ok b, s'') := by
  rw [bind_run] at h
  rcases hx : x s with ⟨r, s'⟩
  rw [hx] at h
  cases r with
  | error e => simp at h
  | ok a => exact ⟨a, s', rfl, h⟩

/-- Two commands in a row that succeed leave what the second leaves. -/
theorem bind_eq {x : Handler σ ε α} {f : α → Handler σ ε β} {s s' : σ} {a : α} (h : x s = (.ok a, s')) :
    (x >>= f) s = f a s' := by rw [bind_run, h]

theorem run_of_ok {x : Handler σ ε α} {s : σ} {a : α} (h : (x s).1 = .ok a) : x s = (.ok a, (x s).2) :=
  Prod.ext h rfl

theorem map_ok {f : α → β} {x : Handler σ ε α} {s s' : σ} {b : β} (h : (f <$> x) s = (.ok b, s')) :
    ∃ a, x s = (.ok a, s') ∧ b = f a := by
  rw [map_run] at h
  rcases hx : x s with ⟨_ | a, t⟩ <;> rw [hx] at h
  · simp at h
  · simp only [Prod.mk.injEq, Except.ok.injEq] at h
    exact ⟨a, by rw [h.2], h.1.symm⟩

theorem attempt_ok {x : Handler σ ε α} {s s' : σ} {r : Except ε α}
    (h : (attempt x : Handler σ ε' (Except ε α)) s = (.ok r, s')) : x s = (r, s') := by
  simp only [attempt_run, Prod.mk.injEq, Except.ok.injEq] at h
  exact Prod.ext h.1 h.2

theorem mapError_ok {f : ε → ε'} {x : Handler σ ε α} {s s' : σ} {a : α} (h : mapError f x s = (.ok a, s')) :
    x s = (.ok a, s') := by
  unfold mapError at h
  rcases hx : x s with ⟨_ | b, t⟩ <;> rw [hx] at h
  · simp at h
  · simpa using h

theorem ofExcept_ok {r : Except ε α} {s s' : σ} {a : α} (h : (ofExcept r : Handler σ ε α) s = (.ok a, s')) :
    r = .ok a ∧ s = s' := by
  rw [ofExcept_run, Prod.mk.injEq] at h
  exact h

theorem pure_ok {a b : α} {s s' : σ} (h : (pure a : Handler σ ε α) s = (.ok b, s')) : b = a ∧ s = s' := by
  simp only [pure_run, Prod.mk.injEq, Except.ok.injEq] at h
  exact ⟨h.1.symm, h.2⟩

theorem gets_ok {f : σ → α} {s s' : σ} {a : α} (h : (gets f : Handler σ ε α) s = (.ok a, s')) : a = f s ∧ s = s' := by
  simp only [gets_run, Prod.mk.injEq, Except.ok.injEq] at h
  exact ⟨h.1.symm, h.2⟩

/-- A run of which only the success is known has some value. -/
theorem exists_ok {r : Except ε α} (h : r.toBool = true) : ∃ a, r = .ok a := by
  cases r with
  | error e => cases h
  | ok a => exact ⟨a, rfl⟩

theorem refuseIf_ok {c : Prop} [Decidable c] {e : ε} {s s' : σ} {u : Unit}
    (h : (refuseIf c e : Handler σ ε Unit) s = (.ok u, s')) : ¬ c ∧ s = s' := by
  by_cases hc : c
  · simp [hc] at h
  · rw [refuseIf_false hc, pure_run] at h
    exact ⟨hc, (Prod.ext_iff.mp h).2⟩

theorem refuseIf_bind_ok {c : Prop} [Decidable c] {e : ε} {f : Unit → Handler σ ε β} {s s' : σ} {b : β}
    (h : ((refuseIf c e : Handler σ ε Unit) >>= f) s = (.ok b, s')) : ¬ c ∧ f () s = (.ok b, s') := by
  obtain ⟨_, t, h1, h2⟩ := bind_ok h
  obtain ⟨hc, rfl⟩ := refuseIf_ok h1
  exact ⟨hc, h2⟩

theorem orFail_ok {o : Option α} {e : ε} {s s' : σ} {a : α}
    (h : (orFail o e : Handler σ ε α) s = (.ok a, s')) : o = some a ∧ s = s' := by
  cases o with
  | none => simp [orFail] at h
  | some b =>
    simp only [orFail, pure_run, Prod.mk.injEq, Except.ok.injEq] at h
    exact ⟨by rw [h.1], h.2⟩

/-- What a second command never lets succeed fails. -/
theorem bind_fails {x : Handler σ ε α} {f : α → Handler σ ε β} {s : σ}
    (h : ∀ a s', x s = (.ok a, s') → ∃ e, (f a s').1 = .error e) : ∃ e, ((x >>= f) s).1 = .error e := by
  rw [bind_run]
  rcases hs : x s with ⟨e | a, s'⟩
  · exact ⟨e, rfl⟩
  · exact h a s' hs

/-! ### Commands without an error -/

class NeverFails (x : Handler σ ε α) : Prop where
  ok : ∀ s, ∃ a s', x s = (.ok a, s')

instance (a : α) : NeverFails (pure a : Handler σ ε α) := ⟨fun s => ⟨a, s, rfl⟩⟩
instance : NeverFails (get : Handler σ ε σ) := ⟨fun s => ⟨s, s, rfl⟩⟩
instance (f : σ → σ) : NeverFails (modify f : Handler σ ε Unit) := ⟨fun s => ⟨(), f s, rfl⟩⟩

theorem NeverFails.bind {x : Handler σ ε α} {f : α → Handler σ ε β} (hx : NeverFails x) (hf : ∀ a, NeverFails (f a)) :
    NeverFails (x >>= f) where
  ok s := by
    obtain ⟨a, s', hrun⟩ := hx.ok s
    rw [bind_eq hrun]
    exact (hf a).ok s'

instance (x : Handler σ ε α) (f : α → Handler σ ε β) [hx : NeverFails x] [hf : ∀ a, NeverFails (f a)] : NeverFails (x >>= f) :=
  .bind hx hf

instance (c : Prop) [Decidable c] (x : Handler σ ε Unit) [hx : NeverFails x] : NeverFails (runIf c x) := by
  unfold runIf
  split <;> infer_instance

instance (f : σ → α) : NeverFails (gets f : Handler σ ε α) := ⟨fun s => ⟨f s, s, rfl⟩⟩
instance (x : Handler σ ε α) : NeverFails (attempt x : Handler σ ε' (Except ε α)) := ⟨fun s => ⟨(x s).1, (x s).2, rfl⟩⟩

instance (as : List α) (b : β) (f : β → α → Handler σ ε β) [hf : ∀ b a, NeverFails (f b a)] : NeverFails (foldFor as b f) := by
  induction as generalizing b with
  | nil => exact inferInstanceAs (NeverFails (pure b))
  | cons a as ih => exact inferInstanceAs (NeverFails (f b a >>= fun b' => foldFor as b' f))

/-! ### What a success returns -/

/-- Whatever state the command is run in, a value that it returns has the property. -/
def Yields (Q : α → Prop) (x : Handler σ ε α) : Prop := ∀ s a s', x s = (.ok a, s') → Q a

theorem yields_pure {Q : α → Prop} {a : α} (h : Q a) : Yields Q (pure a : Handler σ ε α) := by
  intro s b s' hrun
  exact (pure_ok hrun).1 ▸ h

theorem yields_fail {Q : α → Prop} (e : ε) : Yields Q (fail e : Handler σ ε α) := by
  intro s a s' hrun
  simp at hrun

theorem Yields.bind {P : α → Prop} {Q : β → Prop} {x : Handler σ ε α} {f : α → Handler σ ε β} (hx : Yields P x)
    (hf : ∀ a, P a → Yields Q (f a)) : Yields Q (x >>= f) := by
  intro s b s' hrun
  obtain ⟨a, t, ha, hb⟩ := bind_ok hrun
  exact hf a (hx s a t ha) t b s' hb

/-- What comes first may be anything. -/
theorem yields_after {Q : β → Prop} {x : Handler σ ε α} {f : α → Handler σ ε β} (hf : ∀ a, Yields Q (f a)) : Yields Q (x >>= f) :=
  Yields.bind (P := fun _ => True) (fun _ _ _ _ => trivial) fun a _ => hf a

theorem Yields.attempt {Q : α → Prop} {x : Handler σ ε α} (hx : Yields Q x) :
    Yields (fun r => ∀ a, r = .ok a → Q a) (Handler.attempt x : Handler σ ε' (Except ε α)) := by
  intro s r s' hrun a hr
  exact hx s a s' (hr ▸ attempt_ok hrun)

/-- A step that keeps a property of the value threaded through a list keeps it to the end. -/
theorem yields_foldFor {Q : β → Prop} {f : β → α → Handler σ ε β} (hf : ∀ b a, Q b → Yields Q (f b a)) (as : List α) {b : β}
    (hb : Q b) : Yields Q (foldFor as b f) := by
  induction as generalizing b with
  | nil => exact yields_pure hb
  | cons a as ih => exact (hf b a hb).bind fun b' hb' => ih hb'

/-! ### Refusals -/

/-- The command leaves with an error before it has changed anything. -/
def Refuses (x : Handler σ ε α) (s : σ) : Prop := ∃ e, x s = (.error e, s)

theorem Refuses.bind {x : Handler σ ε α} {s : σ} (h : Refuses x s) (f : α → Handler σ ε β) : Refuses (x >>= f) s := by
  obtain ⟨e, h⟩ := h
  exact ⟨e, by rw [bind_run, h]⟩

theorem refuses_refuseIf {c : Prop} [Decidable c] (h : c) (e : ε) (s : σ) :
    Refuses (refuseIf c e : Handler σ ε Unit) s := by
  rw [refuseIf_true h]
  exact ⟨e, rfl⟩

/-- A part of the state may be read first. -/
theorem refuses_gets {f : σ → α} {k : α → Handler σ ε β} {s : σ} (h : Refuses (k (f s)) s) : Refuses (gets f >>= k) s := h

/-- A guard that lets the command through may be passed by. -/
theorem refuses_guarded {c : Prop} [Decidable c] {e : ε} {f : Unit → Handler σ ε β} {s : σ}
    (h : ¬ c → Refuses (f ()) s) : Refuses (refuseIf c e >>= f) s := by
  by_cases hc : c
  · exact (refuses_refuseIf hc e s).bind f
  · rw [refuseIf_false hc]
    exact h hc

/-! ### Two-state relations kept by a command, whatever its exit -/

/-- Every run of the command, successful or not, relates the state before to the state after. -/
class Keeps (R : σ → σ → Prop) (x : Handler σ ε α) : Prop where
  rel : ∀ s, R s (x s).2

variable {R : σ → σ → Prop}

theorem Keeps.of_run {x : Handler σ ε α} (hx : Keeps R x) {s s' : σ} {r : Except ε α} (h : x s = (r, s')) : R s s' := by
  have hrel := hx.rel s
  rwa [h] at hrel

instance [Std.Refl R] (a : α) : Keeps R (pure a : Handler σ ε α) := ⟨fun s => Std.Refl.refl s⟩
instance [Std.Refl R] (e : ε) : Keeps R (fail e : Handler σ ε α) := ⟨fun s => Std.Refl.refl s⟩
instance [Std.Refl R] : Keeps R (get : Handler σ ε σ) := ⟨fun s => Std.Refl.refl s⟩
instance [Std.Refl R] (f : σ → α) : Keeps R (gets f : Handler σ ε α) := ⟨fun s => Std.Refl.refl s⟩
instance [Std.Refl R] (r : Except ε α) : Keeps R (ofExcept r : Handler σ ε α) :=
  ⟨fun s => Std.Refl.refl s⟩

instance [Std.Refl R] (c : Prop) [Decidable c] (e : ε) : Keeps R (refuseIf c e : Handler σ ε Unit) := by
  unfold refuseIf
  split <;> infer_instance

instance [Std.Refl R] (c : Prop) [Decidable c] (x : Handler σ ε Unit) [hx : Keeps R x] :
    Keeps R (runIf c x) := by
  unfold runIf
  split <;> infer_instance

instance [Std.Refl R] (o : Option α) (e : ε) : Keeps R (orFail o e : Handler σ ε α) := by
  cases o <;> (unfold orFail; infer_instance)

instance [IsTrans σ R] (x : Handler σ ε α) (f : α → Handler σ ε β) [hx : Keeps R x]
    [hf : ∀ a, Keeps R (f a)] : Keeps R (x >>= f) where
  rel s := by
    rw [bind_run]
    have h := hx.rel s
    rcases hxs : x s with ⟨r, s'⟩
    rw [hxs] at h
    cases r with
    | error e => exact h
    | ok a => exact IsTrans.trans _ _ _ h ((hf a).rel s')

instance (f : α → β) (x : Handler σ ε α) [hx : Keeps R x] : Keeps R (f <$> x) where
  rel s := by
    have h := hx.rel s
    rw [map_run]
    rcases hxs : x s with ⟨_ | _, _⟩ <;> simpa [hxs] using h

theorem Keeps.bind [IsTrans σ R] {x : Handler σ ε α} {f : α → Handler σ ε β} (hx : Keeps R x)
    (hf : ∀ a, Keeps R (f a)) : Keeps R (x >>= f) := inferInstance

/-- In one state, a relation is kept by two commands in a row when the first keeps it there and the second where it
goes on. -/
theorem rel_bind [IsTrans σ R] {x : Handler σ ε α} {f : α → Handler σ ε β} {s : σ} (hx : R s (x s).2)
    (hf : ∀ a s', x s = (.ok a, s') → R s' (f a s').2) : R s ((x >>= f) s).2 := by
  rw [bind_run]
  rcases hs : x s with ⟨e | a, s'⟩ <;> rw [hs] at hx
  · exact hx
  · exact IsTrans.trans _ _ _ hx (hf a s' hs)

/-- A loop keeps what its turns keep of the value they thread, each from a state that the turns before it lead to. -/
theorem foldFor_ok [IsTrans σ R] {as : List α} {f : β → α → Handler σ ε β} {b b' : β} {s₀ s s' : σ}
    (h : foldFor as b f s = (.ok b', s')) [hkeeps : ∀ b a, Keeps R (f b a)] {I : β → Prop} (hs : R s₀ s) (hb : I b)
    (hf : ∀ b, ∀ a ∈ as, ∀ s b' s', R s₀ s → I b → f b a s = (.ok b', s') → I b') : I b' := by
  induction as generalizing b s with
  | nil =>
    obtain ⟨rfl, -⟩ := pure_ok h
    exact hb
  | cons a as ih =>
    obtain ⟨next, t, hstep, hrest⟩ := bind_ok h
    have ht : R s₀ t := IsTrans.trans _ _ _ hs ((hkeeps b a).of_run hstep)
    exact ih hrest ht (hf b a List.mem_cons_self s next t hs hb hstep) fun b a ha => hf b a (List.mem_cons_of_mem _ ha)

/-- A command that keeps a relation may come before one that keeps it or ends as told. -/
theorem Keeps.bind_or [IsTrans σ R] {x : Handler σ ε α} {f : α → Handler σ ε β} {Q : Except ε β × σ → Prop} {s : σ}
    (hx : Keeps R x) (h : ∀ a s', x s = (.ok a, s') → R s' (f a s').2 ∨ Q (f a s')) :
    R s ((x >>= f) s).2 ∨ Q ((x >>= f) s) := by
  have hrel := hx.rel s
  rw [bind_run]
  rcases hs : x s with ⟨e | a, s'⟩ <;> rw [hs] at hrel
  · exact .inl hrel
  · rcases h a s' hs with h | h
    · exact .inl (IsTrans.trans _ _ _ hrel h)
    · exact .inr h

instance (c : Prop) [Decidable c] (x y : Handler σ ε α) [hx : Keeps R x] [hy : Keeps R y] :
    Keeps R (if c then x else y) := by
  split <;> assumption

instance (x : Handler σ ε α) [hx : Keeps R x] : Keeps R (attempt x : Handler σ ε' (Except ε α)) :=
  ⟨hx.rel⟩

instance (f : ε → ε') (x : Handler σ ε α) [hx : Keeps R x] : Keeps R (mapError f x) where
  rel s := by
    have h := hx.rel s
    unfold mapError
    rcases hxs : x s with ⟨_ | _, _⟩ <;> simpa [hxs] using h

instance [Std.Refl R] [IsTrans σ R] (as : List α) (f : α → Handler σ ε Unit) [hf : ∀ a, Keeps R (f a)] :
    Keeps R (forEach as f) := by
  induction as with
  | nil => unfold forEach; infer_instance
  | cons a as ih => unfold forEach; infer_instance

instance [Std.Refl R] [IsTrans σ R] (as : List α) (b : β) (f : β → α → Handler σ ε β)
    [hf : ∀ b a, Keeps R (f b a)] : Keeps R (foldFor as b f) := by
  induction as generalizing b with
  | nil => unfold foldFor; infer_instance
  | cons a as ih => unfold foldFor; infer_instance

/-- The command leaves with an error, and what it changed before is in the relation. -/
def RefusesWithin (R : σ → σ → Prop) (x : Handler σ ε α) (s : σ) : Prop := ∃ e s', x s = (.error e, s') ∧ R s s'

theorem Refuses.within [Std.Refl R] {x : Handler σ ε α} {s : σ} (h : Refuses x s) : RefusesWithin R x s := by
  obtain ⟨e, h⟩ := h
  exact ⟨e, s, h, Std.Refl.refl s⟩

theorem RefusesWithin.bind {x : Handler σ ε α} {s : σ} (h : RefusesWithin R x s) (f : α → Handler σ ε β) :
    RefusesWithin R (x >>= f) s := by
  obtain ⟨e, s', h, hrel⟩ := h
  exact ⟨e, s', by rw [bind_run, h], hrel⟩

/-- Nothing is lost by a first command that keeps the relation. -/
theorem RefusesWithin.after [IsTrans σ R] {x : Handler σ ε α} {f : α → Handler σ ε β} {s : σ} (hx : Keeps R x)
    (h : ∀ a s', x s = (.ok a, s') → RefusesWithin R (f a) s') : RefusesWithin R (x >>= f) s := by
  have hrel := hx.rel s
  rcases hs : x s with ⟨e | a, s'⟩ <;> rw [hs] at hrel
  · exact ⟨e, s', by rw [bind_run, hs], hrel⟩
  · obtain ⟨e, t, ht, hrel'⟩ := h a s' hs
    exact ⟨e, t, by rw [bind_eq hs, ht], IsTrans.trans _ _ _ hrel hrel'⟩

/-! ### Invariants -/

/-- The relation that a command keeps when an invariant survives it. -/
def Preserves (I : σ → Prop) (s s' : σ) : Prop := I s → I s'

instance (I : σ → Prop) : Std.Refl (Preserves I) := ⟨fun _ => id⟩
instance (I : σ → Prop) : IsTrans σ (Preserves I) := ⟨fun _ _ _ h h' => h' ∘ h⟩

/-- Where the invariant decides which way a command goes, that way is enough. -/
theorem preserves_of_eq {I : σ → Prop} {x : Handler σ ε α} (y : σ → Handler σ ε α) (hy : ∀ s, Keeps (Preserves I) (y s))
    (h : ∀ s, I s → x s = y s s) : Keeps (Preserves I) x where
  rel s hs := by
    rw [h s hs]
    exact (hy s).rel s hs

end Handler
end FidoTouch.Program
