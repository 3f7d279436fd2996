import Mathlib.Logic.Function.Basic
import FidoTouch.Program.Handler

/-! A file store with a volatile view, a durable image and operations that may fail.
A triple bounds what a command leaves on success, on an error exit and at every power loss. -/
namespace FidoTouch.Storage
open FidoTouch.Program Handler

/-- What each file holds, and `none` where there is no file. -/
abbrev Image (κ β : Type) := κ → Option (List β)

inductive Event (κ β : Type) where
  | write (k : κ) (v : Option (List β))
  | erase
  | commit (im : Image κ β)

/-- `fates` tells which of the next failable operations succeed; past its end they all do.
`log` is a ghost field: everything done so far, newest first. -/
structure Store (κ β : Type) where
  view : Image κ β
  durable : Image κ β
  fates : List Bool
  log : List (Event κ β)

variable {κ β ε α γ : Type} [DecidableEq κ]

namespace Store

def set (s : Store κ β) (k : κ) (v : Option (List β)) : Store κ β :=
  { s with view := Function.update s.view k v, log := .write k v :: s.log }

def sync (s : Store κ β) : Store κ β := { s with durable := s.view, log := .commit s.view :: s.log }

/-- All files gone from the view. -/
def erase (s : Store κ β) : Store κ β := { s with view := fun _ => none, log := .erase :: s.log }

/-- The store after power comes back with a given durable image. -/
def powerUp (im : Image κ β) (fates : List Bool) : Store κ β := ⟨im, im, fates, []⟩

/-- The images a power loss can leave while a command takes `s` to `s'`. -/
def CrashImage (s s' : Store κ β) (im : Image κ β) : Prop :=
  im = s.durable ∨ ∃ new, s'.log = new ++ s.log ∧ .commit im ∈ new

omit [DecidableEq κ] in
@[simp] theorem sync_view (s : Store κ β) : s.sync.view = s.view := rfl
omit [DecidableEq κ] in
@[simp] theorem sync_durable (s : Store κ β) : s.sync.durable = s.view := rfl
@[simp] theorem set_view (s : Store κ β) (k : κ) (v : Option (List β)) :
    (s.set k v).view = Function.update s.view k v := rfl
@[simp] theorem set_durable (s : Store κ β) (k : κ) (v : Option (List β)) :
    (s.set k v).durable = s.durable := rfl
@[simp] theorem set_fates (s : Store κ β) (k : κ) (v : Option (List β)) : (s.set k v).fates = s.fates := rfl
omit [DecidableEq κ] in
@[simp] theorem sync_fates (s : Store κ β) : s.sync.fates = s.fates := rfl

end Store

/-- An operation that changes the store when its fate is to succeed, and reports which. -/
def tryOp (f : Store κ β → Store κ β) : Handler (Store κ β) ε Bool := fun s =>
  match s.fates with
  | [] => (.ok true, f s)
  | true :: fs => (.ok true, f { s with fates := fs })
  | false :: fs => (.ok false, { s with fates := fs })

omit [DecidableEq κ] in
theorem tryOp_taken {s : Store κ β} (h : s.fates.head? ≠ some false) (f : Store κ β → Store κ β) :
    (tryOp f : Handler (Store κ β) ε Bool) s = (.ok true, f { s with fates := s.fates.tail }) := by
  obtain ⟨view, durable, fates, log⟩ := s
  rcases fates with _ | ⟨_ | _, fates⟩
  · rfl
  · exact absurd rfl h
  · rfl

omit [DecidableEq κ] in
theorem tryOp_failed {s : Store κ β} (h : s.fates.head? = some false) (f : Store κ β → Store κ β) :
    (tryOp f : Handler (Store κ β) ε Bool) s = (.ok false, { s with fates := s.fates.tail }) := by
  obtain ⟨view, durable, fates, log⟩ := s
  rcases fates with _ | ⟨_ | _, fates⟩
  · cases h
  · rfl
  · cases h

omit [DecidableEq κ] in
/-- An operation happens or fails, and the next fate is used up. -/
theorem tryOp_cases (f : Store κ β → Store κ β) (s : Store κ β) :
    (tryOp f : Handler (Store κ β) ε Bool) s = (.ok true, f { s with fates := s.fates.tail }) ∨
      (tryOp f : Handler (Store κ β) ε Bool) s = (.ok false, { s with fates := s.fates.tail }) ∧
        s.fates = false :: s.fates.tail := by
  obtain ⟨view, durable, fates, log⟩ := s
  rcases fates with _ | ⟨_ | _, fates⟩
  · exact .inl rfl
  · exact .inr ⟨rfl, rfl⟩
  · exact .inl rfl

/-- `file_new`: an existing file is returned as it is. -/
def fileNew (k : κ) : Handler (Store κ β) ε Bool :=
  tryOp fun s => if s.view k = none then s.set k (some []) else s

def filePutData (k : κ) (v : List β) : Handler (Store κ β) ε Bool := tryOp fun s => s.set k (some v)

/-- A write that happens changes the file; one that fails does not. -/
theorem filePutData_run (k : κ) (v : List β) (s : Store κ β) :
    (filePutData k v : Handler (Store κ β) ε Bool) s = (.ok true, ({ s with fates := s.fates.tail }).set k (some v)) ∨
      (filePutData k v : Handler (Store κ β) ε Bool) s = (.ok false, { s with fates := s.fates.tail }) ∧ s.fates.head? = some false := by
  rcases tryOp_cases (ε := ε) (fun s => s.set k (some v)) s with hrun | ⟨hrun, hfates⟩
  · exact .inl hrun
  · exact .inr ⟨hrun, by rw [hfates]; rfl⟩

theorem filePutData_taken {s : Store κ β} (h : s.fates.head? ≠ some false) (k : κ) (v : List β) :
    (filePutData k v : Handler (Store κ β) ε Bool) s = (.ok true, ({ s with fates := s.fates.tail }).set k (some v)) := tryOp_taken h _

theorem filePutData_failed {s : Store κ β} (h : s.fates.head? = some false) (k : κ) (v : List β) :
    (filePutData k v : Handler (Store κ β) ε Bool) s = (.ok false, { s with fates := s.fates.tail }) := tryOp_failed h _

def fileDeleteNoCommit (k : κ) : Handler (Store κ β) ε Bool := tryOp fun s => s.set k none

def flashCommitSync : Handler (Store κ β) ε Bool := tryOp Store.sync

def flashCommit : Handler (Store κ β) ε Unit := modify Store.sync

/-- `file_has_data` -/
def hasData (f : Option (List β)) : Bool := match f with
  | some (_ :: _) => true
  | _ => false

/-! ### Triples with an abort condition -/

/-- From a view in `P` the command ends well in `Q`; an error exit, and every image made
durable on the way, is in `C`. -/
def Triple (P : Image κ β → Prop) (h : Handler (Store κ β) ε α) (Q : α → Image κ β → Prop)
    (C : Image κ β → Prop) : Prop :=
  ∀ s, P s.view →
    (match (h s).1 with
      | .ok a => Q a (h s).2.view
      | .error _ => C (h s).2.view) ∧
    ∃ new, (h s).2.log = new ++ s.log ∧ ∀ im, Event.commit im ∈ new → C im

variable {P P' : Image κ β → Prop} {C C' : Image κ β → Prop} {h : Handler (Store κ β) ε α}
  {Q Q' : α → Image κ β → Prop}

namespace Triple

omit [DecidableEq κ]

theorem conseq (H : Triple P h Q C) (hP : ∀ v, P' v → P v) (hQ : ∀ a v, Q a v → Q' a v)
    (hC : ∀ v, C v → C' v) : Triple P' h Q' C' := by
  intro s hs
  obtain ⟨hr, new, hlog, hnew⟩ := H s (hP _ hs)
  refine ⟨?_, new, hlog, fun im him => hC _ (hnew im him)⟩
  cases hh : (h s).1 with
  | ok a => rw [hh] at hr; exact hQ _ _ hr
  | error e => rw [hh] at hr; exact hC _ hr

theorem and {R : Image κ β → Prop} (H : Triple P h Q C) (H' : Triple P' h Q' C') (hR : ∀ v, R v → P v ∧ P' v) :
    Triple R h (fun a v => Q a v ∧ Q' a v) (fun v => C v ∧ C' v) := by
  intro s hs
  obtain ⟨hr, new, hlog, hnew⟩ := H s (hR _ hs).1
  obtain ⟨hr', new', hlog', hnew'⟩ := H' s (hR _ hs).2
  obtain rfl : new = new' := List.append_cancel_right (hlog.symm.trans hlog')
  refine ⟨?_, new, hlog, fun im him => ⟨hnew im him, hnew' im him⟩⟩
  cases hh : (h s).1 with
  | ok a => rw [hh] at hr hr'; exact ⟨hr, hr'⟩
  | error e => rw [hh] at hr hr'; exact ⟨hr, hr'⟩

theorem pre (H : Triple P h Q C) (hP : ∀ v, P' v → P v) : Triple P' h Q C :=
  H.conseq hP (fun _ _ q => q) (fun _ c => c)

theorem post (H : Triple P h Q C) (hQ : ∀ a v, Q a v → Q' a v) : Triple P h Q' C :=
  H.conseq (fun _ p => p) hQ (fun _ c => c)

theorem pure (a : α) (hQ : ∀ v, P v → Q a v) : Triple P (pure a : Handler (Store κ β) ε α) Q C :=
  fun s hs => ⟨hQ _ hs, [], rfl, by simp⟩

theorem fail (e : ε) (hC : ∀ v, P v → C v) : Triple P (fail e : Handler (Store κ β) ε α) Q C :=
  fun s hs => ⟨hC _ hs, [], rfl, by simp⟩

/-- The view read is the view the command goes on in. -/
theorem view : Triple P (gets Store.view : Handler (Store κ β) ε _) (fun a v => a = v ∧ P v) C :=
  fun _ hs => ⟨⟨rfl, hs⟩, [], rfl, by simp⟩

theorem bind {f : α → Handler (Store κ β) ε γ} {R : γ → Image κ β → Prop}
    (H : Triple P h Q C) (K : ∀ a, Triple (Q a) (f a) R C) : Triple P (h >>= f) R C := by
  intro s hs
  obtain ⟨hr, new, hlog, hnew⟩ := H s hs
  rw [bind_run]
  rcases hh : h s with ⟨_ | a, s'⟩ <;> rw [hh] at hr hlog
  · exact ⟨hr, new, hlog, hnew⟩
  · obtain ⟨hr', new', hlog', hnew'⟩ := K a s' hr
    refine ⟨hr', new' ++ new, by rw [hlog', hlog, List.append_assoc], fun im him => ?_⟩
    rcases List.mem_append.mp him with him | him
    · exact hnew' im him
    · exact hnew im him

/-- A fact the precondition decides may be assumed for the whole command. -/
theorem of_pre (H : ∀ v, P v → Triple (· = v) h Q C) : Triple P h Q C :=
  fun s hs => H s.view hs s rfl

theorem refuseIf {c : Prop} [Decidable c] (e : ε) (hC : c → ∀ v, P v → C v) :
    Triple P (refuseIf c e : Handler (Store κ β) ε Unit) (fun _ v => ¬ c ∧ P v) C := by
  by_cases hc : c
  · rw [refuseIf_true hc]; exact .fail e (hC hc)
  · rw [refuseIf_false hc]; exact .pure () fun v hv => ⟨hc, hv⟩

theorem ite {c : Prop} [Decidable c] {h' : Handler (Store κ β) ε α} (H : c → Triple P h Q C)
    (H' : ¬ c → Triple P h' Q C) : Triple P (if c then h else h') Q C := by
  split
  · exact H ‹_›
  · exact H' ‹_›

theorem runIf {c : Prop} [Decidable c] {x : Handler (Store κ β) ε Unit}
    (H : c → Triple P x (fun _ => P) C) : Triple P (runIf c x) (fun _ => P) C :=
  .ite H fun _ => .pure () fun _ hv => hv

/-- A test of what the command did: it goes on only when the test fails. -/
theorem checked {c : α → Prop} [∀ a, Decidable (c a)] {R : Image κ β → Prop} (e : ε)
    (H : Triple P h Q C) (hC : ∀ a v, c a → Q a v → C v) (hR : ∀ a v, ¬ c a → Q a v → R v) :
    Triple P (h >>= fun a => Handler.refuseIf (c a) e) (fun _ => R) C :=
  .bind H fun a => (Triple.refuseIf e fun hc v => hC a v hc).post fun _ v hv => hR a v hv.1 hv.2

theorem ofExcept (r : Except ε α) (hC : ∀ e, r = .error e → ∀ v, P v → C v) :
    Triple P (ofExcept r : Handler (Store κ β) ε α) (fun a v => r = .ok a ∧ P v) C := by
  intro s hs
  cases r with
  | ok a => exact ⟨⟨rfl, hs⟩, [], rfl, by simp⟩
  | error e => exact ⟨hC e rfl _ hs, [], rfl, by simp⟩

theorem forEach {f : γ → Handler (Store κ β) ε Unit} (as : List γ)
    (H : ∀ a ∈ as, Triple P (f a) (fun _ => P) C) : Triple P (Handler.forEach as f) (fun _ => P) C := by
  induction as with
  | nil => exact .pure () fun _ hv => hv
  | cons a as ih =>
    exact .bind (H a (by simp)) fun _ => ih fun b hb => H b (by simp [hb])

theorem commitSync (hC : ∀ v, P v → C v) :
    Triple P (flashCommitSync : Handler (Store κ β) ε Bool) (fun _ => P) C := by
  intro s hs
  unfold flashCommitSync tryOp
  rcases s.fates with _ | ⟨_ | _, fs⟩
  · exact ⟨hs, [.commit s.view], rfl, by simpa using hC _ hs⟩
  · exact ⟨hs, [], rfl, by simp⟩
  · exact ⟨hs, [.commit s.view], rfl, by simpa using hC _ hs⟩

theorem commit (hC : ∀ v, P v → C v) :
    Triple P (flashCommit : Handler (Store κ β) ε Unit) (fun _ => P) C :=
  fun s hs => ⟨hs, [.commit s.view], rfl, by simpa using hC _ hs⟩

/-- Power is lost before the command made anything durable, or in the abort condition. -/
theorem crash_or (H : Triple P h Q C) {s : Store κ β} (hs : P s.view) {im : Image κ β}
    (him : Store.CrashImage s (h s).2 im) : im = s.durable ∨ C im := by
  obtain ⟨-, new, hlog, hnew⟩ := H s hs
  refine him.imp id fun ⟨new', hlog', him⟩ => ?_
  rw [hlog] at hlog'
  exact hnew im (List.append_cancel_right hlog' ▸ him)

theorem crash (H : Triple P h Q C) {s : Store κ β} (hs : P s.view) (hd : C s.durable) {im : Image κ β}
    (him : Store.CrashImage s (h s).2 im) : C im :=
  (H.crash_or hs him).elim (fun h => h ▸ hd) id

theorem error {e : ε} (H : Triple P h Q C) {s : Store κ β} (hs : P s.view) (he : (h s).1 = .error e) :
    C (h s).2.view := by
  have hr := (H s hs).1
  rwa [he] at hr

theorem ok {a : α} (H : Triple P h Q C) {s : Store κ β} (hs : P s.view) (ha : (h s).1 = .ok a) :
    Q a (h s).2.view := by
  have hr := (H s hs).1
  rwa [ha] at hr

/-- What holds at every exit holds of the view it ends in. -/
theorem ends (H : Triple P h (fun _ => C) C) {s : Store κ β} (hs : P s.view) : C (h s).2.view := by
  cases hr : (h s).1 with
  | ok a => exact H.ok hs hr
  | error e => exact H.error hs hr

end Triple

private theorem Triple.write {R : Image κ β → Prop} {f : Store κ β → Store κ β} {k : κ}
    {v : Option (List β)} (hf : ∀ s, f s = s.set k v ∨ f s = s ∧ R s.view)
    (hR : ∀ im, P im → R (Function.update im k v)) :
    Triple P (tryOp f : Handler (Store κ β) ε Bool) (fun b im => if b then R im else P im) C := by
  have applied : ∀ s : Store κ β, P s.view →
      R (f s).view ∧ ∃ new, (f s).log = new ++ s.log ∧ ∀ im, Event.commit im ∈ new → C im := by
    intro s hs
    rcases hf s with h | ⟨h, hr⟩ <;> rw [h]
    · exact ⟨hR _ hs, [.write k v], rfl, by simp⟩
    · exact ⟨hr, [], rfl, by simp⟩
  intro s hs
  unfold tryOp
  rcases hs' : s.fates with _ | ⟨_ | _, fs⟩
  · exact applied s hs
  · exact ⟨hs, [], rfl, by simp⟩
  · exact applied { s with fates := fs } hs

/-- A write either happens, or is refused with the view as it was. -/
theorem Triple.put {R : Image κ β → Prop} (k : κ) (v : List β)
    (hR : ∀ im, P im → R (Function.update im k (some v))) :
    Triple P (filePutData k v : Handler (Store κ β) ε Bool) (fun b im => if b then R im else P im) C :=
  .write (fun _ => .inl rfl) hR

theorem Triple.delete {R : Image κ β → Prop} (k : κ)
    (hR : ∀ im, P im → R (Function.update im k none)) :
    Triple P (fileDeleteNoCommit k : Handler (Store κ β) ε Bool) (fun b im => if b then R im else P im) C :=
  .write (fun _ => .inl rfl) hR

theorem Triple.new {k : κ} (hP : ∀ im, P im → im k = none → P (Function.update im k (some []))) :
    Triple P (fileNew k : Handler (Store κ β) ε Bool) (fun _ => P) C := by
  intro s hs
  have created : ∀ s : Store κ β, P s.view →
      P (if s.view k = none then s.set k (some []) else s).view ∧
      ∃ new, (if s.view k = none then s.set k (some []) else s).log = new ++ s.log ∧
        ∀ im, Event.commit im ∈ new → C im := by
    intro s hs
    split
    · exact ⟨hP _ hs ‹_›, [.write k (some [])], rfl, by simp⟩
    · exact ⟨hs, [], rfl, by simp⟩
  unfold fileNew tryOp
  rcases s.fates with _ | ⟨_ | _, fs⟩
  · exact created s hs
  · exact ⟨hs, [], rfl, by simp⟩
  · exact created { s with fates := fs } hs

/-! ### Runs in which the first operations succeed -/

/-- Some number of successes is enough for the command to go from `s` to `s'`,
whatever the fates of later operations. -/
def Completes (h : Handler (Store κ β) ε α) (s : Store κ β) (a : α) (s' : Store κ β) : Prop :=
  ∃ n, ∀ rest, h { s with fates := List.replicate n true ++ rest } = (.ok a, { s' with fates := rest })

namespace Completes

omit [DecidableEq κ]

theorem pure (a : α) (s : Store κ β) : Completes (pure a : Handler (Store κ β) ε α) s a s :=
  ⟨0, fun _ => rfl⟩

theorem bind {f : α → Handler (Store κ β) ε γ} {s s' s'' : Store κ β} {a : α} {c : γ}
    (H : Completes h s a s') (K : Completes (f a) s' c s'') : Completes (h >>= f) s c s'' := by
  obtain ⟨n, hn⟩ := H
  obtain ⟨m, hm⟩ := K
  refine ⟨n + m, fun rest => ?_⟩
  rw [← List.replicate_append_replicate, List.append_assoc, bind_run, hn]
  exact hm rest

theorem tryOp {f : Store κ β → Store κ β} (s : Store κ β)
    (hf : ∀ fs, f { s with fates := fs } = { f s with fates := fs }) :
    Completes (tryOp f : Handler (Store κ β) ε Bool) s true (f s) :=
  ⟨1, fun rest => by simp only [List.replicate_one, List.cons_append, List.nil_append, Storage.tryOp, ← hf]⟩

theorem view (s : Store κ β) : Completes (gets Store.view : Handler (Store κ β) ε _) s s.view s :=
  ⟨0, fun _ => rfl⟩

theorem ofExcept {r : Except ε α} {a : α} (s : Store κ β) (hr : r = .ok a) : Completes (ofExcept r) s a s :=
  ⟨0, fun _ => by rw [hr]; rfl⟩

theorem refuseIf {c : Prop} [Decidable c] (e : ε) (s : Store κ β) (hc : ¬ c) :
    Completes (refuseIf c e : Handler (Store κ β) ε Unit) s () s := by
  rw [refuseIf_false hc]
  exact .pure () s

end Completes

/-! ### Commands that end by making everything durable -/

/-- On success nothing is left that a power loss would undo. -/
def EndsDurable (h : Handler (Store κ β) ε α) : Prop :=
  ∀ s a s', h s = (.ok a, s') → s'.durable = s'.view

namespace EndsDurable

omit [DecidableEq κ]

theorem bind {h : Handler (Store κ β) ε α} {f : α → Handler (Store κ β) ε γ} (H : ∀ a, EndsDurable (f a)) :
    EndsDurable (h >>= f) := by
  intro s c s'' hs
  obtain ⟨a, s', -, h2⟩ := bind_ok hs
  exact H a s' c s'' h2

theorem commit : EndsDurable (flashCommit : Handler (Store κ β) ε Unit) := by
  intro s a s' hs
  cases hs
  rfl

end EndsDurable
end FidoTouch.Storage
