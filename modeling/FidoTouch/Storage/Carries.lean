import FidoTouch.Storage.Flash

/-! Invariants of some files that a command keeps in the view and in everything it makes durable.
They hold of whatever a power loss leaves. -/
namespace FidoTouch.Storage
open FidoTouch.Program Handler

variable {κ β ε α : Type} {s s' : Store κ β} {I : Image κ β → Prop} {im : Image κ β}

/-- A relation that commits respect, and every write outside the files in `P`. -/
class Sees [DecidableEq κ] (S : Store κ β → Store κ β → Prop) (P : outParam (κ → Prop)) : Prop where
  refl : ∀ s, S s s
  trans : ∀ {s s' s''}, S s s' → S s' s'' → S s s''
  sync : ∀ s, S s s.sync
  fates : ∀ s, S s { s with fates := s.fates.tail }
  set : ∀ s {k} v, ¬ P k → S s (s.set k v)

/-- Whatever went before it, a commit brings the relation about. -/
class Commits (S : Store κ β → Store κ β → Prop) : Prop where
  sync : ∀ s₀ s : Store κ β, S s₀ s.sync

/-- The invariant survives in the view, and whatever became durable meets it. -/
def Carries (I : Image κ β → Prop) (s s' : Store κ β) : Prop :=
  ∃ new, s'.log = new ++ s.log ∧ (s'.durable = s.durable ∨ .commit s'.durable ∈ new) ∧
    (I s.view → I s'.view ∧ ∀ im, .commit im ∈ new → I im)

namespace Carries

theorem view (h : Carries I s s') (hs : I s.view) : I s'.view := by
  obtain ⟨new, -, -, h⟩ := h
  exact (h hs).1

theorem durable (h : Carries I s s') (hs : I s.view) (hd : I s.durable) : I s'.durable := by
  obtain ⟨new, -, hsame | hnew, h⟩ := h
  · rwa [hsame]
  · exact (h hs).2 _ hnew

theorem crash (h : Carries I s s') (hs : I s.view) (hd : I s.durable) (him : s.CrashImage s' im) : I im := by
  obtain ⟨new, hlog, -, h⟩ := h
  rcases him with rfl | ⟨new', hlog', him⟩
  · exact hd
  · rw [hlog] at hlog'
    exact (h hs).2 _ (List.append_cancel_right hlog' ▸ him)

theorem refl (s : Store κ β) : Carries I s s := ⟨[], rfl, .inl rfl, fun h => ⟨h, by simp⟩⟩

theorem trans {s'' : Store κ β} (h : Carries I s s') (h' : Carries I s' s'') : Carries I s s'' := by
  obtain ⟨new, hlog, hdurable, h⟩ := h
  obtain ⟨new', hlog', hdurable', h'⟩ := h'
  refine ⟨new' ++ new, by rw [hlog', hlog, List.append_assoc], ?_, fun hs => ⟨(h' (h hs).1).1, fun im him => ?_⟩⟩
  · rcases hdurable' with hsame | hnew
    · exact hdurable.imp hsame.trans fun hnew => List.mem_append_right _ (hsame ▸ hnew)
    · exact .inr (List.mem_append_left _ hnew)
  · rcases List.mem_append.mp him with him | him
    · exact (h' (h hs).1).2 im him
    · exact (h hs).2 im him

/-- From a state that meets a stronger invariant the weaker one is kept with it. -/
theorem mono {J : Image κ β → Prop} (h : Carries I s s') (hs : I s.view) (hIJ : ∀ im, I im → J im) : Carries J s s' := by
  obtain ⟨new, hlog, hdurable, h⟩ := h
  exact ⟨new, hlog, hdurable, fun _ => ⟨hIJ _ (h hs).1, fun im him => hIJ _ ((h hs).2 im him)⟩⟩

/-- A command from a state outside the invariant need only write down what it does. -/
theorem of_not (h : Carries (fun _ => True) s s') (hs : ¬ I s.view) : Carries I s s' := by
  obtain ⟨new, hlog, hdurable, -⟩ := h
  exact ⟨new, hlog, hdurable, fun h => absurd h hs⟩

theorem set [DecidableEq κ] (k : κ) (v : Option (List β)) (h : I s.view → I (Function.update s.view k v)) :
    Carries I s (s.set k v) :=
  ⟨[.write k v], rfl, .inl rfl, fun hs => ⟨h hs, by simp⟩⟩

/-- Writes without a commit make nothing durable. -/
theorem writes {new : List (Event κ β)} (hlog : s'.log = new ++ s.log) (hnew : ∀ im, .commit im ∉ new)
    (hdurable : s'.durable = s.durable) (h : I s.view → I s'.view) : Carries I s s' :=
  ⟨new, hlog, .inl hdurable, fun hs => ⟨h hs, fun im him => absurd him (hnew im)⟩⟩

theorem sync (s : Store κ β) : Carries I s s.sync :=
  ⟨[.commit s.view], rfl, .inr (by simp), fun hs => ⟨hs, fun im him => by
    obtain rfl : im = s.view := by simpa using him
    exact hs⟩⟩

end Carries

/-- The invariant is one of the files in `P`. -/
class ReadsOnly (I : Image κ β → Prop) (P : outParam (κ → Prop)) : Prop where
  congr : ∀ {im im'}, (∀ k, P k → im' k = im k) → I im → I im'

theorem Carries.set_outside [DecidableEq κ] {P : κ → Prop} [hI : ReadsOnly I P] (s : Store κ β) {k : κ}
    (v : Option (List β)) (hk : ¬ P k) : Carries I s (s.set k v) :=
  .set k v <| hI.congr fun k' hk' => Function.update_of_ne (fun h : k' = k => hk (h ▸ hk')) _ _

instance [DecidableEq κ] {P : κ → Prop} [ReadsOnly I P] : Sees (Carries I) P where
  refl := .refl
  trans := .trans
  sync := .sync
  fates s := ⟨[], rfl, .inl rfl, fun h => ⟨h, by simp⟩⟩
  set s _ v hk := .set_outside s v hk

/-- Nothing is seen to change in the files in `P`. -/
def SameOn (P : κ → Prop) (s s' : Store κ β) : Prop := ∀ k, P k → s'.view k = s.view k

instance [DecidableEq κ] {P : κ → Prop} : Sees (SameOn P : Store κ β → Store κ β → Prop) P where
  refl _ _ _ := rfl
  trans h h' k hk := (h' k hk).trans (h k hk)
  sync _ _ _ := rfl
  fates _ _ _ := rfl
  set _ k _ hk k' hk' := Function.update_of_ne (fun h : k' = k => hk (h ▸ hk')) _ _

/-! ### Commands -/

section
variable [DecidableEq κ] {S : Store κ β → Store κ β → Prop} {P : κ → Prop} [hS : Sees S P]
include hS

instance (priority := low) : Std.Refl S := ⟨hS.refl⟩
instance (priority := low) : IsTrans (Store κ β) S := ⟨fun _ _ _ => hS.trans⟩

private theorem tryOp_sees {f : Store κ β → Store κ β} (hf : ∀ s, S s (f s)) :
    Keeps S (tryOp f : Handler (Store κ β) ε Bool) where
  rel s := by
    rcases tryOp_cases (ε := ε) f s with hrun | ⟨hrun, -⟩ <;> rw [hrun]
    · exact hS.trans (hS.fates s) (hf _)
    · exact hS.fates s

instance : Keeps S (flashCommitSync : Handler (Store κ β) ε Bool) := tryOp_sees hS.sync
instance : Keeps S (flashCommit : Handler (Store κ β) ε Unit) := ⟨hS.sync⟩

instance (k : κ) (v : List β) [hk : Fact (¬ P k)] : Keeps S (filePutData k v : Handler (Store κ β) ε Bool) :=
  tryOp_sees fun s => hS.set s _ hk.out

instance (k : κ) [hk : Fact (¬ P k)] : Keeps S (fileDeleteNoCommit k : Handler (Store κ β) ε Bool) :=
  tryOp_sees fun s => hS.set s _ hk.out

instance (k : κ) [hk : Fact (¬ P k)] : Keeps S (fileNew k : Handler (Store κ β) ε Bool) :=
  tryOp_sees fun s => by
    split
    · exact hS.set s _ hk.out
    · exact hS.refl s

end

/-! ### Commands that only write down what they do -/

def NoFile (_ : κ) : Prop := False

instance : ReadsOnly (fun _ : Image κ β => True) NoFile := ⟨fun _ _ => trivial⟩
instance (k : κ) : Fact (¬ NoFile k) := ⟨id⟩

/-- What is durable in the end is one of the images a power loss could have left. -/
theorem Carries.durable_image (h : Carries I s s') : s.CrashImage s' s'.durable := by
  obtain ⟨new, hlog, hsame | hnew, -⟩ := h
  · exact .inl hsame
  · exact .inr ⟨new, hlog, hnew⟩

section
variable {γ : Type} {x : Handler (Store κ β) ε α} {f : α → Handler (Store κ β) ε γ}
  [hf : ∀ a, Keeps (Carries fun _ : Image κ β => True) (f a)]
include hf

/-- Power lost in the first part of a command is power lost in the command. -/
theorem image_first (him : s.CrashImage (x s).2 im) : s.CrashImage ((x >>= f) s).2 im := by
  rw [bind_run]
  rcases hx : x s with ⟨e | a, s'⟩ <;> rw [hx] at him
  · exact him
  · obtain ⟨new, hlog, -, -⟩ := (hf a).rel s'
    exact him.imp id fun ⟨new', hlog', him⟩ =>
      ⟨new ++ new', by dsimp only; rw [hlog, hlog', List.append_assoc], List.mem_append_right _ him⟩

/-- Power lost in the rest of a command is power lost in the command. -/
theorem image_rest [hx : Keeps (Carries fun _ : Image κ β => True) x] {a : α} (ha : x s = (.ok a, s'))
    (him : s'.CrashImage (f a s').2 im) : s.CrashImage ((x >>= f) s).2 im := by
  obtain ⟨new, hlog, hdurable, -⟩ := hx.of_run ha
  obtain ⟨new', hlog', -, -⟩ := (hf a).rel s'
  rw [bind_eq ha]
  rcases him with rfl | ⟨new'', hlog'', him⟩
  · exact hdurable.imp id fun hnew => ⟨new' ++ new, by rw [hlog', hlog, List.append_assoc], List.mem_append_right _ hnew⟩
  · exact .inr ⟨new'' ++ new, by rw [hlog'', hlog, List.append_assoc], List.mem_append_left _ him⟩

end

/-- An invariant that a command never leaves, not even when power is lost, is carried. -/
theorem Triple.carries {x : Handler (Store κ β) ε α} (H : Triple I x (fun _ => I) I)
    [hx : Keeps (Carries fun _ : Image κ β => True) x] : Keeps (Carries I) x where
  rel s := by
    obtain ⟨new, hlog, hdurable, -⟩ := hx.rel s
    refine ⟨new, hlog, hdurable, fun hs => ⟨H.ends hs, fun im him => ?_⟩⟩
    obtain ⟨-, new', hlog', hnew⟩ := H s hs
    rw [hlog] at hlog'
    exact hnew im (List.append_cancel_right hlog' ▸ him)

/-- A commit that happens leaves nothing that a power loss would undo. -/
theorem flashCommitSync_durable {b : Bool} (h : (flashCommitSync : Handler (Store κ β) ε Bool) s = (.ok b, s')) (hb : ¬ b = false) :
    s'.durable = s'.view := by
  unfold flashCommitSync tryOp at h
  split at h <;> cases h
  · rfl
  · rfl
  · exact absurd rfl hb

theorem flashCommitSync_view {b : Bool} (h : (flashCommitSync : Handler (Store κ β) ε Bool) s = (.ok b, s')) : s'.view = s.view := by
  unfold flashCommitSync tryOp at h
  split at h <;> cases h <;> rfl

end FidoTouch.Storage
