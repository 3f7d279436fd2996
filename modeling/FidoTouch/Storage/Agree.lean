import FidoTouch.Program.Twins
import FidoTouch.Storage.Carries

/-! Stores that agree on some files, on a flash that does not fail: what is done to these files ends alike on both. -/
namespace FidoTouch.Storage
open FidoTouch.Program Handler

variable {κ β ε : Type}

/-- The files in `P` are the same, and no operation is to fail. -/
structure Agree (P : κ → Prop) (s t : Store κ β) : Prop where
  files : ∀ k, P k → s.view k = t.view k
  reliable : s.fates = [] ∧ t.fates = []

namespace Agree
variable {P : κ → Prop} {s t u : Store κ β}

theorem trans (h : Agree P s t) (h' : Agree P t u) : Agree P s u :=
  ⟨fun k hk => (h.files k hk).trans (h'.files k hk), h.reliable.1, h'.reliable.2⟩

theorem set [DecidableEq κ] (h : Agree P s t) (k : κ) (v : Option (List β)) : Agree P (s.set k v) (t.set k v) := by
  refine ⟨fun k' hk' => ?_, h.reliable⟩
  by_cases hkey : k' = k
  · subst hkey
    rw [Store.set_view, Store.set_view, Function.update_self, Function.update_self]
  · rw [Store.set_view, Store.set_view, Function.update_of_ne hkey, Function.update_of_ne hkey]
    exact h.files k' hk'

theorem sync (h : Agree P s t) : Agree P s.sync t.sync := ⟨h.files, h.reliable⟩

theorem tryOp {f : Store κ β → Store κ β} (h : Agree P s t) (hf : Agree P (f s) (f t)) :
    Alike (Agree P) ((tryOp f : Handler (Store κ β) ε Bool) s) ((Storage.tryOp f : Handler (Store κ β) ε Bool) t) := by
  unfold Storage.tryOp
  rw [h.reliable.1, h.reliable.2]
  exact ⟨rfl, hf⟩

end Agree

/-- What is written is outside `P`, and a flash that does not fail stays one. -/
structure Aside (P : κ → Prop) (s s' : Store κ β) : Prop where
  files : ∀ k, P k → s'.view k = s.view k
  reliable : s.fates = [] → s'.fates = []

theorem Agree.aside {P : κ → Prop} {s s' t : Store κ β} (h : Agree P s t) (h' : Aside P s s') : Agree P s' t :=
  ⟨fun k hk => (h'.files k hk).trans (h.files k hk), h'.reliable h.reliable.1, h.reliable.2⟩

instance [DecidableEq κ] (P : κ → Prop) : Sees (Aside P : Store κ β → Store κ β → Prop) P where
  refl s := ⟨fun _ _ => rfl, id⟩
  trans h h' := ⟨fun k hk => (h'.files k hk).trans (h.files k hk), fun hs => h'.reliable (h.reliable hs)⟩
  sync s := ⟨fun _ _ => rfl, id⟩
  fates s := ⟨fun _ _ => rfl, fun hs => by rw [hs]; rfl⟩
  set s k v hk := ⟨fun k' hk' => Function.update_of_ne (fun heq : k' = k => hk (heq ▸ hk')) _ _, id⟩

variable [DecidableEq κ] {P : κ → Prop}

instance (k : κ) [hk : Fact (P k)] : Twins (Agree P) (fileNew k : Handler (Store κ β) ε Bool) where
  alike {s t} h := h.tryOp <| by
    rw [h.files k hk.out]
    split
    · exact h.set k _
    · exact h

instance (k : κ) (v : List β) : Twins (Agree P) (filePutData k v : Handler (Store κ β) ε Bool) := ⟨fun h => h.tryOp (h.set k _)⟩

instance (k : κ) : Twins (Agree P) (fileDeleteNoCommit k : Handler (Store κ β) ε Bool) := ⟨fun h => h.tryOp (h.set k _)⟩

omit [DecidableEq κ] in
instance : Twins (Agree P) (flashCommitSync : Handler (Store κ β) ε Bool) := ⟨fun h => h.tryOp h.sync⟩

omit [DecidableEq κ] in
instance : Twins (Agree P) (flashCommit : Handler (Store κ β) ε Unit) := ⟨fun h => ⟨rfl, h.sync⟩⟩

end FidoTouch.Storage
