import FidoTouch.Storage.Flash

/-! Commands that stop at their first failed operation: the stores they pass through, one before each operation, and
where a given sequence of outcomes leaves them. Beside them, commands that end well when nothing fails. -/
namespace FidoTouch.Storage
open FidoTouch.Program Handler

variable {κ β ε α γ : Type}

/-! ### The first failure -/

def FirstFailure (fates : List Bool) (i : Nat) : Prop := fates[i]? = some false ∧ ∀ j < i, fates[j]? ≠ some false

/-- The first operations all succeed, or one of them is the first to fail. -/
theorem firstFailure_or (fates : List Bool) (n : Nat) :
    (∀ i < n, fates[i]? ≠ some false) ∨ ∃ i < n, FirstFailure fates i := by
  induction n with
  | zero => exact .inl fun i hi => by omega
  | succ n ih =>
    rcases ih with hall | ⟨i, hi, hfirst⟩
    · by_cases hn : fates[n]? = some false
      · exact .inr ⟨n, by omega, hn, hall⟩
      · refine .inl fun i hi => ?_
        rcases Nat.lt_succ_iff_lt_or_eq.mp hi with hi | rfl
        · exact hall i hi
        · exact hn
    · exact .inr ⟨i, by omega, hfirst⟩

theorem FirstFailure.unique {fates : List Bool} {i j : Nat} (hi : FirstFailure fates i) (hj : FirstFailure fates j) : i = j := by
  rcases Nat.lt_trichotomy i j with h | h | h
  · exact absurd hi.1 (hj.2 i h)
  · exact h
  · exact absurd hj.1 (hi.2 j h)

/-! ### Courses -/

/-- From `s` the command passes through `stops`, the stores before each of its operations, to `s'`. It stops at the
first operation that fails, with the store as it stands there. -/
structure Course (h : Handler (Store κ β) ε α) (s : Store κ β) (stops : List (Store κ β)) (a : α) (s' : Store κ β) : Prop where
  ends : ∀ fates, (∀ i < stops.length, fates[i]? ≠ some false) →
    h { s with fates := fates } = (.ok a, { s' with fates := fates.drop stops.length })
  fails : ∀ fates i (hi : i < stops.length), FirstFailure fates i →
    ∃ e, h { s with fates := fates } = (.error e, { stops[i] with fates := fates.drop (i + 1) })

namespace Course
variable {h : Handler (Store κ β) ε α} {f : α → Handler (Store κ β) ε γ} {s s' s'' : Store κ β} {stops stops' : List (Store κ β)}
  {a : α} {c : γ}

/-- A command that does no operation. -/
theorem silent (hs : ∀ fates, h { s with fates := fates } = (.ok a, { s' with fates := fates })) : Course h s [] a s' :=
  ⟨fun fates _ => hs fates, fun _ i hi => absurd hi (Nat.not_lt_zero i)⟩

theorem pure (a : α) (s : Store κ β) : Course (pure a : Handler (Store κ β) ε α) s [] a s := silent fun _ => rfl

theorem view (s : Store κ β) : Course (gets Store.view : Handler (Store κ β) ε _) s [] s.view s := silent fun _ => rfl

theorem ofExcept {r : Except ε α} (s : Store κ β) (hr : r = .ok a) : Course (ofExcept r) s [] a s :=
  silent fun _ => by rw [hr]; rfl

theorem refuseIf {p : Prop} [Decidable p] (e : ε) (s : Store κ β) (hp : ¬ p) :
    Course (refuseIf p e : Handler (Store κ β) ε Unit) s [] () s := by
  rw [refuseIf_false hp]
  exact pure () s

theorem bind (H : Course h s stops a s') (K : Course (f a) s' stops' c s'') : Course (h >>= f) s (stops ++ stops') c s'' where
  ends fates hfates := by
    have hfirst := H.ends fates fun i hi => hfates i (by rw [List.length_append]; omega)
    have hrest := K.ends (fates.drop stops.length) fun i hi => by
      rw [List.getElem?_drop]
      exact hfates _ (by rw [List.length_append]; omega)
    rw [bind_eq hfirst, hrest, List.drop_drop, List.length_append]
  fails fates i hi hfirst := by
    by_cases hlt : i < stops.length
    · obtain ⟨e, he⟩ := H.fails fates i hlt hfirst
      exact ⟨e, by rw [bind_run, he, List.getElem_append_left hlt]⟩
    · have hlength : i < stops.length + stops'.length := by simpa using hi
      obtain ⟨e, he⟩ := K.fails (fates.drop stops.length) (i - stops.length) (by omega)
        ⟨by rw [List.getElem?_drop, Nat.add_sub_cancel' (by omega)]; exact hfirst.1,
          fun j hj => by rw [List.getElem?_drop]; exact hfirst.2 _ (by omega)⟩
      have hdrop : stops.length + (i - stops.length + 1) = i + 1 := by omega
      refine ⟨e, ?_⟩
      rw [bind_eq (H.ends fates fun j hj => hfirst.2 j (by omega)), he, List.drop_drop, hdrop,
        List.getElem_append_right (by omega)]

theorem seq {k : Handler (Store κ β) ε γ} (H : Course h s stops a s') (K : Course k s' stops' c s'') :
    Course (h >>= fun _ => k) s (stops ++ stops') c s'' := H.bind K

/-- An operation whose failure is answered by an error. -/
theorem checked {g : Store κ β → Store κ β} (hg : ∀ s fates, g { s with fates := fates } = { g s with fates := fates })
    (e : ε) (s : Store κ β) :
    Course (do let done ← tryOp g; Handler.refuseIf (done = false) e : Handler (Store κ β) ε Unit) s [s] () (g s) where
  ends fates hfates := by
    have hhead := hfates 0 (by simp)
    have hrun : (tryOp g : Handler (Store κ β) ε Bool) { s with fates := fates } = (.ok true, { g s with fates := fates.drop 1 }) := by
      rw [← hg]
      rcases fates with _ | ⟨_ | _, fates⟩
      · rfl
      · exact absurd rfl hhead
      · rfl
    rw [bind_eq hrun, refuseIf_false (by simp)]
    rfl
  fails fates i hi hfirst := by
    obtain rfl : i = 0 := by simpa using hi
    obtain ⟨hhead, -⟩ := hfirst
    have hrun : (tryOp g : Handler (Store κ β) ε Bool) { s with fates := fates } = (.ok false, { s with fates := fates.drop 1 }) := by
      rcases fates with _ | ⟨_ | _, fates⟩
      · cases hhead
      · rfl
      · cases hhead
    refine ⟨e, ?_⟩
    rw [bind_eq hrun, refuseIf_true rfl]
    rfl

theorem commitSync {k : Handler (Store κ β) ε γ} (e : ε) (K : Course k s.sync stops c s') :
    Course (do let done ← flashCommitSync; Handler.refuseIf (done = false) e; k) s (s :: stops) c s' := by
  have hboth := (checked (g := Store.sync) (fun _ _ => rfl) e s).seq K
  simp only [bind_assoc] at hboth
  exact hboth

/-- What the command does when nothing fails. -/
theorem run (H : Course h s stops a s') : h { s with fates := [] } = (.ok a, { s' with fates := [] }) := by
  rw [H.ends [] fun i _ => by simp, List.drop_nil]

theorem runIf_true {p : Prop} [Decidable p] {x : Handler (Store κ β) ε Unit} (hp : p) (H : Course x s stops () s') :
    Course (runIf p x) s stops () s' := by
  rwa [Handler.runIf_true hp]

/-- A command of which nothing is left to do. -/
theorem runIf_idle {p : Prop} [Decidable p] {x : Handler (Store κ β) ε Unit} (H : p → Course x s [] () s) :
    Course (runIf p x) s [] () s := by
  by_cases hp : p
  · exact runIf_true hp (H hp)
  · rw [Handler.runIf_false hp]
    exact pure () s

theorem forEach_idle {f : γ → Handler (Store κ β) ε Unit} (as : List γ) (H : ∀ a ∈ as, Course (f a) s [] () s) :
    Course (forEach as f) s [] () s := by
  induction as with
  | nil => exact pure () s
  | cons a as ih =>
    change Course _ s ([] ++ []) () s
    exact bind (H a (by simp)) (ih fun b hb => H b (by simp [hb]))

theorem commit (s : Store κ β) : Course (flashCommit : Handler (Store κ β) ε Unit) s [] () s.sync := silent fun _ => rfl

end Course

/-! ### What is durable along a course -/

/-- Everything made durable since `s` is in `C`. -/
def Committed (C : Image κ β → Prop) (s t : Store κ β) : Prop := ∃ new, t.log = new ++ s.log ∧ ∀ im, .commit im ∈ new → C im

namespace Committed
variable {C : Image κ β → Prop} {s t : Store κ β}

theorem refl (s : Store κ β) : Committed C s s := ⟨[], rfl, by simp⟩

theorem set [DecidableEq κ] (h : Committed C s t) (k : κ) (v : Option (List β)) : Committed C s (t.set k v) := by
  obtain ⟨new, hlog, hnew⟩ := h
  exact ⟨.write k v :: new, by rw [List.cons_append, ← hlog]; rfl, fun im him => hnew im (by simpa using him)⟩

theorem sync (h : Committed C s t) (ht : C t.view) : Committed C s t.sync := by
  obtain ⟨new, hlog, hnew⟩ := h
  refine ⟨.commit t.view :: new, by rw [List.cons_append, ← hlog]; rfl, fun im him => ?_⟩
  rcases List.mem_cons.mp him with heq | him
  · cases heq
    exact ht
  · exact hnew im him

theorem crash (h : Committed C s t) {im : Image κ β} (him : s.CrashImage t im) : im = s.durable ∨ C im := by
  obtain ⟨new, hlog, hnew⟩ := h
  refine him.imp id fun ⟨new', hlog', him⟩ => ?_
  rw [hlog] at hlog'
  exact hnew im (List.append_cancel_right hlog' ▸ him)

end Committed

/-! ### Commands in which nothing fails -/

/-- No operation to come fails. -/
def Steady (s : Store κ β) : Prop := ∀ done ∈ s.fates, done = true

variable {P P' R : Image κ β → Prop} {C : Image κ β → Prop} {h : Handler (Store κ β) ε α} {Q Q' : α → Image κ β → Prop}

/-- From a view in `P`, where nothing fails, the command ends well in `Q`. -/
def Total (P : Image κ β → Prop) (h : Handler (Store κ β) ε α) (Q : α → Image κ β → Prop) : Prop :=
  ∀ s, Steady s → P s.view → ∃ a s', h s = (.ok a, s') ∧ Steady s' ∧ Q a s'.view

namespace Total

theorem succeeds {h : Handler (Store κ β) ε Unit} {Q : Unit → Image κ β → Prop} (H : Total P h Q) {s : Store κ β} (hs : Steady s)
    (hv : P s.view) : (h s).1 = .ok () := by
  obtain ⟨⟨⟩, s', hrun, -⟩ := H s hs hv
  rw [hrun]

theorem conseq (H : Total P h Q) (hP : ∀ v, P' v → P v) (hQ : ∀ a v, Q a v → Q' a v) : Total P' h Q' := by
  intro s hs hv
  obtain ⟨a, s', hrun, hs', hq⟩ := H s hs (hP _ hv)
  exact ⟨a, s', hrun, hs', hQ a _ hq⟩

/-- What any successful run leaves, a run without failures leaves. -/
theorem also (H : Total P h Q) (H' : Triple P h Q' C) : Total P h fun a v => Q a v ∧ Q' a v := by
  intro s hs hv
  obtain ⟨a, s', hrun, hs', hq⟩ := H s hs hv
  have hq' := H'.ok hv (congrArg Prod.fst hrun)
  rw [hrun] at hq'
  exact ⟨a, s', hrun, hs', hq, hq'⟩

theorem pure (a : α) (hQ : ∀ v, P v → Q a v) : Total P (pure a : Handler (Store κ β) ε α) Q :=
  fun s hs hv => ⟨a, s, rfl, hs, hQ _ hv⟩

theorem view : Total P (gets Store.view : Handler (Store κ β) ε _) (fun a v => a = v ∧ P v) :=
  fun s hs hv => ⟨s.view, s, rfl, hs, rfl, hv⟩

theorem bind {f : α → Handler (Store κ β) ε γ} {R : γ → Image κ β → Prop} (H : Total P h Q)
    (K : ∀ a, Total (Q a) (f a) R) : Total P (h >>= f) R := by
  intro s hs hv
  obtain ⟨a, s', hrun, hs', hq⟩ := H s hs hv
  rw [bind_eq hrun]
  exact K a s' hs' hq

theorem of_pre (H : ∀ v, P v → Total (· = v) h Q) : Total P h Q := fun s hs hv => H s.view hv s hs rfl

theorem refuseIf {p : Prop} [Decidable p] (e : ε) (hp : ∀ v, P v → ¬ p) :
    Total P (refuseIf p e : Handler (Store κ β) ε Unit) fun _ => P := by
  intro s hs hv
  rw [refuseIf_false (hp _ hv)]
  exact ⟨(), s, rfl, hs, hv⟩

theorem ofExcept {r : Except ε α} {a : α} (hr : r = .ok a) : Total P (ofExcept r) fun b v => b = a ∧ P v :=
  fun s hs hv => ⟨a, s, by rw [hr]; rfl, hs, rfl, hv⟩

theorem runIf {p : Prop} [Decidable p] {x : Handler (Store κ β) ε Unit} (H : p → Total P x fun _ => P) :
    Total P (runIf p x) fun _ => P := by
  by_cases hp : p
  · rw [runIf_true hp]
    exact H hp
  · rw [runIf_false hp]
    exact pure () fun _ hv => hv

theorem forEach {f : γ → Handler (Store κ β) ε Unit} (as : List γ) (H : ∀ a ∈ as, Total P (f a) fun _ => P) :
    Total P (Handler.forEach as f) fun _ => P := by
  induction as with
  | nil => exact pure () fun _ hv => hv
  | cons a as ih => exact bind (H a (by simp)) fun _ => ih fun b hb => H b (by simp [hb])

theorem op {g : Store κ β → Store κ β} (hR : ∀ s, P s.view → R (g s).view) (hfates : ∀ s, (g s).fates = s.fates) :
    Total P (tryOp g : Handler (Store κ β) ε Bool) fun done v => done = true ∧ R v := by
  intro s hs hv
  unfold tryOp
  split
  · next hnone => exact ⟨true, g s, rfl, by rw [Steady, hfates, hnone]; simp, rfl, hR s hv⟩
  · next fates htrue =>
    refine ⟨true, g { s with fates := fates }, rfl, fun done hdone => ?_, rfl, hR { s with fates := fates } hv⟩
    rw [hfates] at hdone
    exact hs done (by rw [htrue]; exact List.mem_cons_of_mem _ hdone)
  · next fates hfalse => exact absurd (hs false (by rw [hfalse]; simp)) (by simp)

theorem commitSync : Total P (flashCommitSync : Handler (Store κ β) ε Bool) fun done v => done = true ∧ P v :=
  op (fun _ h => h) fun _ => rfl

theorem commit : Total P (flashCommit : Handler (Store κ β) ε Unit) fun _ => P :=
  fun s hs hv => ⟨(), s.sync, rfl, hs, hv⟩

/-- An operation whose failure is answered by an error. -/
theorem checked {g : Store κ β → Store κ β} (e : ε) (hR : ∀ s, P s.view → R (g s).view) (hfates : ∀ s, (g s).fates = s.fates) :
    Total P (do let done ← tryOp g; Handler.refuseIf (done = false) e : Handler (Store κ β) ε Unit) fun _ => R :=
  bind (op hR hfates) fun done => (refuseIf e fun _ h => by simp [h.1]).conseq (fun _ h => h) fun _ _ h => h.2

end Total
end FidoTouch.Storage
