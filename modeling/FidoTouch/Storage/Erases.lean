import FidoTouch.Storage.Flash

/-! Commands that remove files, whether or not the removals are looked at: where no operation fails, exactly the files
they name are gone. -/
namespace FidoTouch.Storage
open FidoTouch.Program Handler

variable {κ β ε α : Type} {s s' s'' : Store κ β} {K K' : κ → Prop}

/-- Every operation between the two states succeeded. -/
def Unfailing (s s' : Store κ β) : Prop := ∃ n, s.fates = List.replicate n true ++ s'.fates

private theorem replicate_append {n : Nat} {l r : List Bool} (h : l ++ r = List.replicate n true) :
    (∃ j, l = List.replicate j true) ∧ ∃ k, r = List.replicate k true := by
  obtain ⟨-, hl, hr⟩ := List.append_eq_replicate_iff.mp h
  exact ⟨⟨_, hl⟩, _, hr⟩

/-- Nothing failed in a command when nothing failed in either part. -/
theorem Unfailing.parts (h : Unfailing s s'') (hs : s'.fates <:+ s.fates) (hs' : s''.fates <:+ s'.fates) :
    Unfailing s s' ∧ Unfailing s' s'' := by
  obtain ⟨l, hl⟩ := hs
  obtain ⟨r, hr⟩ := hs'
  obtain ⟨n, hn⟩ := h
  rw [← hl, ← hr, ← List.append_assoc] at hn
  obtain ⟨⟨j, hj⟩, k, hk⟩ := replicate_append (List.append_cancel_right hn)
  exact ⟨⟨j, by rw [← hl, hj]⟩, k, by rw [← hr, hk]⟩

/-- A store on which nothing fails any more. -/
theorem unfailing_of_nil (hs : s.fates = []) (hs' : s'.fates <:+ s.fates) : Unfailing s s' := by
  rw [hs, List.suffix_nil] at hs'
  exact ⟨0, by rw [hs, hs']; rfl⟩

/-- The command answers without an error, and where nothing fails exactly the files in `K` are removed. -/
def Erases (K : κ → Prop) (x : Handler (Store κ β) ε Unit) : Prop :=
  ∀ s, (x s).1 = .ok () ∧ (x s).2.fates <:+ s.fates ∧
    (Unfailing s (x s).2 → ∀ k, (K k → (x s).2.view k = none) ∧ (¬ K k → (x s).2.view k = s.view k))

namespace Erases
variable {x y : Handler (Store κ β) ε Unit}

theorem nothing : Erases (fun _ => False) (pure () : Handler (Store κ β) ε Unit) :=
  fun _ => ⟨rfl, List.suffix_refl _, fun _ _ => ⟨False.elim, fun _ => rfl⟩⟩

theorem bind (hx : Erases K x) (hy : Erases K' y) : Erases (fun k => K k ∨ K' k) (x >>= fun _ => y) := by
  intro s
  obtain ⟨hok, hfates, hview⟩ := hx s
  obtain ⟨hok', hfates', hview'⟩ := hy (x s).2
  rw [bind_eq (run_of_ok hok)]
  refine ⟨hok', hfates'.trans hfates, fun hun k => ?_⟩
  obtain ⟨hun₁, hun₂⟩ := hun.parts hfates hfates'
  obtain ⟨hin, hout⟩ := hview hun₁ k
  obtain ⟨hin', hout'⟩ := hview' hun₂ k
  refine ⟨fun hk => ?_, fun hk => ?_⟩
  · by_cases hk' : K' k
    · exact hin' hk'
    · exact (hout' hk').trans (hin (hk.resolve_right hk'))
  · rw [not_or] at hk
    exact (hout' hk.2).trans (hout hk.1)

theorem congr (hx : Erases K x) (h : ∀ k, K k ↔ K' k) : Erases K' x := by
  obtain rfl : K = K' := funext fun k => propext (h k)
  exact hx

theorem runIf {c : Prop} [Decidable c] (hx : Erases K x) : Erases (fun k => c ∧ K k) (Handler.runIf c x) := by
  by_cases hc : c
  · rw [runIf_true hc]
    exact hx.congr fun k => (and_iff_right hc).symm
  · rw [runIf_false hc]
    exact nothing.congr fun k => ⟨False.elim, fun h => hc h.1⟩

theorem forEach {γ : Type} {f : γ → Handler (Store κ β) ε Unit} {K : γ → κ → Prop} (hf : ∀ a, Erases (K a) (f a)) (as : List γ) :
    Erases (fun k => ∃ a ∈ as, K a k) (Handler.forEach as f) := by
  induction as with
  | nil => exact nothing.congr fun k => by simp
  | cons a as ih => exact ((hf a).bind ih).congr fun k => by simp

end Erases

/-- A failed operation leaves no run without failures. -/
private theorem not_unfailing (hs : s.fates = false :: s'.fates) : ¬ Unfailing s s' := by
  rintro ⟨n, hn⟩
  rw [hs] at hn
  have hlength := congrArg List.length hn
  simp only [List.length_cons, List.length_append, List.length_replicate] at hlength
  obtain rfl : n = 1 := by omega
  cases hn

/-- A deletion whose answer is not looked at. -/
theorem fileDeleteNoCommit_erases [DecidableEq κ] (k : κ) : Erases (fun k' => k' = k)
    (do let _ ← fileDeleteNoCommit k; pure () : Handler (Store κ β) ε Unit) := by
  intro s
  have htail : s.fates.tail <:+ s.fates := List.tail_suffix _
  have hcases : (fileDeleteNoCommit k : Handler (Store κ β) ε Bool) s = (.ok true, ({ s with fates := s.fates.tail }).set k none) ∨
      (fileDeleteNoCommit k : Handler (Store κ β) ε Bool) s = (.ok false, { s with fates := s.fates.tail }) ∧
        s.fates = false :: s.fates.tail := tryOp_cases _ s
  rcases hcases with h | ⟨h, hfailed⟩
  · rw [bind_eq h]
    exact ⟨rfl, htail, fun _ k' => ⟨fun h => h ▸ Function.update_self .., fun h => Function.update_of_ne h _ _⟩⟩
  · rw [bind_eq h]
    exact ⟨rfl, htail, fun hun => absurd hun (not_unfailing hfailed)⟩

/-- A file that is not there is removed already. -/
theorem Erases.unlessAbsent {k : κ} {x : Handler (Store κ β) ε Unit} (hx : Erases (fun k' => k' = k) x) :
    Erases (fun k' => k' = k) (do
      let files ← gets Store.view
      Handler.runIf (files k).isSome x) := by
  intro s
  rw [bind_eq (gets_run Store.view s)]
  by_cases hk : (s.view k).isSome
  · rw [runIf_true hk]
    exact hx s
  · rw [runIf_false hk]
    rw [Option.not_isSome_iff_eq_none] at hk
    exact ⟨rfl, List.suffix_refl _, fun _ k' => ⟨fun h => h ▸ hk, fun _ => rfl⟩⟩

end FidoTouch.Storage
