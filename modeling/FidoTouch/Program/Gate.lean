import Mathlib

/-! A receiver that takes a message only if it opens and what is in it comes after all that it took before. -/
namespace FidoTouch.Program
variable {β α : Type} [LinearOrder α]

/-- How the messages open, for those that do. -/
structure Gate (β α : Type) where
  opens : β → Option α

namespace Gate
variable (g : Gate β α)

/-- What the last message that was taken had in it, before and after the next one; nothing if that is refused. -/
def offer (last : Option α) (b : β) : Option α := (g.opens b).filter fun a => last.all fun l => l < a

def offerAll : (last : Option α) → List β → Option (Option α)
  | last, [] => some last
  | last, b :: bs => (g.offer last b).bind fun a => offerAll (some a) bs

variable {g}

theorem offer_some {last : Option α} {b : β} {a : α} : g.offer last b = some a ↔ g.opens b = some a ∧ ∀ l ∈ last, l < a := by
  rw [offer, Option.filter_eq_some_iff]
  cases last <;> simp

/-- Messages whose contents go up are all taken. -/
theorem offerAll_ascending {bs : List β} {as : List α} {last : Option α} (hopens : bs.map g.opens = as.map some)
    (hlast : ∀ l ∈ last, ∀ a ∈ as, l < a) (has : as.Pairwise (· < ·)) : ∃ last', g.offerAll last bs = some last' := by
  induction bs generalizing as last with
  | nil => exact ⟨last, rfl⟩
  | cons b bs ih =>
    cases as with
    | nil => cases hopens
    | cons a as =>
      rw [List.map_cons, List.map_cons, List.cons.injEq] at hopens
      obtain ⟨hb, hbs⟩ := hopens
      obtain ⟨hfirst, has⟩ := List.pairwise_cons.1 has
      have htaken : g.offer last b = some a := offer_some.2 ⟨hb, fun l hl => hlast l hl a List.mem_cons_self⟩
      obtain ⟨last', hrest⟩ := ih hbs (fun l (hl : l ∈ some a) a' ha' => by cases hl; exact hfirst a' ha') has
      exact ⟨last', by rw [offerAll, htaken, Option.bind_some, hrest]⟩

/-- Nothing that was taken is above the last one. -/
private theorem taken_le {bs : List β} {last last' : Option α} (h : g.offerAll last bs = some last') :
    (∀ l ∈ last, ∃ m ∈ last', l ≤ m) ∧ ∀ b ∈ bs, ∀ a, g.opens b = some a → ∃ m ∈ last', a ≤ m := by
  induction bs generalizing last with
  | nil =>
    cases h
    exact ⟨fun l hl => ⟨l, hl, le_refl l⟩, fun b hb => by cases hb⟩
  | cons b bs ih =>
    rw [offerAll, Option.bind_eq_some_iff] at h
    obtain ⟨a, htaken, h⟩ := h
    obtain ⟨hopens, hlast⟩ := offer_some.1 htaken
    obtain ⟨hstart, hrest⟩ := ih h
    obtain ⟨m, hm, ham⟩ := hstart a rfl
    refine ⟨fun l hl => ⟨m, hm, (le_of_lt (hlast l hl)).trans ham⟩, fun b' hb' a' ha' => ?_⟩
    rcases List.mem_cons.1 hb' with rfl | hb'
    · rw [hopens, Option.some.injEq] at ha'
      exact ⟨m, hm, ha' ▸ ham⟩
    · exact hrest b' hb' a' ha'

/-- What was taken once is refused for ever. -/
theorem offer_again {bs : List β} {last last' : Option α} (h : g.offerAll last bs = some last') {b : β} (hb : b ∈ bs) :
    g.offer last' b = none := by
  rw [Option.eq_none_iff_forall_ne_some]
  intro a ha
  obtain ⟨hopens, hlast⟩ := offer_some.1 ha
  obtain ⟨m, hm, ham⟩ := (taken_le h).2 b hb a hopens
  exact absurd (hlast m hm) (not_lt_of_ge ham)

end Gate
end FidoTouch.Program
