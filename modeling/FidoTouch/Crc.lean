import Mathlib.Data.Nat.Basic
import Mathlib.Logic.Function.Iterate

/-! Cyclic redundancy checks that are computed bit by bit from the low end, for any polynomial and any width of the register. -/
namespace FidoTouch.Crc
variable {w k l : Nat} (poly : BitVec w)

/-- The register moves down by one bit; a bit that drops out is subtracted as the polynomial. -/
def shift (c : BitVec w) : BitVec w := if c.getLsbD 0 then (c >>> 1) ^^^ poly else c >>> 1

/-- The register after `k` more bits of a message, the lowest first. -/
def feed (c : BitVec w) (x : BitVec k) : BitVec w := (shift poly)^[k] (c ^^^ x.setWidth w)

theorem shift_xor (a b : BitVec w) : shift poly (a ^^^ b) = shift poly a ^^^ shift poly b := by
  unfold shift
  rw [BitVec.getLsbD_xor, BitVec.ushiftRight_xor_distrib]
  cases a.getLsbD 0 <;> cases b.getLsbD 0 <;>
    simp only [Bool.bne_false, Bool.bne_true, Bool.not_true, Bool.not_false, Bool.false_eq_true, if_true, if_false]
  · ac_rfl
  · ac_rfl
  · rw [BitVec.xor_assoc, BitVec.xor_comm poly, BitVec.xor_assoc, BitVec.xor_self, BitVec.xor_zero]

theorem shifts_xor (n : Nat) (a b : BitVec w) : (shift poly)^[n] (a ^^^ b) = (shift poly)^[n] a ^^^ (shift poly)^[n] b := by
  induction n generalizing a b with
  | zero => rfl
  | succ n ih => rw [Function.iterate_succ_apply, shift_xor, ih, Function.iterate_succ_apply, Function.iterate_succ_apply]

/-- Bits that are clear drop out without a trace. -/
theorem shifts_clear {n : Nat} {c : BitVec w} (h : ∀ i < n, c.getLsbD i = false) : (shift poly)^[n] c = c >>> n := by
  induction n with
  | zero => rfl
  | succ n ih =>
    have hbit : (c >>> n).getLsbD 0 = false := by
      rw [BitVec.getLsbD_ushiftRight]
      exact h n (Nat.lt_succ_self n)
    rw [Function.iterate_succ_apply', ih fun i hi => h i (Nat.lt_succ_of_lt hi), shift, hbit, if_neg Bool.false_ne_true,
      BitVec.shiftRight_add]

/-- Two words that fit the register together may be fed as one. -/
theorem feed_feed (h : k + l ≤ w) (c : BitVec w) (x : BitVec k) (y : BitVec l) : feed poly (feed poly c x) y = feed poly c (y ++ x) := by
  have hlow : (shift poly)^[k] (y.setWidth w <<< k) = y.setWidth w := by
    rw [shifts_clear poly fun i hi => by simp [BitVec.getLsbD_shiftLeft, hi]]
    refine BitVec.eq_of_getLsbD_eq fun i _ => ?_
    simp only [BitVec.getLsbD_ushiftRight, BitVec.getLsbD_shiftLeft, BitVec.getLsbD_setWidth, Nat.add_sub_cancel_left]
    by_cases hi : i < l
    · simp [show k + i < w by omega]
    · simp [BitVec.getLsbD_of_ge y i (Nat.le_of_not_lt hi)]
  have hjoin : (y ++ x).setWidth w = x.setWidth w ^^^ y.setWidth w <<< k := by
    refine BitVec.eq_of_getLsbD_eq fun i hiw => ?_
    simp only [BitVec.getLsbD_setWidth, BitVec.getLsbD_append, BitVec.getLsbD_xor, BitVec.getLsbD_shiftLeft]
    by_cases hi : i < k
    · simp [hiw, hi]
    · simp [hiw, hi, show i - k < w by omega, BitVec.getLsbD_of_ge x i (Nat.le_of_not_lt hi)]
  have hiterate : (shift poly)^[l + k] = (shift poly)^[l] ∘ (shift poly)^[k] := Function.iterate_add _ l k
  rw [feed, feed, feed, hjoin, hiterate, Function.comp_apply, ← BitVec.xor_assoc, shifts_xor poly k (c ^^^ x.setWidth w), hlow]

/-- A register that is fed its own complement holds what a fresh one of all ones does, whatever it held. -/
theorem feed_complement (c : BitVec w) : feed poly c (~~~ c) = (shift poly)^[w] (BitVec.allOnes w) := by
  rw [feed, BitVec.setWidth_eq, ← BitVec.xor_allOnes, ← BitVec.xor_assoc, BitVec.xor_self, BitVec.zero_xor]

end FidoTouch.Crc
