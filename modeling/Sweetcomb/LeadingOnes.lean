import Mathlib.Algebra.Group.Nat.Defs
import Mathlib.Data.Nat.Basic

namespace leading_ones

variable {w : Nat}

/-- The one bits of a word are a run of the given length at its head. -/
structure LeadingOnes (bits : BitVec w) (len : Nat) : Prop where
  le_width : len ≤ w
  ones : ∀ i < w, bits.getMsbD i = decide (i < len)

/-- The word with such a run. -/
def mask (w len : Nat) : BitVec w := BitVec.allOnes w <<< (w - len)

theorem mask_leadingOnes {len : Nat} (hlen : len ≤ w) : LeadingOnes (mask w len) len := by
  refine ⟨hlen, fun i hi => ?_⟩
  rw [mask, BitVec.getMsbD_shiftLeft, BitVec.getMsbD_allOnes, decide_eq_decide]
  omega

theorem LeadingOnes.eq_mask {bits : BitVec w} {len : Nat} (hones : LeadingOnes bits len) : bits = mask w len := by
  refine BitVec.eq_of_getMsbD_eq fun i hi => ?_
  rw [hones.ones i hi, (mask_leadingOnes hones.le_width).ones i hi]

theorem LeadingOnes.unique {bits : BitVec w} {first second : Nat} (hfirst : LeadingOnes bits first)
    (hsecond : LeadingOnes bits second) : first = second := by
  have hfirst_le := hfirst.le_width
  have hsecond_le := hsecond.le_width
  by_contra hne
  rcases Nat.lt_or_gt_of_ne hne with hlt | hlt
  · have hbit := hsecond.ones first (by omega)
    rw [hfirst.ones first (by omega), decide_eq_decide] at hbit
    omega
  · have hbit := hfirst.ones second (by omega)
    rw [hsecond.ones second (by omega), decide_eq_decide] at hbit
    omega

/-- A word with a run is at least as large as its first bit. -/
theorem LeadingOnes.two_pow_le {bits : BitVec w} {len : Nat} (hones : LeadingOnes bits len) (hpos : 0 < len) :
    2 ^ (w - 1) ≤ bits.toNat := by
  have hle := hones.le_width
  refine BitVec.le_toNat_of_msb_true ?_
  rw [BitVec.msb, hones.ones 0 (by omega)]
  exact decide_eq_true hpos

theorem LeadingOnes.eq_zero {bits : BitVec w} (hones : LeadingOnes bits 0) : bits = 0 := by
  rw [hones.eq_mask, mask]
  simp

end leading_ones
