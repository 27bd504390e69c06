import Sweetcomb.LeadingOnes
import Sweetcomb.Refcount
import Sweetcomb.Utils

open leading_ones

namespace sweetcomb

/-- The address is the netmask of the given prefix length. -/
def address.IsMask : address → Nat → Prop
  | .v4 bits, plen => LeadingOnes bits plen
  | .v6 bits, plen => LeadingOnes bits plen

/-- A conversion of a netmask inverts the encoding: it returns the length that is
    encoded, and throws when none is. With a fault it does neither. -/
structure Inverts (outcome : Except fault_t (Option UInt8)) (netmask : address) : Prop where
  returns : ∀ plen, netmask.IsMask plen → outcome = .ok (some (UInt8.ofNat plen))
  throws : (∀ plen, ¬ netmask.IsMask plen) → outcome = .ok none

theorem shifts_zero : shifts 0 = 0 := by
  rw [shifts]
  simp

theorem shifts_of_bounds {n k : Nat} (hlow : 2 ^ k ≤ n) (hhigh : n < 2 ^ (k + 1)) : shifts n = k + 1 := by
  induction k generalizing n with
  | zero =>
    obtain rfl : n = 1 := by omega
    rw [shifts, if_pos (by decide), Nat.shiftRight_eq_div_pow]
    exact congrArg (· + 1) shifts_zero
  | succ k ih =>
    have hpos : 0 < n := lt_of_lt_of_le (Nat.two_pow_pos _) hlow
    rw [shifts, if_pos hpos, Nat.shiftRight_eq_div_pow, pow_one]
    rw [pow_succ] at hlow hhigh
    rw [ih (by omega) (by omega)]

/-- On a big-endian host the first one bit decides. -/
theorem shifts_of_leadingOnes {word : BitVec 32} {plen : Nat} (hones : LeadingOnes word plen) :
    shifts word.toNat = if plen = 0 then 0 else 32 := by
  by_cases hzero : plen = 0
  · subst hzero
    rw [hones.eq_zero, if_pos rfl]
    exact shifts_zero
  · rw [if_neg hzero]
    exact shifts_of_bounds (hones.two_pow_le (by omega)) word.isLt

/-- On a little-endian host the last byte with a one bit comes first, and the
    first bit of that byte decides. -/
theorem shifts_of_swapped {word : BitVec 32} {plen : Nat} (hones : LeadingOnes word plen) :
    shifts (swap_bytes word).toNat = 8 * ((plen + 7) / 8) := by
  have hbounds : ∀ plen : Fin 33, 0 < plen.val →
      2 ^ (8 * ((plen.val + 7) / 8) - 1) ≤ (swap_bytes (mask 32 plen.val)).toNat ∧
        (swap_bytes (mask 32 plen.val)).toNat < 2 ^ (8 * ((plen.val + 7) / 8) - 1 + 1) := by decide
  rw [hones.eq_mask]
  by_cases hzero : plen = 0
  · subst hzero
    have hnothing : (swap_bytes (mask 32 0)).toNat = 0 := by decide
    rw [hnothing, shifts_zero]
  · obtain ⟨hlow, hhigh⟩ := hbounds ⟨plen, Nat.lt_succ_of_le hones.le_width⟩ (Nat.pos_of_ne_zero hzero)
    have hbyte : 8 * ((plen + 7) / 8) - 1 + 1 = 8 * ((plen + 7) / 8) := by omega
    rw [shifts_of_bounds hlow hhigh, hbyte]

section netmask_to_plen

variable (env : Env) {bits : BitVec 32} {plen : Nat}

/-- What comes out for an IPv4 netmask: whole bytes on a little-endian host, and
    nothing or everything on a big-endian one. -/
theorem netmask_to_plen_of_mask (hmask : LeadingOnes bits plen) :
    netmask_to_plen env (.v4 bits) =
      .ok (UInt8.ofNat (if env.little_endian then 8 * ((plen + 7) / 8) else if plen = 0 then 0 else 32)) := by
  unfold netmask_to_plen
  cases env.little_endian with
  | true => simp only [if_true, shifts_of_swapped hmask]
  | false => simp only [Bool.false_eq_true, if_false, shifts_of_leadingOnes hmask]

theorem netmask_to_plen_eq_iff (hmask : LeadingOnes bits plen) :
    netmask_to_plen env (.v4 bits) = .ok (UInt8.ofNat plen) ↔
      if env.little_endian then 8 ∣ plen else plen = 0 ∨ plen = 32 := by
  have hle := hmask.le_width
  have hsmall : plen < 2 ^ 8 := by omega
  have hbytes : 8 * ((plen + 7) / 8) < 2 ^ 8 := by omega
  rw [netmask_to_plen_of_mask env hmask, Except.ok.injEq, ← UInt8.toNat_inj, UInt8.toNat_ofNat_of_lt' hsmall]
  cases env.little_endian with
  | true =>
    simp only [if_true]
    rw [UInt8.toNat_ofNat_of_lt' hbytes]
    omega
  | false =>
    simp only [Bool.false_eq_true, if_false]
    split
    · next hzero => simp [hzero]
    · next hpos => simp [hpos, eq_comm]

end netmask_to_plen

/-- The conversion inverts the encoding exactly of the IPv4 netmasks of whole
    bytes on a little-endian host, and of the empty and the full one on a
    big-endian host. An IPv6 netmask overflows the stack, and every IPv4 address
    is given a length. -/
theorem netmask_inverts_iff (env : Env) (netmask : address) :
    Inverts ((netmask_to_plen env netmask).map some) netmask ↔
      netmask.is_v4 = true ∧
        ∃ plen, netmask.IsMask plen ∧ if env.little_endian then 8 ∣ plen else plen = 0 ∨ plen = 32 := by
  constructor
  · intro hinverts
    obtain ⟨plen, hmask⟩ : ∃ plen, netmask.IsMask plen := by
      by_contra hnone
      have hthrown := hinverts.throws fun plen hmask => hnone ⟨plen, hmask⟩
      cases netmask <;> cases hthrown
    have hreturned := hinverts.returns plen hmask
    cases netmask with
    | v6 bits => cases hreturned
    | v4 bits =>
      refine ⟨rfl, plen, hmask, (netmask_to_plen_eq_iff env hmask).mp ?_⟩
      rw [netmask_to_plen_of_mask env hmask] at hreturned ⊢
      exact congrArg Except.ok (Option.some.inj (Except.ok.inj hreturned))
  · rintro ⟨hv4, plen, hmask, hcondition⟩
    cases netmask with
    | v6 bits => cases hv4
    | v4 bits =>
      refine ⟨fun other hother => ?_, fun hnone => absurd hmask (hnone plen)⟩
      rw [(netmask_to_plen_eq_iff env hmask).mpr hcondition, LeadingOnes.unique hmask hother]
      rfl

/-- 255.255.254.0 is read as 24 on a little-endian host. -/
theorem netmask_23_not_inverted :
    (address.v4 0xFFFFFE00).IsMask 23 ∧
      ¬ Inverts ((netmask_to_plen counting (.v4 0xFFFFFE00)).map some) (.v4 0xFFFFFE00) := by
  have hmask : LeadingOnes (0xFFFFFE00 : BitVec 32) 23 := ⟨by decide, by decide⟩
  refine ⟨hmask, fun hinverts => ?_⟩
  have hreturned := hinverts.returns 23 hmask
  rw [netmask_to_plen_of_mask counting hmask] at hreturned
  exact absurd (Option.some.inj (Except.ok.inj hreturned)) (by decide)

end sweetcomb
