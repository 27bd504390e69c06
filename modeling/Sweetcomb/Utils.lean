import Sweetcomb.Separator
import Sweetcomb.Vom
import Mathlib.Algebra.Group.Int.Defs
import Mathlib.Algebra.Group.Nat.Defs
import Mathlib.Data.List.TakeWhile

open separator

namespace sweetcomb

/-- The blanks that `strtol` skips. -/
def isspace (c : Char) : Bool :=
  c == ' ' || ('\t' ≤ c && c ≤ '\r')

/-- `std::stoi`: leading blanks, a sign and the digits that follow are read and
    the rest is ignored. Throws without digits and outside the range of `int`. -/
def stoi (text : List Char) : Option Int :=
  let text := text.dropWhile isspace
  let digits := (if text.head? = some '-' ∨ text.head? = some '+' then text.tail else text).takeWhile Char.isDigit
  let magnitude : Int := Nat.ofDigitChars 10 digits 0
  let value := if text.head? = some '-' then -magnitude else magnitude
  if digits.isEmpty then none
  else if -2 ^ 31 ≤ value ∧ value < 2 ^ 31 then some value
  else none

/-- `utils::prefix`. -/
structure utils_prefix_t where
  m_address : address
  m_prefix_len : UInt16
deriving DecidableEq

/-- The constructor without arguments leaves the length as it is. -/
def utils_prefix_t.new (uninit : UInt16) : utils_prefix_t where
  m_address := .default
  m_prefix_len := uninit

/-- The constructor from text. Throws on `none`; the number read is narrowed to
    `unsigned short`. -/
def utils_prefix_t.parse (text : AddressText) (p : String) : Option utils_prefix_t := do
  let (before, after) ← splitLast '/' p.toList
  let m_address ← text.from_string (String.ofList before)
  let n ← stoi after
  some { m_address, m_prefix_len := UInt16.ofNat (n % 2 ^ 16).toNat }

def utils_prefix_t.prefix_length (p : utils_prefix_t) : UInt16 := p.m_prefix_len

def utils_prefix_t.address (p : utils_prefix_t) : sweetcomb.address := p.m_address

/-- The copy constructor. -/
def utils_prefix_t.copy (p : utils_prefix_t) : utils_prefix_t where
  m_address := p.address
  m_prefix_len := p.prefix_length

def utils_prefix_t.make_prefix (text : AddressText) (str : String) : Option utils_prefix_t :=
  (utils_prefix_t.parse text str).map utils_prefix_t.copy

/-- The copy changes nothing. -/
theorem utils_prefix_t.make_prefix_eq (text : AddressText) (str : String) :
    make_prefix text str = parse text str := by
  unfold make_prefix
  cases parse text str <;> rfl

def utils_prefix_t.to_string (text : AddressText) (p : utils_prefix_t) : String :=
  text.to_string p.m_address ++ "/" ++ p.m_prefix_len.toNat.repr

def utils_prefix_t.empty (text : AddressText) (p : utils_prefix_t) : Bool :=
  (p.to_string text).isEmpty

def swap_bytes (n : BitVec 32) : BitVec 32 :=
  n.extractLsb' 0 8 ++ n.extractLsb' 8 8 ++ n.extractLsb' 16 8 ++ n.extractLsb' 24 8

/-- How often `n` can be shifted right before it is zero. -/
def shifts (n : Nat) : Nat :=
  if 0 < n then shifts (n >>> 1) + 1 else 0
termination_by n
decreasing_by rw [Nat.shiftRight_eq_div_pow]; omega

/-- The bytes that `inet_pton` stores in network order are read as a number in
    the order of the host. The variable has room for the four bytes of an IPv4
    netmask: the sixteen of an IPv6 one are stored over what lies next to it. -/
def netmask_to_plen (env : Env) : address → Except fault_t UInt8
  | .v4 bits =>
    let n := if env.little_endian then swap_bytes bits else bits
    .ok (UInt8.ofNat (shifts n.toNat))
  | .v6 _ => .error .stack_overflow

theorem not_mem_repr (n : Nat) {c : Char} (hc : c.isDigit = false) : c ∉ n.repr.toList := by
  rw [Nat.toList_repr]
  intro hmem
  rw [Nat.isDigit_of_mem_toDigits (by decide) (by decide) hmem] at hc
  cases hc

theorem repr_injective : Function.Injective Nat.repr := by
  intro first second h
  have hdigits : Nat.toDigits 10 first = Nat.toDigits 10 second := by rw [← Nat.toList_repr, h, Nat.toList_repr]
  rw [← Nat.ofDigitChars_ten_toDigits (n := first), hdigits, Nat.ofDigitChars_ten_toDigits]

theorem takeWhile_toDigits (n : Nat) : (Nat.toDigits 10 n).takeWhile Char.isDigit = Nat.toDigits 10 n :=
  List.takeWhile_eq_self_iff.mpr fun _ hmem => Nat.isDigit_of_mem_toDigits (by decide) (by decide) hmem

theorem isspace_of_isDigit {c : Char} (hdigit : c.isDigit = true) : isspace c = false := by
  have hlow : 48 ≤ c.toNat := by
    simp only [Char.isDigit, Bool.and_eq_true, decide_eq_true_eq, ge_iff_le, UInt32.le_iff_toNat_le] at hdigit
    exact hdigit.1
  have hspace : c ≠ ' ' := by
    rintro rfl
    exact absurd hdigit (by decide)
  have hhigh : ¬ c ≤ '\r' := by
    rw [Char.le_def, UInt32.le_iff_toNat_le]
    change ¬ c.toNat ≤ 13
    omega
  simp [isspace, hspace, hhigh]

/-- A decimal number is read back, up to the range of `int`. -/
theorem stoi_toDigits {n : Nat} (hbound : n < 2 ^ 31) : stoi (Nat.toDigits 10 n) = some (n : Int) := by
  obtain ⟨head, tail, hdigits⟩ := List.exists_cons_of_ne_nil (Nat.toDigits_ne_nil (b := 10) (n := n))
  have hhead : head.isDigit = true :=
    Nat.isDigit_of_mem_toDigits (b := 10) (n := n) (by decide) (by decide) (by simp [hdigits])
  have hspace : isspace head = false := isspace_of_isDigit hhead
  have hminus : head ≠ '-' := by
    rintro rfl
    exact absurd hhead (by decide)
  have hplus : head ≠ '+' := by
    rintro rfl
    exact absurd hhead (by decide)
  have hdrop : (Nat.toDigits 10 n).dropWhile isspace = Nat.toDigits 10 n := by simp [hdigits, hspace]
  have hempty : (Nat.toDigits 10 n).isEmpty = false := by simp [hdigits]
  have hvalue : Nat.ofDigitChars 10 (Nat.toDigits 10 n) 0 = n := Nat.ofDigitChars_ten_toDigits
  have hnosign : ¬ ((Nat.toDigits 10 n).head? = some '-' ∨ (Nat.toDigits 10 n).head? = some '+') := by
    simp [hdigits, hminus, hplus]
  have hnominus : (Nat.toDigits 10 n).head? ≠ some '-' := fun h => hnosign (.inl h)
  simp only [stoi, hdrop, if_neg hnosign, if_neg hnominus, takeWhile_toDigits, hvalue, hempty]
  simp only [Bool.false_eq_true, if_false]
  rw [if_pos (by omega)]

/-- Printed text is read back in both parts. -/
theorem utils_prefix_t.make_prefix_to_string (text : AddressText) (p : utils_prefix_t) :
    utils_prefix_t.make_prefix text (p.to_string text) = some p := by
  have hslash : '/' ∉ Nat.toDigits 10 p.m_prefix_len.toNat := by
    rw [← Nat.toList_repr]
    exact not_mem_repr _ (by decide)
  have hsplit : splitLast '/' (p.to_string text).toList =
      some ((text.to_string p.m_address).toList, Nat.toDigits 10 p.m_prefix_len.toNat) := by
    simp only [utils_prefix_t.to_string, String.toList_append, Nat.toList_repr, List.append_assoc]
    exact splitLast_append hslash _
  have hlen : p.m_prefix_len.toNat < 2 ^ 16 := p.m_prefix_len.toNat_lt
  have hstoi := stoi_toDigits (n := p.m_prefix_len.toNat) (by omega)
  simp only [utils_prefix_t.make_prefix_eq, utils_prefix_t.parse, hsplit, hstoi, String.ofList_toList,
    text.from_string_to_string, Option.bind_eq_bind, Option.bind_some]
  have hnarrow : ((p.m_prefix_len.toNat : Int) % 2 ^ 16).toNat = p.m_prefix_len.toNat := by omega
  rw [hnarrow, UInt16.ofNat_toNat]

end sweetcomb
