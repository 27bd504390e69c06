import Sweetcomb.Asio.Address
import Mathlib.Algebra.Group.Nat.Even

namespace sweetcomb

/-- The `count` low digits of a number in a base, most significant first. -/
def positional (base : Nat) : Nat → Nat → List Nat
  | 0, _ => []
  | count + 1, n => positional base count (n / base) ++ [n % base]

def fromPositional (base : Nat) (digits : List Nat) : Nat :=
  digits.foldl (fun n digit => n * base + digit) 0

theorem positional_length (base count n : Nat) : (positional base count n).length = count := by
  induction count generalizing n with
  | zero => rfl
  | succ count ih => simp [positional, ih]

theorem lt_of_mem_positional {base count n digit : Nat} (hbase : 0 < base)
    (hmem : digit ∈ positional base count n) : digit < base := by
  induction count generalizing n with
  | zero => simp [positional] at hmem
  | succ count ih =>
    rw [positional, List.mem_append, List.mem_singleton] at hmem
    rcases hmem with hmem | rfl
    · exact ih hmem
    · exact Nat.mod_lt n hbase

theorem fromPositional_positional {base count n : Nat} (hbound : n < base ^ count) :
    fromPositional base (positional base count n) = n := by
  induction count generalizing n with
  | zero =>
    have hzero : n = 0 := by simpa using hbound
    simp [positional, fromPositional, hzero]
  | succ count ih =>
    have hquotient : n / base < base ^ count := by
      rw [Nat.pow_succ, Nat.mul_comm] at hbound
      exact Nat.div_lt_of_lt_mul hbound
    have hprefix := ih hquotient
    unfold fromPositional at hprefix ⊢
    rw [positional, List.foldl_append, hprefix, List.foldl_cons, List.foldl_nil]
    exact Nat.div_add_mod' n base

theorem map_positional {base count n : Nat} {f : Nat → Nat} (hbase : 0 < base)
    (hf : ∀ digit < base, f digit = digit) : (positional base count n).map f = positional base count n := by
  have hmap : (positional base count n).map f = (positional base count n).map id :=
    List.map_congr_left fun digit hdigit => hf digit (lt_of_mem_positional hbase hdigit)
  rw [hmap, List.map_id]

/-- Text of a number: its digits in a base, each printed, between separators.
    Dotted decimal and colon-separated hexadecimal are the two uses. -/
def joined (separator : Char) (print : Nat → List Char) (base count n : Nat) : List Char :=
  [separator].intercalate ((positional base count n).map print)

def unjoined (separator : Char) (parse : List Char → Nat) (base : Nat) (text : List Char) : Nat :=
  fromPositional base ((text.splitOn separator).map parse)

theorem mem_intercalate {c separator : Char} {words : List (List Char)}
    (hmem : c ∈ [separator].intercalate words) : c = separator ∨ ∃ word ∈ words, c ∈ word := by
  induction words with
  | nil => simp [List.intercalate] at hmem
  | cons word words ih =>
    cases words with
    | nil =>
      rw [List.intercalate_singleton] at hmem
      exact .inr ⟨word, by simp, hmem⟩
    | cons next words =>
      rw [List.intercalate_cons_cons, List.append_assoc, List.mem_append, List.mem_append,
        List.mem_singleton] at hmem
      rcases hmem with hmem | rfl | hmem
      · exact .inr ⟨word, by simp, hmem⟩
      · exact .inl rfl
      · rcases ih hmem with rfl | ⟨other, hother, hmem⟩
        · exact .inl rfl
        · exact .inr ⟨other, List.mem_cons_of_mem _ hother, hmem⟩

theorem mem_joined {c separator : Char} {print : Nat → List Char} {base count n : Nat}
    (hmem : c ∈ joined separator print base count n) : c = separator ∨ ∃ digit, c ∈ print digit := by
  rcases mem_intercalate hmem with rfl | ⟨word, hword, hmem⟩
  · exact .inl rfl
  · obtain ⟨digit, _, rfl⟩ := List.mem_map.mp hword
    exact .inr ⟨digit, hmem⟩

/-- Splitting at the separator and reading the digits back inverts `joined`. -/
theorem unjoined_joined {separator : Char} {print : Nat → List Char} {parse : List Char → Nat}
    {base count n : Nat} (hbase : 0 < base) (hcount : 0 < count) (hbound : n < base ^ count)
    (hparse : ∀ digit < base, parse (print digit) = digit) (hseparator : ∀ digit, separator ∉ print digit) :
    unjoined separator parse base (joined separator print base count n) = n := by
  have hnonempty : (positional base count n).map print ≠ [] := by
    rw [← List.length_pos_iff, List.length_map, positional_length]
    exact hcount
  have hwords : ∀ word ∈ (positional base count n).map print, separator ∉ word := by
    intro word hword
    obtain ⟨digit, _, rfl⟩ := List.mem_map.mp hword
    exact hseparator digit
  unfold unjoined joined
  rw [List.splitOn_intercalate separator hwords hnonempty, List.map_map]
  rw [map_positional (f := parse ∘ print) hbase hparse, fromPositional_positional hbound]

/-- Four hexadecimal digits, leading zeros kept. -/
def hexGroup (n : Nat) : List Char :=
  (positional 16 4 n).map Nat.digitChar

def hexValue (c : Char) : Nat :=
  ((List.range 16).find? fun digit => Nat.digitChar digit == c).getD 0

def hexGroupValue (text : List Char) : Nat :=
  fromPositional 16 (text.map hexValue)

theorem hexGroupValue_hexGroup {n : Nat} (hbound : n < 16 ^ 4) : hexGroupValue (hexGroup n) = n := by
  have hvalue : ∀ digit < 16, hexValue (Nat.digitChar digit) = digit := by decide
  unfold hexGroupValue hexGroup
  rw [List.map_map, map_positional (f := hexValue ∘ Nat.digitChar) (by decide) hvalue, fromPositional_positional hbound]

theorem mem_hexGroup {c : Char} {n : Nat} (hmem : c ∈ hexGroup n) :
    c ≠ '/' ∧ c ≠ '_' ∧ c ≠ '.' ∧ c ≠ ':' := by
  have hchars : ∀ digit < 16, Nat.digitChar digit ≠ '/' ∧ Nat.digitChar digit ≠ '_' ∧
      Nat.digitChar digit ≠ '.' ∧ Nat.digitChar digit ≠ ':' := by decide
  obtain ⟨digit, hdigit, rfl⟩ := List.mem_map.mp hmem
  exact hchars digit (lt_of_mem_positional (by decide) hdigit)

theorem mem_decimal {c : Char} {n : Nat} (hmem : c ∈ Nat.toDigits 10 n) :
    c ≠ '/' ∧ c ≠ '_' ∧ c ≠ '.' := by
  have hdigit := Nat.isDigit_of_mem_toDigits (by decide) (by decide) hmem
  refine ⟨?_, ?_, ?_⟩ <;> rintro rfl <;> exact absurd hdigit (by decide)

/-- Text form of an address: dotted decimal for IPv4, eight full groups for
    IPv6. -/
def plainChars : address → List Char
  | .v4 bits => joined '.' (Nat.toDigits 10) 256 4 bits.toNat
  | .v6 bits => joined ':' hexGroup (16 ^ 4) 8 bits.toNat

def dottedValue (text : List Char) : BitVec 32 :=
  .ofNat 32 (unjoined '.' (fun digits => Nat.ofDigitChars 10 digits 0) 256 text)

def colonValue (text : List Char) : BitVec 128 :=
  .ofNat 128 (unjoined ':' hexGroupValue (16 ^ 4) text)

theorem dottedValue_plainChars (bits : BitVec 32) : dottedValue (plainChars (.v4 bits)) = bits := by
  have hvalue : unjoined '.' (fun digits => Nat.ofDigitChars 10 digits 0) 256
      (plainChars (.v4 bits)) = bits.toNat := by
    apply unjoined_joined (by decide) (by decide)
    · exact bits.isLt
    · exact fun digit _ => Nat.ofDigitChars_toDigits (by decide) (by decide)
    · exact fun digit hmem => (mem_decimal hmem).2.2 rfl
  rw [dottedValue, hvalue, BitVec.ofNat_toNat, BitVec.setWidth_eq]

theorem colonValue_plainChars (bits : BitVec 128) : colonValue (plainChars (.v6 bits)) = bits := by
  have hvalue : unjoined ':' hexGroupValue (16 ^ 4) (plainChars (.v6 bits)) = bits.toNat := by
    apply unjoined_joined (by decide) (by decide)
    · exact bits.isLt
    · exact fun digit hdigit => hexGroupValue_hexGroup hdigit
    · exact fun digit hmem => (mem_hexGroup hmem).2.2.2 rfl
  rw [colonValue, hvalue, BitVec.ofNat_toNat, BitVec.setWidth_eq]

theorem dot_mem_plainChars_v4 (bits : BitVec 32) : '.' ∈ plainChars (.v4 bits) := by
  simp [plainChars, joined, positional, List.intercalate, List.intersperse]

theorem dot_not_mem_plainChars_v6 (bits : BitVec 128) : '.' ∉ plainChars (.v6 bits) := by
  intro hmem
  rcases mem_joined hmem with hcolon | ⟨digit, hmem⟩
  · exact absurd hcolon (by decide)
  · exact (mem_hexGroup hmem).2.2.1 rfl

theorem plainChars_injective {first second : address} (h : plainChars first = plainChars second) :
    first = second := by
  cases first with
  | v4 bits =>
    cases second with
    | v4 other => rw [← dottedValue_plainChars bits, h, dottedValue_plainChars]
    | v6 other => exact absurd (h ▸ dot_mem_plainChars_v4 bits) (dot_not_mem_plainChars_v6 other)
  | v6 bits =>
    cases second with
    | v4 other => exact absurd (h ▸ dot_mem_plainChars_v4 other) (dot_not_mem_plainChars_v6 bits)
    | v6 other => rw [← colonValue_plainChars bits, h, colonValue_plainChars]

/-- A text is an address if it is how one of its two readings prints. -/
def plainParse (text : List Char) : Option address :=
  [.v4 (dottedValue text), .v6 (colonValue text)].find? fun addr => plainChars addr == text

theorem plainParse_plainChars (addr : address) : plainParse (plainChars addr) = some addr := by
  cases hparse : plainParse (plainChars addr) with
  | none =>
    have hnone := List.find?_eq_none.mp hparse addr
    cases addr with
    | v4 bits => simp [dottedValue_plainChars] at hnone
    | v6 bits => simp [colonValue_plainChars] at hnone
  | some other =>
    have hsame := List.find?_some hparse
    rw [beq_iff_eq] at hsame
    rw [plainChars_injective hsame]

/-- A concrete text form, on IPv4 addresses the usual one. -/
def plainText : AddressText where
  to_string addr := String.ofList (plainChars addr)
  from_string text := plainParse text.toList
  from_string_to_string addr := by rw [String.toList_ofList, plainParse_plainChars]
  from_string_empty := by decide
  to_string_separators addr c hmem := by
    rw [String.toList_ofList] at hmem
    cases addr with
    | v4 bits =>
      rcases mem_joined hmem with rfl | ⟨digit, hmem⟩
      · decide
      · exact ⟨(mem_decimal hmem).1, (mem_decimal hmem).2.1⟩
    | v6 bits =>
      rcases mem_joined hmem with rfl | ⟨digit, hmem⟩
      · decide
      · exact ⟨(mem_hexGroup hmem).1, (mem_hexGroup hmem).2.1⟩

example : plainText.to_string (.v4 0xC0A80001) = "192.168.0.1" := by decide

end sweetcomb
