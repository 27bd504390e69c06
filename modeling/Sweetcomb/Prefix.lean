import Sweetcomb.Asio.Text
import Sweetcomb.Utils

open separator

namespace sweetcomb

/-- The number of bits of an address, the longest prefix that it can have. -/
def address.width : address → Nat
  | .v4 _ => 32
  | .v6 _ => 128

/-- A text as `std::stoi` takes it apart: blanks, a sign, the digits that are
    read and what is ignored after them. -/
structure ReadAs (text blanks sign digits rest : List Char) : Prop where
  parts : text = blanks ++ (sign ++ (digits ++ rest))
  blanks : ∀ c ∈ blanks, isspace c = true
  sign : sign = [] ∨ sign = ['+'] ∨ sign = ['-']
  nonempty : digits ≠ []
  digits : ∀ c ∈ digits, c.isDigit = true
  rest : ∀ c ∈ rest.head?, c.isDigit = false

/-- The number that is read. -/
def signed (sign digits : List Char) : Int :=
  if sign = ['-'] then -(Nat.ofDigitChars 10 digits 0 : Int) else Nat.ofDigitChars 10 digits 0

/-- The range of `int`. -/
def FitsInt (n : Int) : Prop := -2 ^ 31 ≤ n ∧ n < 2 ^ 31

instance (n : Int) : Decidable (FitsInt n) := inferInstanceAs (Decidable (_ ∧ _))

section stoi

variable {text blanks sign digits rest : List Char}

theorem ReadAs.stoi (hread : ReadAs text blanks sign digits rest) :
    stoi text = if FitsInt (signed sign digits) then some (signed sign digits) else none := by
  obtain ⟨first, others, hdigits⟩ := List.exists_cons_of_ne_nil hread.nonempty
  have hfirst : first.isDigit = true := hread.digits first (by simp [hdigits])
  have hminus : first ≠ '-' := by
    rintro rfl
    exact absurd hfirst (by decide)
  have hplus : first ≠ '+' := by
    rintro rfl
    exact absurd hfirst (by decide)
  have hunspaced : ∀ c ∈ (sign ++ (digits ++ rest)).head?, isspace c = false := by
    intro c hc
    rcases hread.sign with rfl | rfl | rfl
    · simp only [hdigits, List.nil_append, List.cons_append, List.head?_cons, Option.mem_some_iff] at hc
      exact isspace_of_isDigit (hc ▸ hfirst)
    · obtain rfl : '+' = c := by simpa using hc
      decide
    · obtain rfl : '-' = c := by simpa using hc
      decide
  have hdrop : text.dropWhile isspace = sign ++ (digits ++ rest) := by
    rw [hread.parts, dropWhile_append_of_head hread.blanks hunspaced]
  have htake : (digits ++ rest).takeWhile Char.isDigit = digits := takeWhile_append_of_head hread.digits hread.rest
  have hempty : digits.isEmpty = false := by simp [hdigits]
  rcases hread.sign with rfl | rfl | rfl
  · have hhead : (digits ++ rest).head? = some first := by simp [hdigits]
    simp [sweetcomb.stoi, hdrop, hhead, hminus, hplus, htake, hempty, signed, FitsInt]
  · simp [sweetcomb.stoi, hdrop, htake, hempty, signed, FitsInt]
  · simp [sweetcomb.stoi, hdrop, htake, hempty, signed, FitsInt]

theorem exists_sign (text : List Char) :
    ∃ sign unsigned, text = sign ++ unsigned ∧ (sign = [] ∨ sign = ['+'] ∨ sign = ['-']) ∧
      (if text.head? = some '-' ∨ text.head? = some '+' then text.tail else text) = unsigned := by
  by_cases hminus : text.head? = some '-'
  · exact ⟨['-'], text.tail, List.eq_cons_of_mem_head? hminus, .inr (.inr rfl), if_pos (.inl hminus)⟩
  · by_cases hplus : text.head? = some '+'
    · exact ⟨['+'], text.tail, List.eq_cons_of_mem_head? hplus, .inr (.inl rfl), if_pos (.inr hplus)⟩
    · exact ⟨[], text, rfl, .inl rfl, if_neg (not_or.mpr ⟨hminus, hplus⟩)⟩

/-- Whatever is read without an exception has the parts of a number. -/
theorem exists_readAs {n : Int} (hstoi : stoi text = some n) :
    ∃ blanks sign digits rest, ReadAs text blanks sign digits rest := by
  obtain ⟨sign, unsigned, hparts, hsign, hunsigned⟩ := exists_sign (text.dropWhile isspace)
  refine ⟨text.takeWhile isspace, sign, unsigned.takeWhile Char.isDigit, unsigned.dropWhile Char.isDigit, ?_⟩
  constructor
  case parts => rw [List.takeWhile_append_dropWhile, ← hparts, List.takeWhile_append_dropWhile]
  case blanks => exact fun c hc => List.mem_takeWhile_imp hc
  case sign => exact hsign
  case digits => exact fun c hc => List.mem_takeWhile_imp hc
  case rest => exact head_of_dropWhile Char.isDigit unsigned
  case nonempty =>
    intro hempty
    simp [sweetcomb.stoi, hunsigned, hempty] at hstoi

theorem stoi_eq_some_iff {n : Int} : stoi text = some n ↔
    ∃ blanks sign digits rest, ReadAs text blanks sign digits rest ∧ FitsInt n ∧ signed sign digits = n := by
  constructor
  · intro hstoi
    obtain ⟨blanks, sign, digits, rest, hread⟩ := exists_readAs hstoi
    rw [hread.stoi] at hstoi
    split at hstoi
    case isTrue hfits =>
      cases hstoi
      exact ⟨blanks, sign, digits, rest, hread, hfits, rfl⟩
    case isFalse => cases hstoi
  · rintro ⟨blanks, sign, digits, rest, hread, hfits, rfl⟩
    rw [hread.stoi, if_pos hfits]

end stoi

section grammar

variable (text : AddressText) (s : String)

/-- What the header documents: an address, a slash and the decimal prefix length,
    with nothing around it. -/
def Documented (p : utils_prefix_t) : Prop :=
  ∃ addr digits, s.toList = addr ++ '/' :: digits ∧ text.from_string (String.ofList addr) = some p.address ∧
    digits ≠ [] ∧ (∀ c ∈ digits, c.isDigit = true) ∧
    Nat.ofDigitChars 10 digits 0 = p.prefix_length.toNat ∧ p.prefix_length.toNat ≤ p.address.width

/-- The constructor accepts nothing else, and reads what is written. -/
structure AcceptsDocumented : Prop where
  accepted : ∀ p, utils_prefix_t.make_prefix text s = some p → Documented text s p
  rejected : (∀ p, ¬ Documented text s p) → utils_prefix_t.make_prefix text s = none

/-- A number found behind the last slash, after an address, stands there alone
    and is not too long for the address. -/
def NumberFits : Prop :=
  ∀ addr after bits blanks sign digits rest, s.toList = addr ++ '/' :: after → '/' ∉ after →
    text.from_string (String.ofList addr) = some bits →
    ReadAs after blanks sign digits rest → FitsInt (signed sign digits) →
      blanks = [] ∧ sign = [] ∧ rest = [] ∧ Nat.ofDigitChars 10 digits 0 ≤ bits.width

variable {text s}

/-- The prefix of an address and the number that is read. -/
def narrowed (bits : address) (n : Int) : utils_prefix_t where
  m_address := bits
  m_prefix_len := UInt16.ofNat (n % 2 ^ 16).toNat

theorem make_prefix_eq_some_iff {p : utils_prefix_t} : utils_prefix_t.make_prefix text s = some p ↔
    ∃ addr after n, s.toList = addr ++ '/' :: after ∧ '/' ∉ after ∧
      ∃ bits, text.from_string (String.ofList addr) = some bits ∧ stoi after = some n ∧ narrowed bits n = p := by
  constructor
  · intro hparse
    simp only [utils_prefix_t.make_prefix_eq, utils_prefix_t.parse, Option.bind_eq_bind,
      Option.bind_eq_some_iff] at hparse
    obtain ⟨⟨addr, after⟩, hsplit, bits, haddr, n, hn, hp⟩ := hparse
    obtain ⟨hparts, habsent⟩ := splitLast_eq_some hsplit
    exact ⟨addr, after, n, hparts, habsent, bits, haddr, hn, Option.some.inj hp⟩
  · rintro ⟨addr, after, n, hparts, habsent, bits, haddr, hn, rfl⟩
    simp [utils_prefix_t.make_prefix_eq, utils_prefix_t.parse, hparts, splitLast_append habsent, haddr, hn, narrowed]

theorem not_mem_of_digits {digits : List Char} {c : Char} (hdigits : ∀ c ∈ digits, c.isDigit = true)
    (hc : c.isDigit = false) : c ∉ digits := by
  intro hmem
  rw [hdigits c hmem] at hc
  cases hc

/-- Digits that are read as a number are its only part. -/
theorem ReadAs.of_digits {after blanks sign digits rest : List Char} (hread : ReadAs after blanks sign digits rest)
    (hafter : ∀ c ∈ after, c.isDigit = true) : blanks = [] ∧ sign = [] ∧ rest = [] := by
  have hmem (c : Char) (hc : c ∈ blanks ∨ c ∈ sign ∨ c ∈ rest) : c.isDigit = true := by
    apply hafter
    rw [hread.parts]
    simp only [List.mem_append]
    tauto
  refine ⟨?_, ?_, ?_⟩
  · refine List.eq_nil_iff_forall_not_mem.mpr fun c hc => ?_
    have hspace := hread.blanks c hc
    rw [isspace_of_isDigit (hmem c (.inl hc))] at hspace
    cases hspace
  · rcases hread.sign with hsign | rfl | rfl
    · exact hsign
    · exact absurd (hmem '+' (by simp)) (by decide)
    · exact absurd (hmem '-' (by simp)) (by decide)
  · cases rest with
    | nil => rfl
    | cons c rest =>
      have hdigit := hmem c (by simp)
      rw [hread.rest c (by simp)] at hdigit
      cases hdigit

theorem readAs_digits {digits : List Char} (hnonempty : digits ≠ []) (hdigits : ∀ c ∈ digits, c.isDigit = true) :
    ReadAs digits [] [] digits [] where
  parts := by simp
  blanks := by simp
  sign := .inl rfl
  nonempty := hnonempty
  digits := hdigits
  rest := by simp

theorem narrowed_nat {bits : address} {n : Nat} (hfits : n ≤ bits.width) :
    (narrowed bits n).prefix_length.toNat = n := by
  have hwidth : bits.width ≤ 128 := by cases bits <;> simp [address.width]
  have hn : ((n : Int) % 2 ^ 16).toNat = n := by omega
  rw [narrowed, utils_prefix_t.prefix_length, hn, UInt16.toNat_ofNat_of_lt' (by change n < 65536; omega)]

/-- Every documented text is accepted, and read as it is written. -/
theorem make_prefix_documented {p : utils_prefix_t} (hdocumented : Documented text s p) :
    utils_prefix_t.make_prefix text s = some p := by
  obtain ⟨addr, digits, hparts, haddr, hnonempty, hdigits, hvalue, hwidth⟩ := hdocumented
  have hread := readAs_digits hnonempty hdigits
  have hfits : FitsInt (signed [] digits) := by
    have hlt := p.prefix_length.toNat_lt
    simp only [FitsInt, signed, reduceCtorEq, if_false, hvalue]
    omega
  have hstoi : stoi digits = some (p.prefix_length.toNat : Int) := by
    rw [hread.stoi, if_pos hfits]
    simp [signed, hvalue]
  refine make_prefix_eq_some_iff.mpr
    ⟨addr, digits, _, hparts, not_mem_of_digits hdigits (by decide), p.address, haddr, hstoi, ?_⟩
  have hlen := narrowed_nat hwidth
  cases p
  simp only [narrowed, utils_prefix_t.address, utils_prefix_t.mk.injEq, true_and]
  exact UInt16.toNat_inj.mp hlen

/-- The constructor accepts documented text only, exactly when the number behind
    the last slash stands alone and fits. -/
theorem accepts_documented_iff (text : AddressText) (s : String) : AcceptsDocumented text s ↔ NumberFits text s := by
  constructor
  · intro haccepts addr after bits blanks sign digits rest hparts habsent haddr hread hfits
    have hstoi : stoi after = some (signed sign digits) := by rw [hread.stoi, if_pos hfits]
    obtain ⟨ownAddr, ownDigits, hown, hownAddr, _, hdigits, hvalue, hwidth⟩ := haccepts.accepted _
      (make_prefix_eq_some_iff.mpr ⟨addr, after, _, hparts, habsent, bits, haddr, hstoi, rfl⟩)
    rw [hparts] at hown
    obtain ⟨rfl, rfl⟩ := append_inj habsent (not_mem_of_digits hdigits (by decide)) hown
    obtain ⟨rfl, rfl, rfl⟩ := hread.of_digits hdigits
    obtain rfl : after = digits := by simpa using hread.parts
    refine ⟨rfl, rfl, rfl, ?_⟩
    rw [hvalue]
    exact hwidth
  · intro hnumber
    have haccepted (p : utils_prefix_t) (hparse : utils_prefix_t.make_prefix text s = some p) :
        Documented text s p := by
      obtain ⟨addr, after, n, hparts, habsent, bits, haddr, hstoi, rfl⟩ := make_prefix_eq_some_iff.mp hparse
      obtain ⟨blanks, sign, digits, rest, hread, hfits, rfl⟩ := stoi_eq_some_iff.mp hstoi
      obtain ⟨rfl, rfl, rfl, hwidth⟩ :=
        hnumber addr after bits blanks sign digits rest hparts habsent haddr hread hfits
      obtain rfl : after = digits := by simpa using hread.parts
      have hlen : (narrowed bits (signed [] after)).prefix_length.toNat = Nat.ofDigitChars 10 after 0 :=
        narrowed_nat hwidth
      exact ⟨addr, after, hparts, haddr, hread.nonempty, hread.digits, hlen.symm, hlen ▸ hwidth⟩
    refine ⟨haccepted, fun hnone => ?_⟩
    cases hparse : utils_prefix_t.make_prefix text s with
    | none => rfl
    | some p => exact absurd (haccepted p hparse) (hnone p)

end grammar

/-- A length that no prefix has is accepted, as another one. -/
theorem length_65560_accepted : ¬ AcceptsDocumented plainText "192.168.0.1/65560" := by
  intro haccepts
  obtain ⟨addr, digits, hparts, _, _, hdigits, hvalue, _⟩ :=
    haccepts.accepted { m_address := .v4 0xC0A80001, m_prefix_len := 24 } (by decide)
  have hsplit : "192.168.0.1/65560".toList = "192.168.0.1".toList ++ '/' :: "65560".toList := by decide
  rw [hsplit] at hparts
  obtain ⟨_, rfl⟩ := append_inj (by decide) (not_mem_of_digits hdigits (by decide)) hparts
  exact absurd hvalue (by decide)

/-- The text of a prefix is read back in both parts, and so is the text of
    whatever has been read. -/
theorem prefix_text_round_trips (text : AddressText) :
    (∀ (addr : address) (n : UInt16), n.toNat ≤ addr.width →
      ∃ p, utils_prefix_t.make_prefix text (utils_prefix_t.to_string text { m_address := addr, m_prefix_len := n }) =
        some p ∧ p.address = addr ∧ p.prefix_length = n) ∧
    (∀ s p, utils_prefix_t.make_prefix text s = some p →
      ∃ again, utils_prefix_t.make_prefix text (p.to_string text) = some again ∧
        again.address = p.address ∧ again.prefix_length = p.prefix_length) := by
  refine ⟨fun addr n _ => ?_, fun s p _ => ?_⟩
  · exact ⟨_, utils_prefix_t.make_prefix_to_string text _, rfl, rfl⟩
  · exact ⟨p, utils_prefix_t.make_prefix_to_string text p, rfl, rfl⟩

end sweetcomb
