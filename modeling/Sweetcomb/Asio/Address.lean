import Mathlib.Data.List.Basic

namespace sweetcomb

/-- `boost::asio::ip::address`: the bytes of an address of either family, in
    network order and without a zone. -/
inductive address where
  | v4 (bits : BitVec 32)
  | v6 (bits : BitVec 128)
deriving DecidableEq

/-- A default-constructed address is the unspecified IPv4 address. -/
def address.default : address := .v4 0

def address.is_v4 : address → Bool
  | .v4 _ => true
  | .v6 _ => false

/-- The text forms of addresses, with what the plugins rely on: parsing inverts
    printing, empty text is no address, and a printed address has none of the
    separators that the plugins put around it. Parsing throws on `none`. -/
structure AddressText where
  to_string : address → String
  from_string : String → Option address
  from_string_to_string : ∀ addr, from_string (to_string addr) = some addr
  from_string_empty : from_string "" = none
  to_string_separators : ∀ addr c, c ∈ (to_string addr).toList → c ≠ '/' ∧ c ≠ '_'

theorem AddressText.to_string_injective (text : AddressText) {first second : address}
    (h : text.to_string first = text.to_string second) : first = second := by
  have hparse := text.from_string_to_string first
  rw [h, text.from_string_to_string] at hparse
  exact (Option.some.inj hparse).symm

theorem AddressText.to_string_ne_empty (text : AddressText) (addr : address) :
    text.to_string addr ≠ "" := by
  intro hempty
  have hparse := text.from_string_to_string addr
  rw [hempty, text.from_string_empty] at hparse
  cases hparse

end sweetcomb
