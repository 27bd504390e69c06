import Mathlib.Data.Set.Basic
import Sweetcomb.Ietf.Address

open keyed_store separator

namespace sweetcomb.ietf_interface

theorem not_mem_prefix_to_string (text : AddressText) (pfx : prefix_t) : '_' ∉ (pfx.to_string text).toList := by
  simp only [prefix_t.to_string, String.toList_append, List.mem_append, not_or]
  exact ⟨⟨fun hmem => (text.to_string_separators pfx.addr '_' hmem).2 rfl, by decide⟩,
    not_mem_repr _ (by decide)⟩

theorem prefix_to_string_inj (text : AddressText) {first second : prefix_t}
    (h : first.to_string text = second.to_string text) : first = second := by
  rw [← String.toList_inj] at h
  simp only [prefix_t.to_string, String.toList_append, List.append_assoc] at h
  obtain ⟨haddr, hlen⟩ := append_inj (not_mem_repr _ (by decide)) (not_mem_repr _ (by decide)) h
  have hlen : first.len.toNat = second.len.toNat := repr_injective (String.toList_inj.mp hlen)
  cases first
  cases second
  simp only [prefix_t.mk.injEq]
  exact ⟨text.to_string_injective (String.toList_inj.mp haddr), UInt8.toNat_inj.mp hlen⟩

/-- The last underscore ends the name, whatever the name contains. -/
theorem KEY_inj (text : AddressText) {itf itf' : String} {pfx pfx' : prefix_t} :
    KEY text itf pfx = KEY text itf' pfx' ↔ itf = itf' ∧ pfx = pfx' := by
  constructor
  · intro h
    rw [← String.toList_inj] at h
    simp only [KEY, String.toList_append, List.append_assoc, List.append_cancel_left_eq] at h
    obtain ⟨hitf, hpfx⟩ := append_inj (not_mem_prefix_to_string text pfx)
      (not_mem_prefix_to_string text pfx') h
    exact ⟨String.toList_inj.mp hitf, prefix_to_string_inj text (String.toList_inj.mp hpfx)⟩
  · rintro ⟨rfl, rfl⟩
    rfl

/-- The key of a binding is longer than the name of its interface. -/
theorem KEY_ne_name (text : AddressText) (name : String) (pfx : prefix_t) : KEY text name pfx ≠ name := by
  intro heq
  have hlength := congrArg String.length heq
  simp only [KEY, String.length_append] at hlength
  have hprefix : ("l3_" : String).length = 3 := rfl
  omega

/-- A set of bindings: an interface and a prefix each. -/
abbrev Bindings := Set (String × prefix_t)

/-- The bindings in OM are those of the set, each under its own key. -/
def Holds (text : AddressText) (om : Om) (bindings : Bindings) : Prop :=
  ∀ key itf pfx, (key, .l3_binding itf pfx) ∈ om ↔ key = KEY text itf pfx ∧ (itf, pfx) ∈ bindings

theorem Holds.remove {text : AddressText} {om : Om} {bindings : Bindings} (hholds : Holds text om bindings)
    (itf : String) (pfx : prefix_t) :
    Holds text (om.remove (KEY text itf pfx)) (bindings \ {(itf, pfx)}) := by
  intro key otherItf otherPfx
  rw [Store.mem_remove, hholds]
  simp only [Set.mem_sdiff, Set.mem_singleton_iff, Prod.mk.injEq]
  constructor
  · rintro ⟨⟨rfl, hmem⟩, hkey⟩
    exact ⟨rfl, hmem, fun hsame => hkey ((KEY_inj text).mpr hsame)⟩
  · rintro ⟨rfl, hmem, hdistinct⟩
    exact ⟨⟨rfl, hmem⟩, fun hkey => hdistinct ((KEY_inj text).mp hkey)⟩

theorem Holds.write {text : AddressText} {om : Om} {bindings : Bindings} (hholds : Holds text om bindings)
    (itf : String) (pfx : prefix_t) :
    Holds text (om.write object.singular (KEY text itf pfx) (.l3_binding itf pfx))
      (bindings ∪ {(itf, pfx)}) := by
  intro key otherItf otherPfx
  rw [Store.mem_write_of_rigid (rigid_l3_binding itf pfx), hholds]
  simp only [Set.mem_union, Set.mem_singleton_iff, Prod.mk.injEq, object.l3_binding.injEq]
  constructor
  · rintro (⟨rfl, rfl, rfl⟩ | ⟨rfl, hmem⟩)
    · exact ⟨rfl, .inr ⟨rfl, rfl⟩⟩
    · exact ⟨rfl, .inl hmem⟩
  · rintro ⟨rfl, hmem | ⟨rfl, rfl⟩⟩
    · exact .inr ⟨rfl, hmem⟩
    · exact .inl ⟨rfl, rfl, rfl⟩

end sweetcomb.ietf_interface
