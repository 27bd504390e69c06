import Mathlib.Data.Finset.SDiff
import Sweetcomb.Ietf.Address.Bindings
import Sweetcomb.Refcount

open keyed_store

namespace sweetcomb.ietf_interface

/-- An interface that OM does not hold, and to which no binding refers. -/
structure Absent (om : Om) (name : String) : Prop where
  interface : ∀ key attrs, (key, .interface name attrs) ∉ om
  bindings : ∀ key pfx, (key, .l3_binding name pfx) ∉ om

/-- What OM holds of one interface: the interface itself, perhaps, and the
    bindings of a set of prefixes, each under its own key. -/
structure Presence (text : AddressText) (om : Om) (name : String) (present : Bool) (prefixes : Finset prefix_t) :
    Prop where
  interface : ∀ key attrs, (key, .interface name attrs) ∈ om → key = name
  present : (∃ attrs, (name, .interface name attrs) ∈ om) ↔ present = true
  bindings : ∀ key pfx, (key, .l3_binding name pfx) ∈ om ↔ key = KEY text name pfx ∧ pfx ∈ prefixes

section presence

variable {text : AddressText} {om : Om} {name : String} {present : Bool} {prefixes : Finset prefix_t}

variable (text) in
theorem presence_iff_absent : Presence text om name false ∅ ↔ Absent om name := by
  constructor
  · intro hpresence
    refine ⟨fun key attrs hmem => ?_, fun key pfx hmem => ?_⟩
    · obtain rfl := hpresence.interface key attrs hmem
      exact Bool.false_ne_true (hpresence.present.mp ⟨attrs, hmem⟩)
    · exact absurd ((hpresence.bindings key pfx).mp hmem).2 (Finset.notMem_empty pfx)
  · intro habsent
    refine ⟨fun key attrs hmem => absurd hmem (habsent.interface key attrs), ?_, fun key pfx => ?_⟩
    · simp [habsent.interface]
    · simp [habsent.bindings]

/-- VOM finds the interface while it is present or a binding is left. -/
theorem Presence.alive_iff {env : Env} (hcounts : env.Counts) (hpresence : Presence env.text om name present prefixes) :
    env.alive om name = true ↔ present = true ∨ prefixes.Nonempty := by
  rw [hcounts om name]
  constructor
  · rintro ⟨⟨key, obj⟩, hmem, hkeeps⟩
    cases obj with
    | interface other attrs =>
      obtain rfl : other = name := by simpa [object.keeps] using hkeeps
      obtain rfl := hpresence.interface key attrs hmem
      exact .inl (hpresence.present.mp ⟨attrs, hmem⟩)
    | l3_binding itf pfx =>
      obtain rfl : itf = name := by simpa [object.keeps] using hkeeps
      exact .inr ⟨pfx, ((hpresence.bindings key pfx).mp hmem).2⟩
    | nat_static inside outside => cases hkeeps
  · rintro (hpresent | ⟨pfx, hpfx⟩)
    · obtain ⟨attrs, hmem⟩ := hpresence.present.mpr hpresent
      exact ⟨_, hmem, by simp [object.keeps]⟩
    · exact ⟨_, (hpresence.bindings _ pfx).mpr ⟨rfl, hpfx⟩, by simp [object.keeps]⟩

theorem Presence.create (hpresence : Presence text om name present prefixes) (attrs : interface_attrs) :
    Presence text (om.write object.singular name (.interface name attrs)) name true prefixes where
  interface := by
    intro key other hmem
    rcases Store.mem_write.mp hmem with hsame | ⟨hmem, _⟩
    · exact (Prod.mk.inj hsame).1
    · exact hpresence.interface key other hmem
  present := by simp
  bindings := by
    intro key pfx
    rw [Store.mem_write, hpresence.bindings]
    simp [object.singular]

theorem Presence.delete (hpresence : Presence text om name present prefixes) :
    Presence text (om.remove name) name false prefixes where
  interface := fun key attrs hmem => hpresence.interface key attrs (Store.mem_remove.mp hmem).1
  present := by simp
  bindings := by
    intro key pfx
    rw [Store.mem_remove, hpresence.bindings]
    exact ⟨And.left, fun hheld => ⟨hheld, hheld.1 ▸ KEY_ne_name text name pfx⟩⟩

theorem Presence.bind (hpresence : Presence text om name present prefixes) (pfx : prefix_t) :
    Presence text (om.write object.singular (KEY text name pfx) (.l3_binding name pfx)) name present
      (insert pfx prefixes) where
  interface := by
    intro key attrs hmem
    rcases (Store.mem_write_of_rigid (rigid_l3_binding name pfx)).mp hmem with hsame | hmem
    · cases hsame
    · exact hpresence.interface key attrs hmem
  present := by
    rw [← hpresence.present]
    simp [Store.mem_write_of_rigid (rigid_l3_binding name pfx)]
  bindings := by
    intro key other
    rw [Store.mem_write_of_rigid (rigid_l3_binding name pfx), hpresence.bindings, Finset.mem_insert]
    simp only [Prod.mk.injEq, object.l3_binding.injEq, true_and]
    constructor
    · rintro (⟨rfl, rfl⟩ | ⟨rfl, hmem⟩)
      · exact ⟨rfl, .inl rfl⟩
      · exact ⟨rfl, .inr hmem⟩
    · rintro ⟨rfl, rfl | hmem⟩
      · exact .inl ⟨rfl, rfl⟩
      · exact .inr ⟨rfl, hmem⟩

theorem Presence.unbind (hpresence : Presence text om name present prefixes) (pfx : prefix_t) :
    Presence text (om.remove (KEY text name pfx)) name present (prefixes.erase pfx) where
  interface := fun key attrs hmem => hpresence.interface key attrs (Store.mem_remove.mp hmem).1
  present := by
    rw [← hpresence.present]
    simp [Store.mem_remove, (KEY_ne_name text name pfx).symm]
  bindings := by
    intro key other
    rw [Store.mem_remove, hpresence.bindings, Finset.mem_erase]
    constructor
    · rintro ⟨⟨rfl, hmem⟩, hkey⟩
      exact ⟨rfl, fun hsame => hkey (by rw [hsame]), hmem⟩
    · rintro ⟨rfl, hdistinct, hmem⟩
      exact ⟨⟨rfl, hmem⟩, fun hkey => hdistinct ((KEY_inj text).mp hkey).2⟩

end presence

end sweetcomb.ietf_interface
