import Mathlib.Logic.Function.Basic
import Sweetcomb.KeyedStore

namespace keyed_store

variable {κ α ι β : Type}

/-- The store holds the objects that the items want, each under the key of its
    item, and nothing else. -/
def Store.Renders (key : β → κ) (wanted : β → Option α) (store : Store κ α) : Prop :=
  ∀ entry, entry ∈ store ↔ ∃ item, key item = entry.1 ∧ wanted item = some entry.2

/-- No other item that wants an object has the key of this one. -/
def Alone (key : β → κ) (wanted : β → Option α) (item : β) : Prop :=
  ∀ other, (wanted other).isSome → key other = key item → other = item

section determined

variable {key : β → κ} {wanted wanted' : β → Option α} {store store' : Store κ α}

theorem Store.Renders.mem (hrenders : store.Renders key wanted) {item : β} {object : α}
    (hwanted : wanted item = some object) : (key item, object) ∈ store :=
  (hrenders (key item, object)).mpr ⟨item, rfl, hwanted⟩

theorem Store.Renders.unique (hfirst : store.Renders key wanted) (hsecond : store'.Renders key wanted) :
    store = store' := by
  ext entry
  rw [hfirst, hsecond]

/-- Where no two items share a key, what is wanted can be read off the store. -/
theorem Store.Renders.wanted_eq (hrenders : store.Renders key wanted) (hrenders' : store.Renders key wanted')
    (halone : ∀ item, (wanted' item).isSome → Alone key wanted item)
    (halone' : ∀ item, (wanted item).isSome → Alone key wanted' item) : wanted = wanted' := by
  funext item
  ext object
  constructor
  · intro hwanted
    obtain ⟨other, hkey, hother⟩ := (hrenders' _).mp (hrenders.mem hwanted)
    obtain rfl := halone' item (by simp [hwanted]) other (by simp [hother]) hkey
    exact hother
  · intro hwanted
    obtain ⟨other, hkey, hother⟩ := (hrenders _).mp (hrenders'.mem hwanted)
    obtain rfl := halone item (by simp [hwanted]) other (by simp [hother]) hkey
    exact hother

end determined

section operations

variable [DecidableEq κ] [DecidableEq α] [DecidableEq ι] [DecidableEq β] {ident : α → ι} {key : β → κ}
  {wanted : β → Option α} {store : Store κ α} {item : β}

/-- Writing an object for an item replaces what the item wanted before, when that
    was an older state of the object. -/
theorem Store.Renders.write (hrenders : store.Renders key wanted) (halone : Alone key wanted item) {object : α}
    (hident : ∀ before, wanted item = some before → ident before = ident object) :
    (store.write ident (key item) object).Renders key (Function.update wanted item (some object)) := by
  intro entry
  rw [Store.mem_write, hrenders]
  constructor
  · rintro (rfl | ⟨⟨other, hkey, hwanted⟩, hkept⟩)
    · exact ⟨item, rfl, Function.update_self ..⟩
    · have hother : other ≠ item := by
        rintro rfl
        exact hkept ⟨hkey.symm, hident _ hwanted⟩
      exact ⟨other, hkey, by rw [Function.update_of_ne hother, hwanted]⟩
  · rintro ⟨other, hkey, hwanted⟩
    by_cases hother : other = item
    · subst hother
      rw [Function.update_self] at hwanted
      exact .inl (Prod.ext hkey.symm (Option.some.inj hwanted).symm)
    · rw [Function.update_of_ne hother] at hwanted
      refine .inr ⟨⟨other, hkey, hwanted⟩, fun hreplaced => hother ?_⟩
      exact halone other (by simp [hwanted]) (hkey.trans hreplaced.1)

omit [DecidableEq α] in
theorem Store.Renders.remove (hrenders : store.Renders key wanted) (halone : Alone key wanted item) :
    (store.remove (key item)).Renders key (Function.update wanted item none) := by
  intro entry
  rw [Store.mem_remove, hrenders]
  constructor
  · rintro ⟨⟨other, hkey, hwanted⟩, hkept⟩
    have hother : other ≠ item := by
      rintro rfl
      exact hkept hkey.symm
    exact ⟨other, hkey, by rw [Function.update_of_ne hother, hwanted]⟩
  · rintro ⟨other, hkey, hwanted⟩
    have hother : other ≠ item := by
      rintro rfl
      simp at hwanted
    rw [Function.update_of_ne hother] at hwanted
    refine ⟨⟨other, hkey, hwanted⟩, fun hremoved => hother ?_⟩
    exact halone other (by simp [hwanted]) (hkey.trans hremoved)

end operations

end keyed_store
