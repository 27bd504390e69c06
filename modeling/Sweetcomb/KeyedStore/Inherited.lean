import Mathlib.Data.Set.Basic
import Sweetcomb.KeyedStore.Render

namespace keyed_store

variable {κ α ι β : Type}

/-- An object is held under a key, in whatever state. -/
def Store.Has (ident : α → ι) (store : Store κ α) (key : κ) (i : ι) : Prop :=
  ∃ object, (key, object) ∈ store ∧ ident object = i

/-- An object is held under some key. -/
def Store.Holds (ident : α → ι) (store : Store κ α) (i : ι) : Prop :=
  ∃ key, store.Has ident key i

section operations

variable [DecidableEq κ] [DecidableEq α] [DecidableEq ι] {ident : α → ι} {store : Store κ α} {key other : κ} {i : ι}

/-- A write adds one object, if it is not there yet. -/
theorem Store.has_write {object : α} :
    (store.write ident key object).Has ident other i ↔ (other = key ∧ i = ident object) ∨ store.Has ident other i := by
  constructor
  · rintro ⟨held, hmem, rfl⟩
    rcases Store.mem_write.mp hmem with hsame | ⟨hmem, -⟩
    · obtain ⟨rfl, rfl⟩ := Prod.mk.inj hsame
      exact .inl ⟨rfl, rfl⟩
    · exact .inr ⟨held, hmem, rfl⟩
  · rintro (⟨rfl, rfl⟩ | ⟨held, hmem, rfl⟩)
    · exact ⟨object, by simp, rfl⟩
    · by_cases hreplaced : other = key ∧ ident held = ident object
      · obtain ⟨rfl, hident⟩ := hreplaced
        exact ⟨object, by simp, hident.symm⟩
      · exact ⟨held, Store.mem_write.mpr (.inr ⟨hmem, hreplaced⟩), rfl⟩

omit [DecidableEq α] [DecidableEq ι] in
theorem Store.has_remove : (store.remove key).Has ident other i ↔ other ≠ key ∧ store.Has ident other i := by
  constructor
  · rintro ⟨held, hmem, rfl⟩
    obtain ⟨hmem, hother⟩ := Store.mem_remove.mp hmem
    exact ⟨hother, held, hmem, rfl⟩
  · rintro ⟨hother, held, hmem, rfl⟩
    exact ⟨held, Store.mem_remove.mpr ⟨hmem, hother⟩, rfl⟩

end operations

/-- A store that has started with all that it holds under one key. Under the other
    keys it holds only what their items want, and what an item wants is held under its
    key or is there from the start. -/
structure Store.Inherits (ident : α → ι) (key : β → κ) (origin : κ) (inherited : Set ι) (wanted : β → Option ι)
    (store : Store κ α) : Prop where
  start : ∀ i, store.Has ident origin i ↔ i ∈ inherited
  own : ∀ other i, other ≠ origin → store.Has ident other i → ∃ item, key item = other ∧ wanted item = some i
  kept : ∀ item i, wanted item = some i → store.Has ident (key item) i ∨ i ∈ inherited

section inherits

variable {ident : α → ι} {key : β → κ} {origin : κ} {inherited : Set ι} {wanted : β → Option ι} {store : Store κ α}

theorem Store.inherits_start (hheld : ∀ entry ∈ store, entry.1 = origin)
    (hinherited : ∀ i, store.Has ident origin i ↔ i ∈ inherited)
    (hwanted : ∀ item i, wanted item = some i → i ∈ inherited) :
    store.Inherits ident key origin inherited wanted where
  start := hinherited
  own := by
    rintro other i hother ⟨object, hmem, -⟩
    exact absurd (hheld _ hmem) hother
  kept item i hitem := .inr (hwanted item i hitem)

/-- Nothing of what has been there from the start is lost, and beside it there is
    what is wanted. -/
theorem Store.Inherits.holds_iff (hinherits : store.Inherits ident key origin inherited wanted) {i : ι} :
    store.Holds ident i ↔ i ∈ inherited ∨ ∃ item, wanted item = some i := by
  constructor
  · rintro ⟨other, hheld⟩
    by_cases hother : other = origin
    · subst hother
      exact .inl ((hinherits.start i).mp hheld)
    · obtain ⟨item, -, hitem⟩ := hinherits.own other i hother hheld
      exact .inr ⟨item, hitem⟩
  · rintro (hinherited | ⟨item, hitem⟩)
    · exact ⟨origin, (hinherits.start i).mpr hinherited⟩
    · rcases hinherits.kept item i hitem with hheld | hinherited
      · exact ⟨key item, hheld⟩
      · exact ⟨origin, (hinherits.start i).mpr hinherited⟩

theorem Store.Inherits.exact_iff (hinherits : store.Inherits ident key origin inherited wanted) :
    (∀ i, store.Holds ident i ↔ ∃ item, wanted item = some i) ↔ ∀ i ∈ inherited, ∃ item, wanted item = some i := by
  constructor
  · intro hexact i hi
    exact (hexact i).mp (hinherits.holds_iff.mpr (.inl hi))
  · intro hall i
    rw [hinherits.holds_iff, or_iff_right_of_imp (hall i)]

variable [DecidableEq κ] [DecidableEq α] [DecidableEq ι] [DecidableEq β] {item : β}

theorem Store.Inherits.write (hinherits : store.Inherits ident key origin inherited wanted)
    (hitem : key item ≠ origin) {object : α} (hident : ∀ before, wanted item = some before → before = ident object) :
    (store.write ident (key item) object).Inherits ident key origin inherited
      (Function.update wanted item (some (ident object))) where
  start i := by
    rw [Store.has_write, hinherits.start, or_iff_right fun hkey => hitem hkey.1.symm]
  own := by
    intro other i hother hheld
    rcases Store.has_write.mp hheld with ⟨rfl, rfl⟩ | hheld
    · exact ⟨item, rfl, Function.update_self ..⟩
    · obtain ⟨owner, rfl, howner⟩ := hinherits.own other i hother hheld
      refine ⟨owner, rfl, ?_⟩
      by_cases hsame : owner = item
      · subst hsame
        rw [Function.update_self, hident i howner]
      · rw [Function.update_of_ne hsame, howner]
  kept := by
    intro other i hwanted
    by_cases hsame : other = item
    · subst hsame
      rw [Function.update_self, Option.some.injEq] at hwanted
      exact .inl (Store.has_write.mpr (.inl ⟨rfl, hwanted.symm⟩))
    · rw [Function.update_of_ne hsame] at hwanted
      exact (hinherits.kept other i hwanted).imp_left fun hheld => Store.has_write.mpr (.inr hheld)

omit [DecidableEq α] [DecidableEq ι] in
theorem Store.Inherits.remove (hinherits : store.Inherits ident key origin inherited wanted)
    (hitem : key item ≠ origin) (halone : Alone key wanted item) :
    (store.remove (key item)).Inherits ident key origin inherited (Function.update wanted item none) where
  start i := by
    rw [Store.has_remove, hinherits.start, and_iff_right hitem.symm]
  own := by
    intro other i hother hheld
    obtain ⟨hremoved, hheld⟩ := Store.has_remove.mp hheld
    obtain ⟨owner, rfl, howner⟩ := hinherits.own other i hother hheld
    have hsame : owner ≠ item := fun hsame => hremoved (by rw [hsame])
    exact ⟨owner, rfl, by rw [Function.update_of_ne hsame, howner]⟩
  kept := by
    intro other i hwanted
    have hsame : other ≠ item := by
      rintro rfl
      simp at hwanted
    rw [Function.update_of_ne hsame] at hwanted
    refine (hinherits.kept other i hwanted).imp_left fun hheld => Store.has_remove.mpr ⟨fun hkey => hsame ?_, hheld⟩
    exact halone other (by simp [hwanted]) hkey

end inherits

end keyed_store
