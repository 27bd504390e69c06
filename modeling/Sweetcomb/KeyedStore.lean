import Mathlib.Data.Finset.Image
import Mathlib.Order.Basic

namespace keyed_store

variable {κ α ι : Type}

/-- A store keeping a finite set of objects under each key. -/
abbrev Store (κ α : Type) := Finset (κ × α)

section operations

variable [DecidableEq κ] [DecidableEq α] [DecidableEq ι]

/-- Writing puts an object under a key. An object of the same identity already
    held there is the same object in an older state, so it is replaced. -/
def Store.write (ident : α → ι) (store : Store κ α) (key : κ) (object : α) : Store κ α :=
  insert (key, object) (store.filter fun entry => ¬ (entry.1 = key ∧ ident entry.2 = ident object))

/-- Removing drops everything held under a key. -/
def Store.remove (store : Store κ α) (key : κ) : Store κ α :=
  store.filter fun entry => entry.1 ≠ key

@[simp]
theorem Store.mem_write {ident : α → ι} {store : Store κ α} {key : κ} {object : α} {entry : κ × α} :
    entry ∈ store.write ident key object ↔
      entry = (key, object) ∨ entry ∈ store ∧ ¬ (entry.1 = key ∧ ident entry.2 = ident object) := by
  simp [Store.write]

omit [DecidableEq α] in
@[simp]
theorem Store.mem_remove {store : Store κ α} {key : κ} {entry : κ × α} :
    entry ∈ store.remove key ↔ entry ∈ store ∧ entry.1 ≠ key := by
  simp [Store.remove]

/-- A write changes nothing exactly when the key already holds that object and
    no other state of it. -/
theorem Store.write_eq_self_iff {ident : α → ι} {store : Store κ α} {key : κ} {object : α} :
    store.write ident key object = store ↔
      (key, object) ∈ store ∧ ∀ other, (key, other) ∈ store → ident other = ident object → other = object := by
  constructor
  · intro heq
    refine ⟨by rw [← heq]; simp, ?_⟩
    intro other hother hident
    rw [← heq, Store.mem_write] at hother
    rcases hother with hsame | ⟨_, hdistinct⟩
    · exact (Prod.mk.inj hsame).2
    · exact absurd ⟨rfl, hident⟩ hdistinct
  · rintro ⟨hheld, honly⟩
    ext ⟨otherKey, other⟩
    rw [Store.mem_write]
    constructor
    · rintro (hsame | ⟨hmem, _⟩)
      · rw [hsame]
        exact hheld
      · exact hmem
    · intro hmem
      by_cases hreplaced : otherKey = key ∧ ident other = ident object
      · obtain ⟨rfl, hident⟩ := hreplaced
        exact .inl (by rw [honly other hmem hident])
      · exact .inr ⟨hmem, hreplaced⟩

omit [DecidableEq α] in
/-- A removal changes nothing exactly when the key holds nothing. -/
theorem Store.remove_eq_self_iff {store : Store κ α} {key : κ} :
    store.remove key = store ↔ ∀ object, (key, object) ∉ store := by
  constructor
  · intro heq object hmem
    rw [← heq, Store.mem_remove] at hmem
    exact hmem.2 rfl
  · intro hnone
    ext ⟨otherKey, object⟩
    simp only [Store.mem_remove, and_iff_left_iff_imp]
    rintro hmem rfl
    exact hnone object hmem

/-- Removing a key takes back what was written under it, if it held nothing
    before. -/
theorem Store.remove_write {ident : α → ι} {store : Store κ α} {key : κ} (habsent : ∀ object, (key, object) ∉ store)
    (object : α) : (store.write ident key object).remove key = store := by
  ext ⟨otherKey, other⟩
  rw [Store.mem_remove, Store.mem_write]
  constructor
  · rintro ⟨hsame | ⟨hmem, _⟩, hkey⟩
    · exact absurd (Prod.mk.inj hsame).1 hkey
    · exact hmem
  · intro hmem
    have hkey : otherKey ≠ key := by
      rintro rfl
      exact habsent other hmem
    exact ⟨.inr ⟨hmem, fun hreplaced => hkey hreplaced.1⟩, hkey⟩

/-- An object that is the only state of its identity. Writing it replaces
    nothing but itself. -/
def Rigid (ident : α → ι) (object : α) : Prop :=
  ∀ other, ident other = ident object → other = object

theorem Store.mem_write_of_rigid {ident : α → ι} {store : Store κ α} {key : κ} {object : α}
    (hrigid : Rigid ident object) {entry : κ × α} :
    entry ∈ store.write ident key object ↔ entry = (key, object) ∨ entry ∈ store := by
  rw [Store.mem_write]
  constructor
  · rintro (hsame | ⟨hmem, _⟩)
    · exact .inl hsame
    · exact .inr hmem
  · rintro (hsame | hmem)
    · exact .inl hsame
    · by_cases hreplaced : entry.1 = key ∧ ident entry.2 = ident object
      · obtain ⟨hkey, hident⟩ := hreplaced
        exact .inl (Prod.ext hkey (hrigid _ hident))
      · exact .inr ⟨hmem, hreplaced⟩

end operations

/-- Every object of the store is held under its own key. -/
def Store.Keyed (keyOf : α → κ → Prop) (store : Store κ α) : Prop :=
  ∀ key object, (key, object) ∈ store → keyOf object key

theorem Store.Keyed.write [DecidableEq κ] [DecidableEq α] [DecidableEq ι] {ident : α → ι} {keyOf : α → κ → Prop}
    {store : Store κ α}
    (hkeyed : store.Keyed keyOf) {key : κ} {object : α} (hown : keyOf object key) :
    (store.write ident key object).Keyed keyOf := by
  intro otherKey other hmem
  rcases Store.mem_write.mp hmem with hsame | ⟨hmem, _⟩
  · obtain ⟨rfl, rfl⟩ := Prod.mk.inj hsame
    exact hown
  · exact hkeyed otherKey other hmem

theorem Store.Keyed.remove [DecidableEq κ] {keyOf : α → κ → Prop} {store : Store κ α}
    (hkeyed : store.Keyed keyOf) (key : κ) : (store.remove key).Keyed keyOf :=
  fun otherKey other hmem => hkeyed otherKey other (Store.mem_remove.mp hmem).1

end keyed_store
