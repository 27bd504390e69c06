import Mathlib.Data.List.Basic

namespace buffer

/-- An array of fixed size and the index of its first place that is not
    written yet. -/
structure Buffer (α : Type) where
  cells : List (Option α)
  cnt : Nat

variable {α β ε : Type}

def Buffer.new (size : Nat) : Buffer α where
  cells := List.replicate size none
  cnt := 0

/-- Writes the place at the index, if the array has it, and goes on to the
    next. -/
def Buffer.push (b : Buffer α) (value : α) : Option (Buffer α) :=
  if b.cnt < b.cells.length then some { cells := b.cells.set b.cnt (some value), cnt := b.cnt + 1 } else none

/-- What stands before the index. -/
def Buffer.contents (b : Buffer α) : List (Option α) :=
  b.cells.take b.cnt

/-- Everything before the index is written: the values, in their order. -/
structure Buffer.Holds (b : Buffer α) (values : List α) (size : Nat) : Prop where
  contents : b.contents = values.map some
  cnt : b.cnt = values.length
  size : b.cells.length = size

theorem Buffer.new_holds (size : Nat) : (Buffer.new size : Buffer α).Holds [] size :=
  ⟨rfl, rfl, List.length_replicate⟩

/-- A push with room behind the values appends one. -/
theorem Buffer.Holds.push {b : Buffer α} {values : List α} {size : Nat} (h : b.Holds values size)
    (hroom : values.length < size) (value : α) :
    ∃ b', b.push value = some b' ∧ b'.Holds (values ++ [value]) size := by
  have hbound : b.cnt < b.cells.length := by
    rw [h.cnt, h.size]
    exact hroom
  refine ⟨{ cells := b.cells.set b.cnt (some value), cnt := b.cnt + 1 }, if_pos hbound, ?_, ?_, ?_⟩
  · have hwritten : b.cnt < (b.cells.set b.cnt (some value)).length := by
      rw [List.length_set]
      exact hbound
    have hbefore : (b.cells.set b.cnt (some value)).take b.cnt = values.map some := by
      rw [List.take_set_of_le (Nat.le_refl _)]
      exact h.contents
    change (b.cells.set b.cnt (some value)).take (b.cnt + 1) = (values ++ [value]).map some
    rw [List.take_add_one, hbefore, List.getElem?_eq_getElem hwritten, List.getElem_set_self]
    simp
  · simp [h.cnt]
  · simp [h.size]

/-- A pass whose body pushes a group of values for each element leaves the
    groups in the order of the elements, when the array has room for all. -/
theorem Buffer.Holds.foldlM_groups {size : Nat} {body : Buffer α → β → Except ε (Buffer α)} {group : β → List α}
    (hbody : ∀ b values element, b.Holds values size → values.length + (group element).length ≤ size →
      ∃ b', body b element = .ok b' ∧ b'.Holds (values ++ group element) size)
    {b : Buffer α} {values : List α} (h : b.Holds values size) {elements : List β}
    (hroom : values.length + (elements.flatMap group).length ≤ size) :
    ∃ b', elements.foldlM body b = .ok b' ∧ b'.Holds (values ++ elements.flatMap group) size := by
  induction elements generalizing b values with
  | nil => exact ⟨b, rfl, by simpa using h⟩
  | cons element elements ih =>
    rw [List.flatMap_cons, List.length_append] at hroom
    obtain ⟨middle, hround, hmiddle⟩ := hbody b values element h (by omega)
    have hrest : (values ++ group element).length + (elements.flatMap group).length ≤ size := by
      rw [List.length_append]
      omega
    obtain ⟨last, hrun, hlast⟩ := ih hmiddle hrest
    refine ⟨last, ?_, by simpa using hlast⟩
    rw [List.foldlM_cons, hround]
    exact hrun

end buffer
