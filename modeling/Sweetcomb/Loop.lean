import Mathlib.Data.List.TakeWhile

namespace loop

variable {σ α β ε : Type}

/-- The last value that the elements of a list assign, or the value before. -/
def latest (assigns : α → Option β) (before : β) (elements : List α) : β :=
  elements.foldl (fun value element => (assigns element).getD value) before

@[simp]
theorem latest_nil (assigns : α → Option β) (before : β) : latest assigns before [] = before := rfl

@[simp]
theorem latest_cons (assigns : α → Option β) (before : β) (element : α) (elements : List α) :
    latest assigns before (element :: elements) =
      latest assigns ((assigns element).getD before) elements := rfl

theorem latest_append (assigns : α → Option β) (before : β) (first second : List α) :
    latest assigns before (first ++ second) = latest assigns (latest assigns before first) second :=
  List.foldl_append

theorem latest_keeps (holds : β → Prop) {assigns : α → Option β} {before : β} {elements : List α}
    (hbefore : holds before)
    (hall : ∀ element ∈ elements, ∀ value, assigns element = some value → holds value) :
    holds (latest assigns before elements) := by
  induction elements generalizing before with
  | nil => exact hbefore
  | cons element elements ih =>
    rw [List.forall_mem_cons] at hall
    rw [latest_cons]
    refine ih ?_ hall.2
    cases hassigns : assigns element with
    | none => exact hbefore
    | some value => exact hall.1 value hassigns

/-- When something is assigned, the value before does not matter. -/
theorem latest_of_forall (holds : β → Prop) {assigns : α → Option β} {before : β} {elements : List α}
    (hsome : ∃ element ∈ elements, (assigns element).isSome)
    (hall : ∀ element ∈ elements, ∀ value, assigns element = some value → holds value) :
    holds (latest assigns before elements) := by
  induction elements generalizing before with
  | nil =>
    obtain ⟨element, hmem, _⟩ := hsome
    cases hmem
  | cons element elements ih =>
    rw [List.forall_mem_cons] at hall
    rw [latest_cons]
    cases hassigns : assigns element with
    | some value => exact latest_keeps holds (hall.1 value hassigns) hall.2
    | none =>
      obtain ⟨actual, hmem, hactual⟩ := hsome
      rcases List.mem_cons.mp hmem with rfl | hmem
      · rw [hassigns] at hactual
        cases hactual
      · exact ih ⟨actual, hmem, hactual⟩ hall.2

/-- What the values before have in common, the last ones have. -/
theorem latest_congr {γ : Type} (f : β → γ) {assigns : α → Option β} {first second : β} (h : f first = f second)
    (elements : List α) : f (latest assigns first elements) = f (latest assigns second elements) := by
  induction elements generalizing first second with
  | nil => exact h
  | cons element elements ih =>
    rw [latest_cons, latest_cons]
    refine ih ?_
    cases assigns element with
    | none => exact h
    | some value => rfl

/-- When something is assigned, the value before is forgotten. -/
theorem latest_forgets {assigns : α → Option β} {elements : List α}
    (hsome : ∃ element ∈ elements, (assigns element).isSome) (first second : β) :
    latest assigns first elements = latest assigns second elements := by
  induction elements generalizing first second with
  | nil =>
    obtain ⟨element, hmem, _⟩ := hsome
    cases hmem
  | cons element elements ih =>
    rw [latest_cons, latest_cons]
    cases hassigns : assigns element with
    | some value => rfl
    | none =>
      obtain ⟨actual, hmem, hactual⟩ := hsome
      rcases List.mem_cons.mp hmem with rfl | hmem
      · rw [hassigns] at hactual
        cases hactual
      · exact ih ⟨actual, hmem, hactual⟩ _ _

theorem latest_eq_self {assigns : α → Option β} {before : β} {elements : List α}
    (h : ∀ element ∈ elements, ∀ value, assigns element = some value → value = before) :
    latest assigns before elements = before :=
  latest_keeps (fun value => value = before) rfl h

/-- When every assignment is of one value, one of them is enough to reach it. -/
theorem latest_eq_of_forall {assigns : α → Option β} {before value : β} {elements : List α}
    (hsome : ∃ element ∈ elements, assigns element = some value)
    (hall : ∀ element ∈ elements, ∀ other, assigns element = some other → other = value) :
    latest assigns before elements = value := by
  obtain ⟨element, hmem, hassigns⟩ := hsome
  exact latest_of_forall (fun other => other = value) ⟨element, hmem, by simp [hassigns]⟩ hall

/-- Elements that assign nothing can be left out. -/
theorem latest_filter {assigns : α → Option β} {keep : α → Bool} {elements : List α}
    (hnone : ∀ element ∈ elements, keep element = false → assigns element = none) (before : β) :
    latest assigns before (elements.filter keep) = latest assigns before elements := by
  induction elements generalizing before with
  | nil => rfl
  | cons element elements ih =>
    rw [List.forall_mem_cons] at hnone
    cases hkeep : keep element with
    | true => rw [List.filter_cons_of_pos hkeep, latest_cons, latest_cons, ih hnone.2]
    | false => rw [List.filter_cons_of_neg (by simp [hkeep]), latest_cons, hnone.1 hkeep, ih hnone.2, Option.getD_none]

/-- A loop body that goes round on every accepted element, whatever the state
    it meets under the invariant. An element that is not accepted may leave the
    loop through the error of the body. -/
structure Accepting (body : σ → α → Except ε σ) (inv : σ → Prop) (accepts : α → Bool)
    (absorb : σ → α → σ) : Prop where
  step : ∀ state element, inv state → accepts element = true →
    body state element = .ok (absorb state element)
  keeps : ∀ state element, inv state → accepts element = true → inv (absorb state element)

variable {body : σ → α → Except ε σ} {inv : σ → Prop} {accepts : α → Bool} {absorb : σ → α → σ}

/-- An accepted stretch of the list is absorbed and the loop continues. -/
theorem Accepting.foldlM_append (h : Accepting body inv accepts absorb) {state : σ} (hinv : inv state)
    {elements : List α} (haccepts : ∀ element ∈ elements, accepts element = true) (rest : List α) :
    (elements ++ rest).foldlM body state = rest.foldlM body (elements.foldl absorb state) := by
  induction elements generalizing state with
  | nil => rfl
  | cons element elements ih =>
    rw [List.forall_mem_cons] at haccepts
    rw [List.cons_append, List.foldlM_cons, h.step state element hinv haccepts.1]
    exact ih (h.keeps state element hinv haccepts.1) haccepts.2

theorem Accepting.foldlM_eq_ok (h : Accepting body inv accepts absorb) (state : σ) (hinv : inv state)
    {elements : List α} (haccepts : ∀ element ∈ elements, accepts element = true) :
    elements.foldlM body state = .ok (elements.foldl absorb state) := by
  have hrun := h.foldlM_append hinv haccepts []
  rw [List.append_nil] at hrun
  exact hrun

/-- The loop leaves at the first element that is not accepted, if the body
    leaves there. -/
theorem Accepting.foldlM_eq_error (h : Accepting body inv accepts absorb) (state : σ) (hinv : inv state)
    {before : List α} (haccepts : ∀ element ∈ before, accepts element = true) {element : α} {exit : ε}
    (hexit : body (before.foldl absorb state) element = .error exit) (rest : List α) :
    (before ++ element :: rest).foldlM body state = .error exit := by
  rw [h.foldlM_append hinv haccepts, List.foldlM_cons, hexit]
  rfl

/-- Simulation rule: a loop body that goes round from related states to related
    states carries the relation through the loop. -/
theorem foldlM_simulates {τ : Type} (related : τ → σ → Prop) (next : τ → α → τ) {elements : List α}
    (hbody : ∀ spec state element, element ∈ elements → related spec state →
      ∃ state', body state element = .ok state' ∧ related (next spec element) state')
    {spec : τ} {state : σ} (hrelated : related spec state) :
    ∃ state', elements.foldlM body state = .ok state' ∧ related (elements.foldl next spec) state' := by
  induction elements generalizing spec state with
  | nil => exact ⟨state, rfl, hrelated⟩
  | cons element elements ih =>
    obtain ⟨middle, hround, hmiddle⟩ := hbody spec state element (by simp) hrelated
    obtain ⟨last, hloop, hlast⟩ := ih
      (fun spec state later hlater => hbody spec state later (List.mem_cons_of_mem _ hlater)) hmiddle
    refine ⟨last, ?_, hlast⟩
    rw [List.foldlM_cons, hround]
    exact hloop

/-- Either a whole list is accepted or it splits at its first element that is
    not. -/
theorem accepted_or_split (accepts : α → Bool) (elements : List α) :
    (∀ element ∈ elements, accepts element = true) ∨
      ∃ before element after, elements = before ++ element :: after ∧
        (∀ earlier ∈ before, accepts earlier = true) ∧ accepts element = false := by
  induction elements with
  | nil => exact .inl (by simp)
  | cons head tail ih =>
    cases hhead : accepts head with
    | false => exact .inr ⟨[], head, tail, rfl, by simp, hhead⟩
    | true =>
      rcases ih with hall | ⟨before, element, after, rfl, hbefore, helement⟩
      · exact .inl (List.forall_mem_cons.mpr ⟨hhead, hall⟩)
      · exact .inr ⟨head :: before, element, after, rfl,
          List.forall_mem_cons.mpr ⟨hhead, hbefore⟩, helement⟩

section search

variable {accepts : α → Bool} {elements before : List α}

/-- The search for an element that is not accepted finds none. -/
theorem find_rejected_none (hall : ∀ element ∈ elements, accepts element = true) :
    elements.find? (fun element => !accepts element) = none :=
  List.find?_eq_none.mpr (by simpa using hall)

/-- The search for an element that is not accepted finds the first, and what is
    accepted before it is the beginning of the list. -/
theorem find_rejected_split (hbefore : ∀ earlier ∈ before, accepts earlier = true) {element : α}
    (hrejected : accepts element = false) (after : List α) :
    (before ++ element :: after).find? (fun element => !accepts element) = some element ∧
      (before ++ element :: after).takeWhile accepts = before := by
  constructor
  · rw [List.find?_append, find_rejected_none hbefore, Option.none_or, List.find?_cons_of_pos (by simp [hrejected])]
  · rw [List.takeWhile_append_of_pos hbefore, List.takeWhile_cons_of_neg (by simp [hrejected]), List.append_nil]

end search

end loop
