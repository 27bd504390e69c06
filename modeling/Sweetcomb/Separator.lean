import Mathlib.Data.List.Basic

namespace separator

variable {α : Type} [DecidableEq α]

/-- What stands before and after the last occurrence of a separator. -/
def splitLast (sep : α) : List α → Option (List α × List α)
  | [] => none
  | head :: tail =>
    match splitLast sep tail with
    | some (before, after) => some (head :: before, after)
    | none => if head = sep then some ([], tail) else none

theorem splitLast_eq_none {sep : α} {text : List α} (habsent : sep ∉ text) : splitLast sep text = none := by
  induction text with
  | nil => rfl
  | cons head tail ih =>
    rw [List.mem_cons, not_or] at habsent
    simp [splitLast, ih habsent.2, Ne.symm habsent.1]

theorem exists_splitLast {sep : α} {text : List α} (hmem : sep ∈ text) : ∃ parts, splitLast sep text = some parts := by
  induction text with
  | nil => cases hmem
  | cons head tail ih =>
    by_cases htail : sep ∈ tail
    · obtain ⟨parts, hparts⟩ := ih htail
      exact ⟨(head :: parts.1, parts.2), by simp [splitLast, hparts]⟩
    · obtain rfl : sep = head := (List.mem_cons.mp hmem).resolve_right htail
      exact ⟨([], tail), by simp [splitLast, splitLast_eq_none htail]⟩

theorem splitLast_append {sep : α} {after : List α} (habsent : sep ∉ after) (before : List α) :
    splitLast sep (before ++ sep :: after) = some (before, after) := by
  induction before with
  | nil => simp [splitLast, splitLast_eq_none habsent]
  | cons head before ih => simp [splitLast, ih]

theorem splitLast_eq_some {sep : α} {text before after : List α} (hsplit : splitLast sep text = some (before, after)) :
    text = before ++ sep :: after ∧ sep ∉ after := by
  induction text generalizing before with
  | nil => cases hsplit
  | cons head tail ih =>
    rw [splitLast] at hsplit
    cases htail : splitLast sep tail with
    | some parts =>
      obtain ⟨tailBefore, tailAfter⟩ := parts
      rw [htail] at hsplit
      cases hsplit
      obtain ⟨rfl, habsent⟩ := ih htail
      exact ⟨rfl, habsent⟩
    | none =>
      rw [htail] at hsplit
      by_cases hhead : head = sep
      · simp only [if_pos hhead, Option.some.injEq, Prod.mk.injEq] at hsplit
        obtain ⟨rfl, rfl⟩ := hsplit
        refine ⟨by rw [hhead]; rfl, fun hmem => ?_⟩
        obtain ⟨parts, hparts⟩ := exists_splitLast hmem
        rw [hparts] at htail
        cases htail
      · simp [hhead] at hsplit

/-- Text before a separator and text after its last occurrence are read off
    their concatenation. -/
theorem append_inj {sep : α} {before before' after after' : List α} (habsent : sep ∉ after)
    (habsent' : sep ∉ after') (h : before ++ sep :: after = before' ++ sep :: after') :
    before = before' ∧ after = after' := by
  have hsplit := splitLast_append habsent before
  rw [h, splitLast_append habsent' before'] at hsplit
  simpa [eq_comm] using hsplit

omit [DecidableEq α]

/-- An occurrence in an appended list is in the first part or in the second. -/
theorem occurrence_append {first second before after : List α} {element : α}
    (h : first ++ second = before ++ element :: after) :
    (∃ rest, first = before ++ element :: rest ∧ after = rest ++ second) ∨
      ∃ start, second = start ++ element :: after ∧ before = first ++ start := by
  rcases List.append_eq_append_iff.mp h with ⟨start, hbefore, hsecond⟩ | ⟨rest, hfirst, hafter⟩
  · exact .inr ⟨start, hsecond, hbefore⟩
  · cases rest with
    | nil => exact .inr ⟨[], hafter.symm, by simpa using hfirst.symm⟩
    | cons other rest =>
      obtain ⟨rfl, hrest⟩ := List.cons.inj hafter
      exact .inl ⟨rest, hfirst, hrest⟩

/-- A run of elements that fit ends where the first one does not. -/
theorem dropWhile_append_of_head {holds : α → Bool} {first rest : List α} (hfirst : ∀ c ∈ first, holds c = true)
    (hrest : ∀ c ∈ rest.head?, holds c = false) : (first ++ rest).dropWhile holds = rest := by
  rw [List.dropWhile_append_of_pos hfirst]
  cases rest with
  | nil => rfl
  | cons c rest => simp [hrest c (by simp)]

theorem takeWhile_append_of_head {holds : α → Bool} {first rest : List α} (hfirst : ∀ c ∈ first, holds c = true)
    (hrest : ∀ c ∈ rest.head?, holds c = false) : (first ++ rest).takeWhile holds = first := by
  rw [List.takeWhile_append_of_pos hfirst]
  cases rest with
  | nil => simp
  | cons c rest => simp [hrest c (by simp)]

theorem head_of_dropWhile (holds : α → Bool) (text : List α) : ∀ c ∈ (text.dropWhile holds).head?, holds c = false := by
  intro c hc
  have hhead := List.head?_dropWhile_not holds text
  rw [Option.mem_def.mp hc] at hhead
  exact hhead

end separator
