import Mathlib.Data.List.Nodup
import Mathlib.Logic.Function.Basic

namespace datastore

variable {κ ν : Type}

/-- The configured entries of one kind: a value for each configured key. -/
abbrev Datastore (κ ν : Type) := κ → Option ν

/-- What one commit does to one entry. -/
inductive edit (κ ν : Type) where
  | created (key : κ) (value : ν)
  | deleted (key : κ) (value : ν)
  | modified (key : κ) (old new : ν)
deriving DecidableEq

@[simp]
def edit.key : edit κ ν → κ
  | .created key _ => key
  | .deleted key _ => key
  | .modified key _ _ => key

/-- The value of the entry before the commit. -/
@[simp]
def edit.old : edit κ ν → Option ν
  | .created _ _ => none
  | .deleted _ value => some value
  | .modified _ old _ => some old

/-- The value of the entry after the commit. -/
@[simp]
def edit.new : edit κ ν → Option ν
  | .created _ value => some value
  | .deleted _ _ => none
  | .modified _ _ new => some new

@[simp]
def edit.modifies : edit κ ν → Bool
  | .modified _ _ _ => true
  | _ => false

/-- The edit starts from what the datastore holds and changes it. -/
def edit.Applies (ds : Datastore κ ν) (e : edit κ ν) : Prop :=
  ds e.key = e.old ∧ e.old ≠ e.new

variable [DecidableEq κ]

def edit.apply (ds : Datastore κ ν) (e : edit κ ν) : Datastore κ ν :=
  Function.update ds e.key e.new

def applyAll (ds : Datastore κ ν) (edits : List (edit κ ν)) : Datastore κ ν :=
  edits.foldl edit.apply ds

/-- The edits of one commit: each entry is edited at most once. -/
structure Commits (ds : Datastore κ ν) (edits : List (edit κ ν)) : Prop where
  distinct : (edits.map edit.key).Nodup
  applies : ∀ e ∈ edits, e.Applies ds

@[simp]
theorem edit.apply_same (ds : Datastore κ ν) (e : edit κ ν) : e.apply ds e.key = e.new := by
  rw [edit.apply, Function.update_self]

theorem edit.apply_other (ds : Datastore κ ν) (e : edit κ ν) {key : κ} (hother : key ≠ e.key) :
    e.apply ds key = ds key := by
  rw [edit.apply, Function.update_of_ne hother]

theorem applyAll_other (ds : Datastore κ ν) {edits : List (edit κ ν)} {key : κ}
    (hother : key ∉ edits.map edit.key) : applyAll ds edits key = ds key := by
  induction edits generalizing ds with
  | nil => rfl
  | cons e edits ih =>
    rw [List.map_cons, List.mem_cons, not_or] at hother
    exact (ih (e.apply ds) hother.2).trans (e.apply_other ds hother.1)

theorem applyAll_of_mem (ds : Datastore κ ν) {edits : List (edit κ ν)}
    (hdistinct : (edits.map edit.key).Nodup) {e : edit κ ν} (hmem : e ∈ edits) :
    applyAll ds edits e.key = e.new := by
  induction edits generalizing ds with
  | nil => cases hmem
  | cons head edits ih =>
    rw [List.map_cons, List.nodup_cons] at hdistinct
    rcases List.mem_cons.mp hmem with rfl | hmem
    · exact (applyAll_other (e.apply ds) hdistinct.1).trans (e.apply_same ds)
    · exact ih (head.apply ds) hdistinct.2 hmem

/-- A commit changes the value of every entry it edits. -/
theorem Commits.changes {ds : Datastore κ ν} {edits : List (edit κ ν)} (hcommits : Commits ds edits)
    {e : edit κ ν} (hmem : e ∈ edits) : applyAll ds edits e.key ≠ ds e.key := by
  obtain ⟨hold, hchange⟩ := hcommits.applies e hmem
  rw [applyAll_of_mem ds hcommits.distinct hmem, hold]
  exact hchange.symm

/-- An entry that is not modified appears or disappears. -/
theorem Commits.isSome_changes {ds : Datastore κ ν} {edits : List (edit κ ν)} (hcommits : Commits ds edits)
    {e : edit κ ν} (hmem : e ∈ edits) (hunmodified : e.modifies = false) :
    (applyAll ds edits e.key).isSome ≠ (ds e.key).isSome := by
  rw [applyAll_of_mem ds hcommits.distinct hmem, (hcommits.applies e hmem).1]
  cases e with
  | created key value => simp
  | deleted key value => simp
  | modified key old new => simp at hunmodified

omit [DecidableEq κ] in
theorem Commits.sublist {ds : Datastore κ ν} {edits part : List (edit κ ν)} (hcommits : Commits ds edits)
    (hsublist : part.Sublist edits) : Commits ds part where
  distinct := hcommits.distinct.sublist (hsublist.map edit.key)
  applies e hmem := hcommits.applies e (hsublist.subset hmem)

/-- Once its first edit is made, the rest of a commit starts from the result. -/
theorem Commits.tail {ds : Datastore κ ν} {e : edit κ ν} {edits : List (edit κ ν)}
    (hcommits : Commits ds (e :: edits)) : Commits (e.apply ds) edits := by
  have hdistinct := hcommits.distinct
  rw [List.map_cons, List.nodup_cons] at hdistinct
  refine ⟨hdistinct.2, fun later hmem => ?_⟩
  have hother : later.key ≠ e.key := fun hsame => hdistinct.1 (hsame ▸ List.mem_map_of_mem hmem)
  obtain ⟨hold, hchange⟩ := hcommits.applies later (List.mem_cons_of_mem e hmem)
  exact ⟨(e.apply_other ds hother).trans hold, hchange⟩

/-- With two edits in a commit, one of them is away from any given key. -/
theorem Commits.exists_other {ds : Datastore κ ν} {edits : List (edit κ ν)} (hcommits : Commits ds edits)
    (hmany : 2 ≤ edits.length) (key : κ) : ∃ e ∈ edits, e.key ≠ key := by
  match edits, hmany with
  | first :: second :: rest, _ =>
    have hdistinct : first.key ≠ second.key := by
      have hnodup := hcommits.distinct
      simp only [List.map_cons, List.nodup_cons, List.mem_cons, not_or] at hnodup
      exact hnodup.1.1
    by_cases hfirst : first.key = key
    · exact ⟨second, by simp, fun hsecond => hdistinct (hfirst.trans hsecond.symm)⟩
    · exact ⟨first, by simp, hfirst⟩

end datastore
