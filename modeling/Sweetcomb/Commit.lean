import Sweetcomb.Callback
import Sweetcomb.Datastore

open datastore

namespace sweetcomb

/-- A configuration callback, before it is given its environment. -/
abbrev callback_t := Uninit → delivery_t → World → cb_result

/-- Calls that differ only in what the variables that are not initialised hold
    are the same. -/
def Determined (cb : callback_t) (delivery : delivery_t) (w : World) : Prop :=
  ∀ uninit uninit', (cb uninit delivery w).Same (cb uninit' delivery w)

/-- One commit, with the changes that a subscriber is called with and what its
    uninitialised variables happen to hold. -/
structure commit_t (κ ν : Type) where
  edits : List (edit κ ν)
  changes : List change_t
  uninit : Uninit

variable {κ ν : Type}

/-- No flag is set before the callback sets it. -/
structure Uninit.Cleared (uninit : Uninit) : Prop where
  create : uninit.create = false
  remove : uninit.remove = false
  modify : uninit.modify = false

/-- The commit starts from the datastore, and the changes of its edits come in
    any order. -/
structure commit_t.Delivered (changesOf : edit κ ν → List change_t) (ds : Datastore κ ν)
    (c : commit_t κ ν) : Prop where
  commits : Commits ds c.edits
  delivers : c.changes.Perm (c.edits.flatMap changesOf)
  cleared : c.uninit.Cleared

theorem commit_t.Delivered.mem_iff {changesOf : edit κ ν → List change_t} {ds : Datastore κ ν}
    {c : commit_t κ ν} (hc : c.Delivered changesOf ds) {change : change_t} :
    change ∈ c.changes ↔ ∃ e ∈ c.edits, change ∈ changesOf e := by
  rw [hc.delivers.mem_iff, List.mem_flatMap]

/-- The call of the subscriber that may refuse the commit. -/
def commit_t.verify (cb : callback_t) (c : commit_t κ ν) (w : World) : cb_result :=
  cb c.uninit (sweetcomb.verify c.changes) w

section step

variable [DecidableEq κ]

/-- The commit takes effect in the datastore when the subscriber agrees. -/
def commit_t.step (cb : callback_t) (state : World × Datastore κ ν) (c : commit_t κ ν) :
    World × Datastore κ ν :=
  let result := c.verify cb state.1
  (result.world, if result.outcome = .ok .SR_ERR_OK then applyAll state.2 c.edits else state.2)

end step

section samples

/-- Flags that happen to be false, and other variables as they may be. -/
def cleared : Uninit where
  create := false
  remove := false
  modify := false
  rc := .SR_ERR_OK
  xindex := 0
  m_state := false
  m_prefix_len := 0

theorem cleared_cleared : cleared.Cleared := ⟨rfl, rfl, rfl⟩

/-- The changes of the edits one after the other. -/
def in_order (changesOf : edit κ ν → List change_t) (edits : List (edit κ ν)) : commit_t κ ν where
  edits
  changes := edits.flatMap changesOf
  uninit := cleared

theorem delivered_in_order {changesOf : edit κ ν → List change_t} {ds : Datastore κ ν}
    {edits : List (edit κ ν)} (hcommits : Commits ds edits) :
    (in_order changesOf edits).Delivered changesOf ds :=
  ⟨hcommits, List.Perm.refl _, cleared_cleared⟩

end samples

end sweetcomb
