import Sweetcomb.Openconfig.Interfaces
import Sweetcomb.Openconfig.Relation

open loop sweetcomb.ietf_interface

namespace sweetcomb.openconfig_interfaces

section rounds

variable (env : Env) (l : config_locals) {change : change_t}

/-- On a change that both treat alike, the rounds are the same. -/
theorem config_round_common (hcommon : common change = true) :
    config_round env l change = create_round env l change := by
  cases change with
  | deleted old_val => simp [common, keyOf] at hcommon
  | created new_val =>
    cases hkey : sr_xpath_key_value new_val.xpath "interface" "name" with
    | none => simp [common, keyOf, hkey] at hcommon
    | some key =>
      have hname : key ≠ "" := by simpa [common, keyOf, hkey] using hcommon
      simp [config_round, create_round, config_switch_eq, hkey, hname]
  | modified old_val new_val =>
    cases hkey : sr_xpath_key_value new_val.xpath "interface" "name" with
    | none => simp [common, keyOf, hkey] at hcommon
    | some key =>
      have hname : key ≠ "" := by simpa [common, keyOf, hkey] using hcommon
      simp [config_round, create_round, config_switch_eq, hkey, hname]
  | moved old_val new_val =>
    cases hkey : sr_xpath_key_value new_val.xpath "interface" "name" with
    | none => simp [common, keyOf, hkey] at hcommon
    | some key =>
      have hname : key ≠ "" := by simpa [common, keyOf, hkey] using hcommon
      cases old_val <;> simp [config_round, create_round, config_switch_eq, hkey, hname]

end rounds

/-- The changes that both loops accept and treat alike. -/
def shared (env : Env) (om : Om) (change : change_t) : Bool :=
  accepts env om change && common change

theorem unnamed_of_not_common {change : change_t} (hcommon : ¬ common change = true) :
    keyOf change = none ∨ keyOf change = some "" := by
  cases hkey : keyOf change with
  | none => exact .inl rfl
  | some key =>
    have hempty : key = "" := by simpa [common, hkey] using hcommon
    exact .inr (by rw [hempty])

/-- How the callback ends at a change that is not shared. -/
def config_refusal (change : change_t) : Except fault_t sr_error_t :=
  match keyOf change with
  | some intf_name => if intf_name.isEmpty then .ok .SR_ERR_INVAL_ARG else refusal change
  | none => if change.new_val.isSome then .error .absent_key else .error .absent_value

theorem config_refusal_of_common {change : change_t} (hcommon : common change = true) :
    config_refusal change = refusal change := by
  cases hkey : keyOf change with
  | none => simp [common, hkey] at hcommon
  | some key =>
    have hname : key ≠ "" := by simpa [common, hkey] using hcommon
    simp [config_refusal, hkey, hname]

theorem config_refusal_of_unnamed {change : change_t} (hkey : keyOf change = some "") :
    config_refusal change = .ok .SR_ERR_INVAL_ARG := by
  simp [config_refusal, hkey]

theorem config_refusal_ne_ok {env : Env} {om : Om} {change : change_t} (hnot : shared env om change = false) :
    config_refusal change ≠ .ok .SR_ERR_OK := by
  by_cases hcommon : common change = true
  · rw [config_refusal_of_common hcommon]
    have hrefused : accepts env om change = false := by simpa [shared, hcommon] using hnot
    exact refusal_ne_ok hrefused
  · rcases unnamed_of_not_common hcommon with hkey | hkey
    · rw [config_refusal, hkey]
      dsimp only
      split <;> simp
    · simp [config_refusal_of_unnamed hkey]

/-- At a change that is not treated alike nothing is done but to receive its
    values. -/
theorem config_round_uncommon (env : Env) (l : config_locals) {change : change_t} (hcommon : ¬ common change = true) :
    ∃ exit received, config_round env l change = .error exit ∧
      (config_leave (.error exit)).outcome = config_refusal change ∧
      (config_leave (.error exit)).world = { l.world with received } := by
  cases change with
  | deleted old_val => exact ⟨_, _, by simp [config_round]; rfl, rfl, rfl⟩
  | created new_val =>
    have hkey : sr_xpath_key_value new_val.xpath "interface" "name" = none ∨
        sr_xpath_key_value new_val.xpath "interface" "name" = some "" := unnamed_of_not_common hcommon
    rcases hkey with hkey | hkey <;>
      exact ⟨_, _, by simp [config_round, hkey]; rfl, by simp [config_leave, config_refusal, keyOf, hkey], rfl⟩
  | modified old_val new_val =>
    have hkey : sr_xpath_key_value new_val.xpath "interface" "name" = none ∨
        sr_xpath_key_value new_val.xpath "interface" "name" = some "" := unnamed_of_not_common hcommon
    rcases hkey with hkey | hkey <;>
      exact ⟨_, _, by simp [config_round, hkey]; rfl, by simp [config_leave, config_refusal, keyOf, hkey], rfl⟩
  | moved old_val new_val =>
    have hkey : sr_xpath_key_value new_val.xpath "interface" "name" = none ∨
        sr_xpath_key_value new_val.xpath "interface" "name" = some "" := unnamed_of_not_common hcommon
    cases old_val <;> rcases hkey with hkey | hkey <;>
      exact ⟨_, _, by simp [config_round, hkey]; rfl, by simp [config_leave, config_refusal, keyOf, hkey], rfl⟩

/-- A change that is not shared leaves the callback, without a trace of its
    own. -/
theorem config_round_left (env : Env) (l : config_locals) {change : change_t}
    (hnot : shared env l.world.om change = false) :
    ∃ exit, config_round env l change = .error exit ∧ (config_leave (.error exit)).outcome = config_refusal change ∧
      (config_leave (.error exit)).world.Same l.world ∧ (config_leave (.error exit)).world.calls = l.world.calls := by
  by_cases hcommon : common change = true
  · have hrefused : accepts env l.world.om change = false := by simpa [shared, hcommon] using hnot
    rw [config_round_common env l hcommon, config_leave_eq, config_refusal_of_common hcommon]
    exact create_round_refused env l hrefused
  · obtain ⟨exit, received, hround, houtcome, hworld⟩ := config_round_uncommon env l hcommon
    refine ⟨exit, hround, houtcome, ?_, ?_⟩
    · rw [hworld]
      exact ⟨rfl, rfl, rfl⟩
    · rw [hworld]

theorem config_accepting (env : Env) (om : Om) :
    Accepting (config_round env) (fun l => l.world.om = om) (shared env om) advance where
  step l change hom hshared := by
    rw [shared, Bool.and_eq_true] at hshared
    rw [config_round_common env l hshared.2]
    exact create_round_accepted (by rw [hom]; exact hshared.1)
  keeps l change hom _ := (advance_om l change).trans hom

/-- The loop of the OpenConfig callback and what follows it. -/
def config_run (env : Env) (start : config_locals) (changes : List change_t) : cb_result :=
  config_leave do
    let l ← changes.foldlM (config_round env) start
    config_commit env l

section runs

variable (env : Env) (start : config_locals)

theorem config_run_shared {changes : List change_t}
    (hshared : ∀ change ∈ changes, shared env start.world.om change = true) :
    config_run env start changes = create_leave (create_commit env (changes.foldl advance start)) := by
  have hloop := (config_accepting env start.world.om).foldlM_eq_ok start rfl hshared
  simp [config_run, hloop, config_leave_eq, config_commit_eq]

theorem config_run_exit {before : List change_t} (after : List change_t) {change : change_t} {exit : Exit config_locals}
    (hshared : ∀ earlier ∈ before, shared env start.world.om earlier = true)
    (hexit : config_round env (before.foldl advance start) change = .error exit) :
    config_run env start (before ++ change :: after) = config_leave (.error exit) := by
  have hloop := (config_accepting env start.world.om).foldlM_eq_error start rfl hshared hexit after
  simp [config_run, hloop]

/-- At a change that is not shared the run ends, with only the interface states
    set by the changes before it. -/
theorem config_run_left {before : List change_t} (after : List change_t) {change : change_t}
    (hshared : ∀ earlier ∈ before, shared env start.world.om earlier = true)
    (hnot : shared env start.world.om change = false) :
    let result := config_run env start (before ++ change :: after)
    result.outcome = config_refusal change ∧ result.world.Same (before.foldl advance start).world ∧
      result.world.calls = (before.foldl advance start).world.calls := by
  obtain ⟨exit, hround, houtcome, hsame, hcalls⟩ := config_round_left env (before.foldl advance start)
    (by rw [foldl_advance_om]; exact hnot)
  rw [config_run_exit env start after hshared hround]
  exact ⟨houtcome, hsame, hcalls⟩

end runs

/-- A change that the IETF loop passes over without a call. -/
def quiet (change : change_t) : Bool :=
  match change with
  | .moved _ _ => false
  | _ => (sets change).isNone

theorem accepts_of_quiet {env : Env} {om : Om} {change : change_t}
    (hkeyed : (keyOf change).isSome ∨ (∃ old_val, change = .deleted old_val))
    (hquiet : quiet change = true) : accepts env om change = true := by
  cases change with
  | created new_val => rfl
  | deleted old_val => rfl
  | moved old_val new_val => simp [quiet] at hquiet
  | modified old_val new_val =>
    have hkey : (sr_xpath_key_value new_val.xpath "interface" "name").isSome := by
      simpa [keyOf] using hkeyed
    obtain ⟨key, hkey⟩ := Option.isSome_iff_exists.mp hkey
    have hleaf : sr_xpath_node_name_eq new_val.xpath "enabled" = false := by
      simpa [quiet, sets, hkey] using hquiet
    simp [accepts, hleaf]

section ietf

variable (env : Env) (start : create_locals)

/-- The IETF callback reads no value that is absent. -/
theorem create_run_reads (changes : List change_t) :
    (create_run env start changes).outcome ≠ .error .absent_value := by
  rcases accepted_or_split (accepts env start.world.om) changes with
    haccepts | ⟨before, change, after, rfl, haccepts, hrefused⟩
  · rw [create_run_accepted env start haccepts, (create_commit_calls env _).1]
    split
    · split <;> simp
    · split
      · simp
      · split <;> simp
  · rw [(create_run_refused env start after haccepts hrefused).1]
    rcases refusal_cases hrefused with hends | hends | hends <;> simp [hends]

/-- When the IETF callback ends with an invalid argument and without a further
    call: it has passed over the rest of the list, and then cannot build the
    interface. -/
theorem create_run_invalid_iff {before rest : List change_t}
    (haccepts : ∀ earlier ∈ before, accepts env start.world.om earlier = true)
    (hkeyed : ∀ later ∈ rest, (keyOf later).isSome ∨ ∃ old_val, later = .deleted old_val) :
    (create_run env start (before ++ rest)).outcome = .ok .SR_ERR_INVAL_ARG ∧
        (create_run env start (before ++ rest)).world.calls = (before.foldl advance start).world.calls ↔
      (∀ later ∈ rest, quiet later = true) ∧ ((before ++ rest).foldl advance start).create = true ∧
        ((before ++ rest).foldl advance start).builder.build = none := by
  have hcalls (hquiet : ∀ later ∈ rest, sets later = none) :
      ((before ++ rest).foldl advance start).world.calls = (before.foldl advance start).world.calls := by
    have hnone : rest.filterMap sets = [] := List.filterMap_eq_nil_iff.mpr hquiet
    rw [foldl_advance_calls, foldl_advance_calls, List.filterMap_append, hnone, List.append_nil]
  constructor
  · rintro ⟨houtcome, hsame⟩
    rcases accepted_or_split (accepts env start.world.om) (before ++ rest) with
      hall | ⟨earlier, change, later, heq, hearlier, hrefused⟩
    · rw [create_run_accepted env start hall] at houtcome hsame
      obtain ⟨hcreate, hbuild⟩ := create_commit_invalid_iff.mp houtcome
      obtain ⟨_, _, hmakes⟩ := create_commit_rejected env
        (l := (before ++ rest).foldl advance start) (by simp only [pending, hcreate, hbuild, if_true]) (.inl hcreate)
      refine ⟨fun later hlater => ?_, hcreate, hbuild⟩
      rw [hmakes, foldl_advance_calls, foldl_advance_calls] at hsame
      have hnone : rest.filterMap sets = [] := by simpa using hsame
      have hsets := List.filterMap_eq_nil_iff.mp hnone later hlater
      have haccepted := hall later (List.mem_append_right before hlater)
      cases later with
      | moved old_val new_val => simp [accepts] at haccepted
      | _ => simp [quiet, hsets]
    · rw [heq, (create_run_refused env start later hearlier hrefused).1] at houtcome
      exact absurd houtcome (refusal_ne_invalid hrefused)
  · rintro ⟨hquiet, hcreate, hbuild⟩
    have hall : ∀ change ∈ before ++ rest, accepts env start.world.om change = true := by
      intro change hmem
      rcases List.mem_append.mp hmem with hmem | hmem
      · exact haccepts change hmem
      · exact accepts_of_quiet (hkeyed change hmem) (hquiet change hmem)
    have hsets : ∀ later ∈ rest, sets later = none := by
      intro later hmem
      have hlater := hquiet later hmem
      cases later with
      | moved old_val new_val => rfl
      | _ => simpa [quiet] using hlater
    obtain ⟨houtcome, _, hsame⟩ := create_commit_rejected env
      (l := (before ++ rest).foldl advance start) (by simp only [pending, hcreate, hbuild, if_true]) (.inl hcreate)
    rw [create_run_accepted env start hall, houtcome, hsame, hcalls hsets, hcreate]
    exact ⟨rfl, rfl⟩

end ietf

end sweetcomb.openconfig_interfaces
