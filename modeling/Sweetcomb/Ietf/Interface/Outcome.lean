import Sweetcomb.Ietf.Interface.Round

open keyed_store loop

namespace sweetcomb.ietf_interface

section advance

variable (l : create_locals) (change : change_t)

@[simp] theorem setWorld_om (w : World) : (setWorld w change).om = w.om := by
  unfold setWorld
  split <;> rfl

@[simp] theorem setWorld_table (w : World) :
    (setWorld w change).static_mapping_table = w.static_mapping_table := by
  unfold setWorld
  split <;> rfl

@[simp] theorem setWorld_writes (w : World) : (setWorld w change).writes = w.writes := by
  unfold setWorld
  split <;> rfl

theorem setWorld_instances (w : World) (name : String) : (setWorld w change).instances name =
    { w.instances name with state := (setsOf name change).getD (w.instances name).state } := by
  unfold setWorld setsOf
  cases hsets : sets change with
  | none => rfl
  | some set =>
    obtain ⟨n, state⟩ := set
    by_cases hname : n = name
    · subst hname
      simp
    · have hother : name ≠ n := fun h => hname h.symm
      simp [hname, hother]

theorem setWorld_calls (w : World) : (setWorld w change).calls =
    w.calls ++ ((sets change).map fun set => vom_call.set set.1 set.2).toList := by
  unfold setWorld
  cases sets change <;> simp

@[simp] theorem advance_om : (advance l change).world.om = l.world.om := by simp [advance]

@[simp] theorem advance_table :
    (advance l change).world.static_mapping_table = l.world.static_mapping_table := by simp [advance]

@[simp] theorem advance_writes : (advance l change).world.writes = l.world.writes := by simp [advance]

theorem advance_instances (name : String) : (advance l change).world.instances name =
    { l.world.instances name with state := (setsOf name change).getD (l.world.instances name).state } := by
  simp [advance, setWorld_instances]

theorem advance_calls : (advance l change).world.calls =
    l.world.calls ++ ((sets change).map fun set => vom_call.set set.1 set.2).toList := by
  simp [advance, setWorld_calls]

end advance

theorem create_accepting (env : Env) (om : Om) :
    Accepting (create_round env) (fun l => l.world.om = om) (accepts env om) advance where
  step l change hom haccepts := create_round_accepted (by rw [hom]; exact haccepts)
  keeps l change hom _ := (advance_om l change).trans hom

section fold

variable (l : create_locals) (changes : List change_t)

@[simp] theorem foldl_advance_om : (changes.foldl advance l).world.om = l.world.om := by
  induction changes generalizing l with
  | nil => rfl
  | cons change changes ih => rw [List.foldl_cons, ih, advance_om]

@[simp] theorem foldl_advance_table :
    (changes.foldl advance l).world.static_mapping_table = l.world.static_mapping_table := by
  induction changes generalizing l with
  | nil => rfl
  | cons change changes ih => rw [List.foldl_cons, ih, advance_table]

@[simp] theorem foldl_advance_writes : (changes.foldl advance l).world.writes = l.world.writes := by
  induction changes generalizing l with
  | nil => rfl
  | cons change changes ih => rw [List.foldl_cons, ih, advance_writes]

theorem foldl_advance_instances (name : String) : (changes.foldl advance l).world.instances name =
    { l.world.instances name with
      state := latest (setsOf name) (l.world.instances name).state changes } := by
  induction changes generalizing l with
  | nil => rfl
  | cons change changes ih => rw [List.foldl_cons, ih, advance_instances, latest_cons]

theorem foldl_advance_calls : (changes.foldl advance l).world.calls =
    l.world.calls ++ (changes.filterMap sets).map fun set => vom_call.set set.1 set.2 := by
  induction changes generalizing l with
  | nil => simp
  | cons change changes ih =>
    rw [List.foldl_cons, ih, advance_calls]
    cases hsets : sets change <;> simp [hsets]

@[simp] theorem foldl_advance_name :
    (changes.foldl advance l).builder.m_name = latest named l.builder.m_name changes := by
  induction changes generalizing l with
  | nil => rfl
  | cons change changes ih => exact ih (advance l change)

@[simp] theorem foldl_advance_type :
    (changes.foldl advance l).builder.m_type = latest typed l.builder.m_type changes := by
  induction changes generalizing l with
  | nil => rfl
  | cons change changes ih => exact ih (advance l change)

@[simp] theorem foldl_advance_state :
    (changes.foldl advance l).builder.m_state = latest enabled l.builder.m_state changes := by
  induction changes generalizing l with
  | nil => rfl
  | cons change changes ih => exact ih (advance l change)

@[simp] theorem foldl_advance_create :
    (changes.foldl advance l).create = (l.create || changes.any creates) := by
  induction changes generalizing l with
  | nil => simp
  | cons change changes ih => rw [List.foldl_cons, ih, List.any_cons, ← Bool.or_assoc]; rfl

@[simp] theorem foldl_advance_remove :
    (changes.foldl advance l).remove = (l.remove || changes.any removes) := by
  induction changes generalizing l with
  | nil => simp
  | cons change changes ih => rw [List.foldl_cons, ih, List.any_cons, ← Bool.or_assoc]; rfl

@[simp] theorem foldl_advance_modify :
    (changes.foldl advance l).modify = (l.modify || changes.any fun change => (sets change).isSome) := by
  induction changes generalizing l with
  | nil => simp
  | cons change changes ih => rw [List.foldl_cons, ih, List.any_cons, ← Bool.or_assoc]; rfl

/-- The interface that `intf` points to: the last one found. -/
def points (change : change_t) : Option (Option intf_ptr) :=
  (sets change).map fun set => some (.found set.1)

@[simp] theorem foldl_advance_intf : (changes.foldl advance l).intf = latest points l.intf changes := by
  induction changes generalizing l with
  | nil => rfl
  | cons change changes ih =>
    rw [List.foldl_cons, ih, latest_cons]
    congr 1
    cases hsets : sets change <;> simp [advance, points, hsets]

end fold

/-- The interface that the code after the loop is about to write. -/
def pending (l : create_locals) : Option (String × interface_attrs) :=
  if l.create then l.builder.build
  else if l.modify then l.intf.map fun intf => (intf.key, intf.attrs l.world)
  else none

/-- The name under which the code after the loop is about to remove. -/
def dropped (l : create_locals) : Option String :=
  if l.create || l.modify || !l.remove then none else some l.builder.m_name

/-- What is pending is written, whether the interface was built or found. -/
theorem create_commit_of_pending (env : Env) {l : create_locals} {key : String} {attrs : interface_attrs}
    (hpending : pending l = some (key, attrs)) :
    ∃ intf, create_commit env l =
      if env.write_rc l.world.writes = .OK then
        .ok { l with intf, world := (l.world.om_write env key (.interface key attrs)).2 }
      else
        .error (.goto_error { l with
          intf
          rc := .SR_ERR_OPERATION_FAILED
          world := (l.world.om_write env key (.interface key attrs)).2 }) := by
  by_cases hcreate : l.create = true
  · have hbuild : l.builder.build = some (key, attrs) := by simpa [pending, hcreate] using hpending
    refine ⟨some (.built key attrs), ?_⟩
    by_cases hwrite : env.write_rc l.world.writes = .OK <;>
      simp [create_commit, hcreate, hbuild, hwrite, intf_ptr.key, intf_ptr.attrs]
  · by_cases hmodify : l.modify = true
    · cases hintf : l.intf with
      | none => simp [pending, hcreate, hmodify, hintf] at hpending
      | some intf =>
        obtain ⟨rfl, rfl⟩ : intf.key = key ∧ intf.attrs l.world = attrs := by
          simpa [pending, hcreate, hmodify, hintf] using hpending
        refine ⟨some intf, ?_⟩
        by_cases hwrite : env.write_rc l.world.writes = .OK <;>
          simp [create_commit, hcreate, hmodify, hintf, hwrite]
    · simp [pending, hcreate, hmodify] at hpending

theorem create_commit_written (env : Env) {l : create_locals} {key : String} {attrs : interface_attrs}
    (hpending : pending l = some (key, attrs)) (hwrite : env.write_rc l.world.writes = .OK) :
    let result := create_leave (create_commit env l)
    result.outcome = .ok .SR_ERR_OK ∧
      result.world.om = l.world.om.write object.singular key (.interface key attrs) ∧
      result.world.instances = Function.update l.world.instances key attrs ∧
      result.world.static_mapping_table = l.world.static_mapping_table ∧
      result.world.calls = l.world.calls ++ [.write key (.interface key attrs)] := by
  obtain ⟨intf, hcommit⟩ := create_commit_of_pending env hpending
  rw [hcommit, if_pos hwrite]
  simp [create_leave, hwrite, World.om_write_om, World.om_write_instances, object.publish]

/-- Without a successful write, nothing but a removal changes after the loop. -/
theorem create_commit_failed (env : Env) {l : create_locals} {key : String} {attrs : interface_attrs}
    (hpending : pending l = some (key, attrs)) (hwrite : env.write_rc l.world.writes ≠ .OK) :
    let result := create_leave (create_commit env l)
    result.outcome = .ok .SR_ERR_OPERATION_FAILED ∧ result.world.Same l.world ∧
      result.world.calls = l.world.calls ++ [.write key (.interface key attrs)] := by
  obtain ⟨intf, hcommit⟩ := create_commit_of_pending env hpending
  rw [hcommit, if_neg hwrite]
  refine ⟨?_, ⟨?_, ?_, ?_⟩, ?_⟩ <;> simp [create_leave, hwrite, World.om_write_om, World.om_write_instances]

/-- A flag that is set without an interface to write ends the call without
    success and without a trace. -/
theorem create_commit_rejected (env : Env) {l : create_locals} (hpending : pending l = none)
    (hflag : l.create = true ∨ l.modify = true) :
    let result := create_leave (create_commit env l)
    result.outcome = (if l.create then .ok .SR_ERR_INVAL_ARG else .error .null_interface) ∧
      result.world.Same l.world ∧ result.world.calls = l.world.calls := by
  by_cases hcreate : l.create = true
  · have hbuild : l.builder.build = none := by simpa [pending, hcreate] using hpending
    refine ⟨?_, ⟨?_, ?_, ?_⟩, ?_⟩ <;> simp [create_commit, hcreate, hbuild, create_leave]
  · have hmodify : l.modify = true := hflag.resolve_left hcreate
    have hintf : l.intf = none := by simpa [pending, hcreate, hmodify] using hpending
    refine ⟨?_, ⟨?_, ?_, ?_⟩, ?_⟩ <;> simp [create_commit, hcreate, hmodify, hintf, create_leave]

theorem create_commit_removed (env : Env) {l : create_locals} {name : String}
    (hdropped : dropped l = some name) :
    let result := create_leave (create_commit env l)
    result.outcome = .ok .SR_ERR_OK ∧ result.world.om = l.world.om.remove name ∧
      result.world.instances = l.world.instances ∧
      result.world.static_mapping_table = l.world.static_mapping_table ∧
      result.world.calls = l.world.calls ++ [.remove name] := by
  obtain ⟨⟨⟨hcreate, hmodify⟩, hremove⟩, rfl⟩ :
      ((l.create = false ∧ l.modify = false) ∧ l.remove = true) ∧ l.builder.m_name = name := by
    simpa [dropped] using hdropped
  simp [create_commit, hcreate, hmodify, hremove, create_leave]

theorem create_commit_nothing (env : Env) {l : create_locals} (hcreate : l.create = false)
    (hmodify : l.modify = false) (hdropped : dropped l = none) :
    let result := create_leave (create_commit env l)
    result.outcome = .ok .SR_ERR_OK ∧ result.world.Same l.world ∧
      result.world.calls = l.world.calls := by
  have hremove : l.remove = false := by simpa [dropped, hcreate, hmodify] using hdropped
  refine ⟨?_, ⟨?_, ?_, ?_⟩, ?_⟩ <;> simp [create_commit, hcreate, hmodify, hremove, create_leave]

/-- How the code after the loop ends, and the call it makes. -/
theorem create_commit_calls (env : Env) (l : create_locals) :
    let result := create_leave (create_commit env l)
    result.outcome =
        (match pending l with
        | some _ => if env.write_rc l.world.writes = .OK then .ok .SR_ERR_OK else .ok .SR_ERR_OPERATION_FAILED
        | none =>
          if l.create then .ok .SR_ERR_INVAL_ARG
          else if l.modify then .error .null_interface else .ok .SR_ERR_OK) ∧
      result.world.calls = l.world.calls ++
        match pending l with
        | some (key, attrs) => [.write key (.interface key attrs)]
        | none => (dropped l).toList.map .remove := by
  cases hpending : pending l with
  | some written =>
    obtain ⟨key, attrs⟩ := written
    by_cases hwrite : env.write_rc l.world.writes = .OK
    · obtain ⟨houtcome, _, _, _, hcalls⟩ := create_commit_written env hpending hwrite
      exact ⟨by rw [houtcome, if_pos hwrite], hcalls⟩
    · obtain ⟨houtcome, _, hcalls⟩ := create_commit_failed env hpending hwrite
      exact ⟨by rw [houtcome, if_neg hwrite], hcalls⟩
  | none =>
    by_cases hflag : l.create = true ∨ l.modify = true
    · obtain ⟨houtcome, _, hcalls⟩ := create_commit_rejected env hpending hflag
      have hdropped : dropped l = none := by rcases hflag with hflag | hflag <;> simp [dropped, hflag]
      refine ⟨?_, by simp [hcalls, hdropped]⟩
      cases hcreate : l.create <;> simp_all
    · simp only [not_or, Bool.not_eq_true] at hflag
      cases hdropped : dropped l with
      | some name =>
        obtain ⟨houtcome, _, _, _, hcalls⟩ := create_commit_removed env hdropped
        exact ⟨by simp [houtcome, hflag], hcalls⟩
      | none =>
        obtain ⟨houtcome, _, hcalls⟩ := create_commit_nothing env hflag.1 hflag.2 hdropped
        exact ⟨by simp [houtcome, hflag], by simp [hcalls]⟩

/-- How the code after the loop ends when it has nothing to write. -/
def unwritten (l : create_locals) : Except fault_t sr_error_t :=
  if l.create then .ok .SR_ERR_INVAL_ARG else if l.modify then .error .null_interface else .ok .SR_ERR_OK

/-- What the code after the loop leaves in the state. -/
theorem create_commit_world (env : Env) (l : create_locals) :
    let result := create_leave (create_commit env l)
    result.world.om =
        (match pending l with
        | some (key, attrs) =>
          if env.write_rc l.world.writes = .OK then l.world.om.write object.singular key (.interface key attrs)
          else l.world.om
        | none =>
          match dropped l with
          | some name => l.world.om.remove name
          | none => l.world.om) ∧
      result.world.instances =
        (match pending l with
        | some (key, attrs) =>
          if env.write_rc l.world.writes = .OK then Function.update l.world.instances key attrs else l.world.instances
        | none => l.world.instances) ∧
      result.world.static_mapping_table = l.world.static_mapping_table := by
  cases hpending : pending l with
  | some written =>
    obtain ⟨key, attrs⟩ := written
    by_cases hwrite : env.write_rc l.world.writes = .OK
    · obtain ⟨_, hom, hinstances, htable, _⟩ := create_commit_written env hpending hwrite
      simp only [if_pos hwrite]
      exact ⟨hom, hinstances, htable⟩
    · obtain ⟨_, hsame, _⟩ := create_commit_failed env hpending hwrite
      simp only [if_neg hwrite]
      exact ⟨hsame.om, hsame.instances, hsame.static_mapping_table⟩
  | none =>
    cases hdropped : dropped l with
    | some name =>
      obtain ⟨_, hom, hinstances, htable, _⟩ := create_commit_removed env hdropped
      exact ⟨hom, hinstances, htable⟩
    | none =>
      by_cases hflag : l.create = true ∨ l.modify = true
      · obtain ⟨_, hsame, _⟩ := create_commit_rejected env hpending hflag
        exact ⟨hsame.om, hsame.instances, hsame.static_mapping_table⟩
      · simp only [not_or, Bool.not_eq_true] at hflag
        obtain ⟨_, hsame, _⟩ := create_commit_nothing env hflag.1 hflag.2 hdropped
        exact ⟨hsame.om, hsame.instances, hsame.static_mapping_table⟩

/-- Runs of the code after the loop that have the same to write, and where there
    is nothing the same end and the same to remove, are the same. -/
theorem create_commit_alike (env : Env) {first second : create_locals} (hworld : first.world.Same second.world)
    (hwrites : first.world.writes = second.world.writes) (hcalls : first.world.calls = second.world.calls)
    (hpending : pending first = pending second)
    (hnothing : pending first = none → unwritten first = unwritten second ∧ dropped first = dropped second) :
    (create_leave (create_commit env first)).Same (create_leave (create_commit env second)) := by
  obtain ⟨houtcome, hmade⟩ := create_commit_calls env first
  obtain ⟨houtcome', hmade'⟩ := create_commit_calls env second
  obtain ⟨hom, hinstances, htable⟩ := create_commit_world env first
  obtain ⟨hom', hinstances', htable'⟩ := create_commit_world env second
  rw [← hpending, ← hwrites] at houtcome' hom' hinstances'
  rw [← hpending] at hmade'
  cases hwritten : pending first with
  | some written =>
    simp only [hwritten] at houtcome houtcome' hmade hmade' hom hom' hinstances hinstances'
    refine ⟨by rw [houtcome, houtcome'], by rw [hmade, hmade', hcalls], ?_, ?_, ?_⟩
    · rw [hom, hom', hworld.om]
    · rw [hinstances, hinstances', hworld.instances]
    · rw [htable, htable', hworld.static_mapping_table]
  | none =>
    obtain ⟨hends, hdropped⟩ := hnothing hwritten
    simp only [hwritten] at houtcome houtcome' hmade hmade' hom hom' hinstances hinstances'
    refine ⟨houtcome.trans (hends.trans houtcome'.symm), by rw [hmade, hmade', hdropped, hcalls], ?_, ?_, ?_⟩
    · rw [hom, hom', hdropped, hworld.om]
    · rw [hinstances, hinstances', hworld.instances]
    · rw [htable, htable', hworld.static_mapping_table]

theorem build_eq_none {builder : interface_builder} :
    builder.build = none ↔ builder.m_name = "" ∨ builder.m_type = "" := by
  simp [interface_builder.build, or_iff_not_imp_left]

/-- After the loop an argument is invalid only when the interface cannot be
    built, and then no call is made. -/
theorem create_commit_invalid_iff {env : Env} {l : create_locals} :
    (create_leave (create_commit env l)).outcome = .ok .SR_ERR_INVAL_ARG ↔
      l.create = true ∧ l.builder.build = none := by
  rw [(create_commit_calls env l).1]
  cases hcreate : l.create with
  | true =>
    cases hbuild : l.builder.build with
    | none => simp [pending, hcreate, hbuild]
    | some built =>
      simp only [pending, hcreate, hbuild, if_true]
      split <;> simp
  | false =>
    simp only [Bool.false_eq_true, if_false, false_and, iff_false]
    split
    · split <;> simp
    · split <;> simp

/-- The loop and what follows it, from given variables. -/
def create_run (env : Env) (start : create_locals) (changes : List change_t) : cb_result :=
  create_leave do
    let l ← changes.foldlM (create_round env) start
    create_commit env l

section run

variable (env : Env) (start : create_locals)

/-- When every change is accepted, the run is the code after the loop, on the
    variables that the whole list leaves. -/
theorem create_run_accepted {changes : List change_t}
    (haccepts : ∀ change ∈ changes, accepts env start.world.om change = true) :
    create_run env start changes = create_leave (create_commit env (changes.foldl advance start)) := by
  have hloop := (create_accepting env start.world.om).foldlM_eq_ok start rfl haccepts
  simp [create_run, hloop]

/-- When some change is not accepted, the run ends there, with only the
    interface states set by the changes before it. -/
theorem create_run_refused {before : List change_t} (after : List change_t) {change : change_t}
    (haccepts : ∀ earlier ∈ before, accepts env start.world.om earlier = true)
    (hrefused : accepts env start.world.om change = false) :
    let result := create_run env start (before ++ change :: after)
    result.outcome = refusal change ∧ result.world.Same (before.foldl advance start).world ∧
      result.world.calls = (before.foldl advance start).world.calls := by
  obtain ⟨exit, hround, houtcome, hsame, hcalls⟩ := create_round_refused env
    (before.foldl advance start) (by rw [foldl_advance_om]; exact hrefused)
  have hloop := (create_accepting env start.world.om).foldlM_eq_error start rfl haccepts hround after
  simp only [create_run, hloop, error_bind]
  exact ⟨houtcome, hsame, hcalls⟩

end run

theorem create_cb_verify (env : Env) (uninit : Uninit) (changes : List change_t) (w : World) :
    ietf_interface_create_cb env uninit (verify changes) w = create_run env (create_start uninit w) changes := by
  simp [ietf_interface_create_cb, create_run]

end sweetcomb.ietf_interface
