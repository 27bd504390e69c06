import Sweetcomb.Ietf.Nat.Round

open keyed_store loop

namespace sweetcomb.ietf_nat

theorem nat_accepting (env : Env) :
    Accepting (nat_round env) (fun _ => True) (accepts env.text) (advance env.text) where
  step _ _ _ haccepts := nat_round_accepted haccepts
  keeps _ _ _ _ := trivial

section fold

variable (text : AddressText) (l : nat_locals) (changes : List change_t)

theorem foldl_advance_same : (changes.foldl (advance text) l).world.Same l.world := by
  induction changes generalizing l with
  | nil => exact .refl _
  | cons change changes ih =>
    exact (ih (advance text l change)).trans ⟨by simp [advance], by simp [advance], by simp [advance]⟩

@[simp] theorem foldl_advance_writes : (changes.foldl (advance text) l).world.writes = l.world.writes := by
  induction changes generalizing l with
  | nil => rfl
  | cons change changes ih => rw [List.foldl_cons, ih]; simp [advance]

@[simp] theorem foldl_advance_calls : (changes.foldl (advance text) l).world.calls = l.world.calls := by
  induction changes generalizing l with
  | nil => rfl
  | cons change changes ih => rw [List.foldl_cons, ih]; simp [advance]

@[simp] theorem foldl_advance_xindex :
    (changes.foldl (advance text) l).xindex = latest indexed l.xindex changes := by
  induction changes generalizing l with
  | nil => rfl
  | cons change changes ih => exact ih (advance text l change)

@[simp] theorem foldl_advance_type :
    (changes.foldl (advance text) l).builder.m_type = latest typed l.builder.m_type changes := by
  induction changes generalizing l with
  | nil => rfl
  | cons change changes ih => exact ih (advance text l change)

@[simp] theorem foldl_advance_internal_src : (changes.foldl (advance text) l).builder.m_internal_src =
    latest (reads text "internal-src-address") l.builder.m_internal_src changes := by
  induction changes generalizing l with
  | nil => rfl
  | cons change changes ih => exact ih (advance text l change)

@[simp] theorem foldl_advance_external_src : (changes.foldl (advance text) l).builder.m_external_src =
    latest (reads text "external-src-address") l.builder.m_external_src changes := by
  induction changes generalizing l with
  | nil => rfl
  | cons change changes ih => exact ih (advance text l change)

@[simp] theorem foldl_advance_create :
    (changes.foldl (advance text) l).create = (l.create || changes.any creates) := by
  induction changes generalizing l with
  | nil => simp
  | cons change changes ih => rw [List.foldl_cons, ih, List.any_cons, ← Bool.or_assoc]; rfl

@[simp] theorem foldl_advance_remove :
    (changes.foldl (advance text) l).remove = (l.remove || changes.any removes) := by
  induction changes generalizing l with
  | nil => simp
  | cons change changes ih => rw [List.foldl_cons, ih, List.any_cons, ← Bool.or_assoc]; rfl

end fold

/-- A prefix always prints as some text. -/
theorem empty_eq_false (text : AddressText) (p : utils_prefix_t) : p.empty text = false := by
  simp [utils_prefix_t.empty, utils_prefix_t.to_string]

/-- The mapping that a builder makes. Prefixes are never empty, so that the
    source addresses are taken even when they were not set. -/
def nat_static_builder.mapping (builder : nat_static_builder) : Option nat_pair_t :=
  if builder.m_type = "static" then
    some (builder.m_internal_src.m_address, builder.m_external_src.m_address)
  else none

theorem build_of_mapping {text : AddressText} {builder : nat_static_builder} {pair : nat_pair_t}
    (hmapping : builder.mapping = some pair) :
    builder.build text = ({ builder with m_inside := pair.1, m_outside := pair.2 },
      some (.nat_static pair.1 pair.2)) := by
  unfold nat_static_builder.mapping at hmapping
  split at hmapping
  · rename_i htype
    cases hmapping
    simp [nat_static_builder.build, htype, empty_eq_false]
  · cases hmapping

theorem build_of_no_mapping {text : AddressText} {builder : nat_static_builder}
    (hmapping : builder.mapping = none) : builder.build text = (builder, none) := by
  unfold nat_static_builder.mapping at hmapping
  split at hmapping
  · cases hmapping
  · rename_i htype
    simp [nat_static_builder.build, htype]

section commit

variable (env : Env) {l : nat_locals}

theorem nat_commit_written {pair : nat_pair_t} (hcreate : l.create = true)
    (hmapping : l.builder.mapping = some pair) (hwrite : env.write_rc l.world.writes = .OK) :
    let result := nat_leave (nat_commit env l)
    result.outcome = .ok .SR_ERR_OK ∧
      result.world.om = l.world.om.write object.singular (KEY l.xindex) (.nat_static pair.1 pair.2) ∧
      result.world.static_mapping_table = Function.update l.world.static_mapping_table l.xindex (some pair) ∧
      result.world.instances = l.world.instances := by
  simp [nat_commit, hcreate, build_of_mapping hmapping, nat_leave, hwrite, World.om_write_om,
    World.om_write_instances, object.publish]

/-- Without a successful write, neither OM nor the table changes. -/
theorem nat_commit_failed {pair : nat_pair_t} (hcreate : l.create = true)
    (hmapping : l.builder.mapping = some pair) (hwrite : env.write_rc l.world.writes ≠ .OK) :
    let result := nat_leave (nat_commit env l)
    result.outcome = .ok .SR_ERR_OPERATION_FAILED ∧ result.world.Same l.world := by
  refine ⟨?_, ⟨?_, ?_, ?_⟩⟩ <;>
    simp [nat_commit, hcreate, build_of_mapping hmapping, nat_leave, hwrite, World.om_write_om,
      World.om_write_instances]

theorem nat_commit_rejected (hcreate : l.create = true) (hmapping : l.builder.mapping = none) :
    let result := nat_leave (nat_commit env l)
    result.outcome = .ok .SR_ERR_INVAL_ARG ∧ result.world.Same l.world := by
  refine ⟨?_, ⟨?_, ?_, ?_⟩⟩ <;> simp [nat_commit, hcreate, build_of_no_mapping hmapping, nat_leave]

theorem nat_commit_removed (hcreate : l.create = false) (hremove : l.remove = true) :
    let result := nat_leave (nat_commit env l)
    result.outcome = .ok .SR_ERR_OK ∧ result.world.om = l.world.om.remove (KEY l.xindex) ∧
      result.world.static_mapping_table = Function.update l.world.static_mapping_table l.xindex none ∧
      result.world.instances = l.world.instances := by
  simp [nat_commit, hcreate, hremove, nat_leave]

theorem nat_commit_nothing (hcreate : l.create = false) (hremove : l.remove = false) :
    let result := nat_leave (nat_commit env l)
    result.outcome = .ok .SR_ERR_OK ∧ result.world.Same l.world := by
  refine ⟨?_, ⟨?_, ?_, ?_⟩⟩ <;> simp [nat_commit, hcreate, hremove, nat_leave]

/-- How the code after the loop ends, and the call it makes. -/
theorem nat_commit_calls (l : nat_locals) :
    let result := nat_leave (nat_commit env l)
    result.outcome =
        (if l.create then
          if l.builder.mapping = none then .ok .SR_ERR_INVAL_ARG
          else if env.write_rc l.world.writes = .OK then .ok .SR_ERR_OK else .ok .SR_ERR_OPERATION_FAILED
        else .ok .SR_ERR_OK) ∧
      result.world.calls = l.world.calls ++
        if l.create then l.builder.mapping.toList.map fun pair => .write (KEY l.xindex) (.nat_static pair.1 pair.2)
        else if l.remove then [.remove (KEY l.xindex)] else [] := by
  cases hcreate : l.create with
  | true =>
    cases hmapping : l.builder.mapping with
    | none => simp [nat_commit, hcreate, build_of_no_mapping hmapping, nat_leave]
    | some pair =>
      by_cases hwrite : env.write_rc l.world.writes = .OK <;>
        simp [nat_commit, hcreate, build_of_mapping hmapping, nat_leave, hwrite]
  | false =>
    cases hremove : l.remove <;> simp [nat_commit, hcreate, hremove, nat_leave]

end commit

section verify

variable {env : Env} {uninit : Uninit} {w : World}

/-- The variables when the loop starts. -/
def loop_start (uninit : Uninit) (w : World) : nat_locals :=
  { nat_start uninit w with rc := .SR_ERR_OK, it := .obtained }

theorem nat_cb_accepted {changes : List change_t} (haccepts : ∀ change ∈ changes, accepts env.text change = true) :
    nat_mapping_table_config_cb env uninit (verify changes) w =
      nat_leave (nat_commit env (changes.foldl (advance env.text) (loop_start uninit w))) := by
  have hloop := (nat_accepting env).foldlM_eq_ok (loop_start uninit w) trivial haccepts
  simp only [loop_start] at hloop
  simp [nat_mapping_table_config_cb, hloop, loop_start]

theorem nat_cb_refused {before after : List change_t} {change : change_t}
    (haccepts : ∀ earlier ∈ before, accepts env.text earlier = true)
    (hrefused : accepts env.text change = false) :
    let result := nat_mapping_table_config_cb env uninit (verify (before ++ change :: after)) w
    result.outcome = refusal change ∧ result.world.Same w ∧ result.world.calls = w.calls := by
  obtain ⟨exit, hround, houtcome, hsame, hcalls⟩ := nat_round_refused env
    (before.foldl (advance env.text) (loop_start uninit w)) hrefused
  have hloop := (nat_accepting env).foldlM_eq_error (loop_start uninit w) trivial haccepts hround after
  simp only [loop_start] at hloop
  simp only [nat_mapping_table_config_cb, hloop, ne_eq, not_true_eq_false, if_false, error_bind]
  exact ⟨houtcome, hsame.trans (foldl_advance_same env.text _ before),
    hcalls.trans (foldl_advance_calls env.text (loop_start uninit w) before)⟩

end verify

end sweetcomb.ietf_nat
