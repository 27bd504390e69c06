import Sweetcomb.Ietf.Interface.Determined
import Sweetcomb.Ietf.Interface.Entry
import Sweetcomb.Refcount
import Sweetcomb.Subscribers

open loop sweetcomb.ietf_interface

namespace sweetcomb

section interfaces

variable {env : Env} {w : World} {changes : List change_t}

theorem create_cb_determined_iff : Determined (ietf_interface_create_cb env) (verify changes) w ↔
    (∃ change ∈ changes, accepts env w.om change = false) ∨ Settled w changes := by
  unfold Determined
  simp only [create_cb_verify]
  exact loop_determined_iff env (fun uninit => starts_create uninit w)
    (fun uninit _ haccepts => create_run_accepted env (create_start uninit w) haccepts)
    (fun uninit _ _ after haccepts hrefused => create_run_refused env (create_start uninit w) after haccepts hrefused)

theorem config_cb_determined_iff : Determined (openconfig_interfaces.oc_interfaces_config_cb env) (verify changes) w ↔
    (∃ change ∈ changes, openconfig_interfaces.shared env w.om change = false) ∨ Settled w changes := by
  unfold Determined
  simp only [openconfig_interfaces.config_cb_verify]
  exact loop_determined_iff env (fun uninit => openconfig_interfaces.starts_config uninit w)
    (fun uninit _ hshared =>
      openconfig_interfaces.config_run_shared env (openconfig_interfaces.config_start uninit w) hshared)
    (fun uninit _ _ after hshared hnot =>
      openconfig_interfaces.config_run_left env (openconfig_interfaces.config_start uninit w) after hshared hnot)

end interfaces

section mappings

open ietf_nat

variable {env : Env} {w : World} {changes : List change_t}

/-- An index that is created is the last one met, whatever the variable held. -/
theorem lastIndex_forgets (hcreates : changes.any ietf_nat.creates = true) (uninit uninit' : Uninit) :
    lastIndex uninit changes = lastIndex uninit' changes := by
  obtain ⟨change, hmem, hcreates⟩ := List.any_eq_true.mp hcreates
  refine latest_forgets ⟨change, hmem, ?_⟩ _ _
  cases change with
  | created new_val =>
    have hindex : sr_xpath_node_name_eq new_val.xpath "index" = true := hcreates
    simp [indexed, hindex]
  | modified old_val new_val => simp [ietf_nat.creates] at hcreates
  | deleted old_val => simp [ietf_nat.creates] at hcreates
  | moved old_val new_val => simp [ietf_nat.creates] at hcreates

/-- Only the addresses of the prefixes go into a mapping. -/
theorem lastMapping_forgets (text : AddressText) (uninit uninit' : Uninit) :
    lastMapping text uninit changes = lastMapping text uninit' changes := by
  have hread (leaf : String) :
      (latest (reads text leaf) (.new uninit.m_prefix_len) changes).m_address =
        (latest (reads text leaf) (.new uninit'.m_prefix_len) changes).m_address :=
    latest_congr utils_prefix_t.m_address (by rfl) changes
  simp only [lastMapping, hread]

theorem nat_commit_determined (uninit uninit' : Uninit) (hcreates : changes.any ietf_nat.creates = true) :
    (nat_leave (nat_commit env (ended env uninit w changes))).Same
      (nat_leave (nat_commit env (ended env uninit' w changes))) := by
  have hcreate (uninit : Uninit) : (ended env uninit w changes).create = true := by
    rw [ended_create, hcreates, Bool.or_true]
  have hmapping : (ended env uninit w changes).builder.mapping = (ended env uninit' w changes).builder.mapping := by
    rw [ended_mapping, ended_mapping, lastMapping_forgets]
  have hindex : (ended env uninit w changes).xindex = (ended env uninit' w changes).xindex := by
    rw [ended_xindex, ended_xindex, lastIndex_forgets hcreates]
  have hworld : (ended env uninit w changes).world.Same (ended env uninit' w changes).world :=
    (ended_same env uninit w changes).trans (ended_same env uninit' w changes).symm
  have hwrites : (ended env uninit w changes).world.writes = (ended env uninit' w changes).world.writes := by
    simp [ended, loop_start, nat_start]
  have hcalls : (ended env uninit w changes).world.calls = (ended env uninit' w changes).world.calls := by
    simp [ended, loop_start, nat_start]
  obtain ⟨houtcome, hmade⟩ := nat_commit_calls env (ended env uninit w changes)
  obtain ⟨houtcome', hmade'⟩ := nat_commit_calls env (ended env uninit' w changes)
  rw [hcreate, hmapping, hwrites] at houtcome
  rw [hcreate, hmapping, hindex, hcalls] at hmade
  rw [hcreate] at houtcome' hmade'
  refine ⟨houtcome.trans houtcome'.symm, hmade.trans hmade'.symm, ?_⟩
  cases hbuilt : (ended env uninit' w changes).builder.mapping with
  | none =>
    have hsame := (nat_commit_rejected env (hcreate uninit) (hmapping.trans hbuilt)).2
    exact hsame.trans (hworld.trans (nat_commit_rejected env (hcreate uninit') hbuilt).2.symm)
  | some pair =>
    by_cases hwrite : env.write_rc (ended env uninit' w changes).world.writes = .OK
    · obtain ⟨_, hom, htable, hinstances⟩ := nat_commit_written env (hcreate uninit) (hmapping.trans hbuilt)
        (by rw [hwrites]; exact hwrite)
      obtain ⟨_, hom', htable', hinstances'⟩ := nat_commit_written env (hcreate uninit') hbuilt hwrite
      refine ⟨?_, ?_, ?_⟩
      · rw [hom, hom', hworld.om, hindex]
      · rw [hinstances, hinstances', hworld.instances]
      · rw [htable, htable', hworld.static_mapping_table, hindex]
    · have hsame := (nat_commit_failed env (hcreate uninit) (hmapping.trans hbuilt) (by rw [hwrites]; exact hwrite)).2
      exact hsame.trans (hworld.trans (nat_commit_failed env (hcreate uninit') hbuilt hwrite).2.symm)

/-- Where no index is created, a flag that happens to be set has the callback
    build a mapping or fail, instead of the removal or of nothing. -/
theorem nat_commit_not_determined (hcreates : changes.any ietf_nat.creates = false) :
    ¬ (nat_leave (nat_commit env (ended env cleared w changes))).Same
      (nat_leave (nat_commit env (ended env { cleared with create := true } w changes))) := by
  intro hsame
  have hcreate : (ended env cleared w changes).create = false := by
    rw [ended_create, hcreates]
    rfl
  have hflag : (ended env { cleared with create := true } w changes).create = true := ended_create _ _ _ _
  have houtcome := hsame.outcome
  have hcalls := hsame.calls
  rw [(nat_commit_calls env _).1, (nat_commit_calls env _).1, hcreate, hflag] at houtcome
  rw [(nat_commit_calls env _).2, (nat_commit_calls env _).2, hcreate, hflag] at hcalls
  cases hmapping : (ended env { cleared with create := true } w changes).builder.mapping with
  | none => simp [hmapping] at houtcome
  | some pair =>
    have hmade : (ended env cleared w changes).world.calls =
        (ended env { cleared with create := true } w changes).world.calls := by
      simp [ended, loop_start, nat_start]
    rw [hmade, List.append_cancel_left_eq, hmapping] at hcalls
    cases hremove : (ended env cleared w changes).remove <;> simp [hremove] at hcalls

theorem nat_cb_determined_iff : Determined (nat_mapping_table_config_cb env) (verify changes) w ↔
    (∃ change ∈ changes, ietf_nat.accepts env.text change = false) ∨ changes.any ietf_nat.creates = true := by
  rcases accepted_or_split (ietf_nat.accepts env.text) changes with
    haccepts | ⟨before, change, after, rfl, haccepts, hrefused⟩
  · have hnone : ¬ ∃ change ∈ changes, ietf_nat.accepts env.text change = false := by simpa using haccepts
    have hrun (uninit : Uninit) : nat_mapping_table_config_cb env uninit (verify changes) w =
        nat_leave (nat_commit env (ended env uninit w changes)) := nat_cb_accepted haccepts
    simp only [Determined, hrun, hnone, false_or]
    constructor
    · intro hsame
      by_contra hcreates
      exact nat_commit_not_determined (by simpa using hcreates) (hsame cleared _)
    · exact fun hcreates uninit uninit' => nat_commit_determined uninit uninit' hcreates
  · refine iff_of_true (fun uninit uninit' => ?_) (.inl ⟨change, by simp, hrefused⟩)
    obtain ⟨houtcome, hsame, hcalls⟩ := @nat_cb_refused env uninit w _ after _ haccepts hrefused
    obtain ⟨houtcome', hsame', hcalls'⟩ := @nat_cb_refused env uninit' w _ after _ haccepts hrefused
    exact ⟨houtcome.trans houtcome'.symm, hcalls.trans hcalls'.symm, hsame.trans hsame'.symm⟩

end mappings

/-- The outcome does not depend on what the variables held exactly when the
    changes cannot be read; or some change ends the loop; or the variables play
    no part in what the changes make the callback do. -/
theorem callbacks_determined_iff (env : Env) (iter_rc : sr_error_t) (changes : List change_t) (w : World) :
    (Determined (ietf_interface_create_cb env) { event := .SR_EV_VERIFY, iter_rc, changes } w ↔
      iter_rc ≠ .SR_ERR_OK ∨ (∃ change ∈ changes, accepts env w.om change = false) ∨ Settled w changes) ∧
    (Determined (openconfig_interfaces.oc_interfaces_config_cb env) { event := .SR_EV_VERIFY, iter_rc, changes } w ↔
      iter_rc ≠ .SR_ERR_OK ∨ (∃ change ∈ changes, openconfig_interfaces.shared env w.om change = false) ∨
        Settled w changes) ∧
    (Determined (ietf_nat.nat_mapping_table_config_cb env) { event := .SR_EV_VERIFY, iter_rc, changes } w ↔
      iter_rc ≠ .SR_ERR_OK ∨ (∃ change ∈ changes, ietf_nat.accepts env.text change = false) ∨
        changes.any ietf_nat.creates = true) := by
  by_cases hiter : iter_rc = .SR_ERR_OK
  · subst hiter
    simp only [ne_eq, not_true_eq_false, false_or]
    exact ⟨create_cb_determined_iff, config_cb_determined_iff, nat_cb_determined_iff⟩
  · have hcreate (uninit : Uninit) :
        ietf_interface_create_cb env uninit { event := .SR_EV_VERIFY, iter_rc, changes } w =
        { outcome := .ok .SR_ERR_OPERATION_FAILED, world := w.sr_free_change_iter .null } := by
      simp [ietf_interface_create_cb, hiter]
    have hconfig (uninit : Uninit) :
        openconfig_interfaces.oc_interfaces_config_cb env uninit { event := .SR_EV_VERIFY, iter_rc, changes } w =
          { outcome := .ok .SR_ERR_OK, world := w.sr_free_change_iter .null } := by
      simp [openconfig_interfaces.oc_interfaces_config_cb, hiter]
    have hnat (uninit : Uninit) :
        ietf_nat.nat_mapping_table_config_cb env uninit { event := .SR_EV_VERIFY, iter_rc, changes } w =
          { outcome := .ok iter_rc, world := w.sr_free_change_iter .indeterminate } := by
      simp [ietf_nat.nat_mapping_table_config_cb, hiter, ietf_nat.nat_leave, ietf_nat.nat_start, World.sr_free_val]
    refine ⟨iff_of_true (fun _ _ => ?_) (.inl hiter), iff_of_true (fun _ _ => ?_) (.inl hiter),
      iff_of_true (fun _ _ => ?_) (.inl hiter)⟩
    · rw [hcreate, hcreate]
      exact ⟨rfl, rfl, .refl _⟩
    · rw [hconfig, hconfig]
      exact ⟨rfl, rfl, .refl _⟩
    · rw [hnat, hnat]
      exact ⟨rfl, rfl, .refl _⟩

/-- A new interface without an `enabled` leaf takes whatever state the builder
    held. -/
theorem creation_not_determined :
    ¬ Determined (ietf_interface_create_cb counting)
      (verify [.created (name_leaf "host-vpp1"), .created (type_leaf "host-vpp1")]) World.empty := by
  intro hsame
  have hcalls := (hsame cleared { cleared with m_state := true }).calls
  exact absurd hcalls (by decide)

end sweetcomb
