import Sweetcomb.Ietf.Address.Failures
import Sweetcomb.Subscribers.Handles
import Sweetcomb.Subscribers.Reads

open loop sweetcomb.ietf_interface

namespace sweetcomb

/-- The changes after which the loop of a callback goes on. -/
def subscriber_t.stays (env : Env) (om : Om) : subscriber_t → change_t → Bool
  | .ietf_interface_create_cb, change => accepts env om change
  | .ietf_interface_ipv46_address_change_cb, change => proceeds env change
  | .nat_mapping_table_config_cb, change => ietf_nat.accepts env.text change
  | .oc_interfaces_config_cb, change => openconfig_interfaces.shared env om change

/-- What a callback crashes on when its loop gets to a change at which it does not
    go on: a key that is read without having been found, a value that there is not,
    a prefix that cannot be read, out of which the exception escapes, or an IPv6
    netmask. -/
def subscriber_t.fatal (text : AddressText) : subscriber_t → change_t → Option fault_t
  | .ietf_interface_create_cb, .modified _ new_val =>
    if sr_xpath_node_name_eq new_val.xpath "enabled" ∧ sr_xpath_key_value new_val.xpath "interface" "name" = none then
      some .absent_key
    else none
  | .ietf_interface_create_cb, _ => none
  | .ietf_interface_ipv46_address_change_cb, change =>
    match if_name_of change with
    | none => some .absent_key
    | some if_name => if if_name.isEmpty then none else some .stack_overflow
  | .nat_mapping_table_config_cb, .created new_val =>
    if ietf_nat.address_leaves.any (sr_xpath_node_name_eq new_val.xpath) ∧
        utils_prefix_t.make_prefix text new_val.data.string_val = none then
      some .uncaught_exception
    else none
  | .nat_mapping_table_config_cb, _ => none
  | .oc_interfaces_config_cb, .deleted _ => some .absent_value
  | .oc_interfaces_config_cb, change => if openconfig_interfaces.keyOf change = none then some .absent_key else none

/-- A callback that reads its changes comes through them: its loop gets to no change
    that is fatal to it, and what follows the loop ends well. -/
def subscriber_t.Withstands (subscriber : subscriber_t) (env : Env) (uninit : Uninit) (w : World)
    (changes : List change_t) : Prop :=
  match changes.find? fun change => !subscriber.stays env w.om change with
  | some change => subscriber.fatal env.text change = none
  | none => subscriber.Ends env uninit w changes

/-- The NAT callback releases its iterator although it has got none. -/
def Unobtained (subscriber : subscriber_t) (delivery : delivery_t) : Prop :=
  subscriber = .nat_mapping_table_config_cb ∧ delivery.event = .SR_EV_VERIFY ∧ delivery.iter_rc ≠ .SR_ERR_OK

/-- Whether there is something to write is up to the changes, and not to the state. -/
theorem written_isSome (uninit : Uninit) (first second : World) (changes : List change_t) :
    (written uninit first changes).isSome = (written uninit second changes).isSome := by
  unfold written
  split
  · rfl
  · rw [Option.isSome_map, Option.isSome_map]

theorem completes_congr {env : Env} {uninit : Uninit} {first second : World} (hwrites : first.writes = second.writes)
    (changes : List change_t) : Completes env uninit first changes ↔ Completes env uninit second changes := by
  have hwritten := written_isSome uninit first second changes
  unfold Completes
  cases hfirst : written uninit first changes <;> cases hsecond : written uninit second changes <;>
    simp_all

/-- OM decides where a loop ends, and the result of a write how the call does. -/
theorem subscriber_t.withstands_congr {subscriber : subscriber_t} {env : Env} {uninit : Uninit} {first second : World}
    (hstays : subscriber.stays env first.om = subscriber.stays env second.om) (hwrites : first.writes = second.writes)
    (changes : List change_t) :
    subscriber.Withstands env uninit first changes ↔ subscriber.Withstands env uninit second changes := by
  have hends : subscriber.Ends env uninit first changes ↔ subscriber.Ends env uninit second changes := by
    cases subscriber with
    | ietf_interface_create_cb => exact or_congr_left (completes_congr hwrites changes)
    | oc_interfaces_config_cb => exact or_congr_left (completes_congr hwrites changes)
    | nat_mapping_table_config_cb => simp only [Ends, hwrites]
    | ietf_interface_ipv46_address_change_cb => exact Iff.rfl
  unfold Withstands
  rw [hstays]
  cases changes.find? fun change => !subscriber.stays env second.om change with
  | some change => exact Iff.rfl
  | none => exact hends

section loops

variable {env : Env} {om : Om} {change : change_t} {fault : fault_t}

theorem create_fatal_iff : accepts env om change = false ∧ refusal change = .error fault ↔
    subscriber_t.fatal env.text .ietf_interface_create_cb change = some fault := by
  cases change with
  | created new_val => simp [accepts, subscriber_t.fatal]
  | deleted old_val => simp [accepts, subscriber_t.fatal]
  | moved old_val new_val => simp [refusal, subscriber_t.fatal]
  | modified old_val new_val =>
    cases hkey : sr_xpath_key_value new_val.xpath "interface" "name" <;>
      cases hleaf : sr_xpath_node_name_eq new_val.xpath "enabled" <;>
      simp [accepts, refusal, subscriber_t.fatal, hkey, hleaf]

theorem config_fatal_iff : openconfig_interfaces.shared env om change = false ∧
    openconfig_interfaces.config_refusal change = .error fault ↔
      subscriber_t.fatal env.text .oc_interfaces_config_cb change = some fault := by
  cases change with
  | deleted old_val =>
    simp [openconfig_interfaces.shared, openconfig_interfaces.common, openconfig_interfaces.keyOf,
      openconfig_interfaces.config_refusal, subscriber_t.fatal]
  | created new_val | modified old_val new_val | moved old_val new_val =>
    cases hkey : sr_xpath_key_value new_val.xpath "interface" "name" with
    | none =>
      simp [openconfig_interfaces.shared, openconfig_interfaces.common, openconfig_interfaces.keyOf,
        openconfig_interfaces.config_refusal, subscriber_t.fatal, hkey]
    | some name =>
      by_cases hname : name = "" <;>
        simp [openconfig_interfaces.keyOf, openconfig_interfaces.config_refusal, subscriber_t.fatal, refusal, hkey,
          hname]

theorem nat_fatal_iff : ietf_nat.accepts env.text change = false ∧ ietf_nat.refusal change = .error fault ↔
    subscriber_t.fatal env.text .nat_mapping_table_config_cb change = some fault := by
  cases change <;> simp [ietf_nat.accepts, ietf_nat.refusal, subscriber_t.fatal]

theorem address_fatal_iff : stopped change = .error fault ↔
    subscriber_t.fatal env.text .ietf_interface_ipv46_address_change_cb change = some fault := by
  cases hname : if_name_of change with
  | none => simp [stopped, subscriber_t.fatal, hname]
  | some if_name => by_cases hempty : if_name = "" <;> simp [stopped, subscriber_t.fatal, hname, hempty]

/-- A code is returned where nothing is fatal. -/
theorem isOk_iff {outcome : Except fault_t sr_error_t} {fatal : Option fault_t}
    (hfatal : ∀ fault, outcome = .error fault ↔ fatal = some fault) : outcome.isOk = true ↔ fatal = none := by
  cases outcome with
  | ok rc =>
    refine iff_of_true rfl (Option.eq_none_iff_forall_ne_some.mpr fun fault hfault => ?_)
    cases (hfatal fault).mpr hfault
  | error fault => exact iff_of_false Bool.false_ne_true (by simp [(hfatal fault).mp rfl])

end loops

section calls

variable {env : Env} {uninit : Uninit} {changes : List change_t}

/-- The change at which a loop ends is one that it does not go on after. -/
theorem ends_congr {stays : change_t → Bool} {atChange atChange' : change_t → Prop} {atEnd : Prop}
    (hchange : ∀ change, stays change = false → (atChange change ↔ atChange' change)) :
    (match changes.find? fun change => !stays change with
      | some change => atChange change
      | none => atEnd) ↔
    match changes.find? fun change => !stays change with
      | some change => atChange' change
      | none => atEnd := by
  cases hfind : changes.find? fun change => !stays change with
  | none => exact Iff.rfl
  | some change => exact hchange change (by simpa using List.find?_some hfind)

theorem subscriber_t.read_survives_iff (subscriber : subscriber_t) (w : World) :
    (subscriber.read env uninit changes w).survives w = true ↔ subscriber.Withstands env uninit w changes := by
  cases subscriber with
  | ietf_interface_create_cb =>
    refine (create_run_disposes env uninit w changes).survives_iff_released.trans
      (create_run_released_iff.trans (ends_congr fun change hnot => isOk_iff fun fault => ?_))
    rw [← @create_fatal_iff env w.om, and_iff_right hnot]
  | oc_interfaces_config_cb =>
    refine (config_run_survives_iff env uninit w changes).trans
      (ends_congr fun change hnot => isOk_iff fun fault => ?_)
    rw [← @config_fatal_iff env w.om, and_iff_right hnot]
  | nat_mapping_table_config_cb =>
    refine (nat_cb_disposes env uninit w changes).survives_iff_released.trans
      (nat_cb_released_iff.trans (ends_congr fun change hnot => isOk_iff fun fault => ?_))
    rw [← nat_fatal_iff, and_iff_right hnot]
  | ietf_interface_ipv46_address_change_cb =>
    rw [subscriber_t.read, address_run_survives (.refl w) rfl, address_run_outcome]
    refine Iff.trans ?_ (@ends_congr changes (proceeds env) (fun change => (stopped change).isOk = true) _ True
      fun change _ => isOk_iff fun fault => address_fatal_iff)
    cases changes.find? fun change => !proceeds env change with
    | some last => exact Iff.rfl
    | none => exact iff_of_true rfl trivial

/-- A callback that does not get to its changes releases an iterator at most. -/
theorem subscriber_t.unread_frees {subscriber : subscriber_t} {delivery : delivery_t}
    (hunread : ¬ subscriber.Reads delivery) (w : World) :
    ∃ made : List free_t, (subscriber.call env uninit delivery w).world.frees = w.frees ++ made ∧ made.Nodup ∧
      (.change_iter .indeterminate ∈ made ↔ Unobtained subscriber delivery) := by
  obtain ⟨event, iter_rc, changes⟩ := delivery
  by_cases hevent : event = .SR_EV_VERIFY
  · subst hevent
    have hiter : iter_rc ≠ .SR_ERR_OK := fun hiter => hunread ⟨hiter, .inl rfl⟩
    cases subscriber with
    | nat_mapping_table_config_cb =>
      refine ⟨[.change_iter .indeterminate], ?_, List.nodup_singleton _, iff_of_true (by simp) ⟨rfl, rfl, hiter⟩⟩
      simp [call, ietf_nat.nat_mapping_table_config_cb, hiter, ietf_nat.nat_leave, ietf_nat.nat_start, free_vals]
    | ietf_interface_create_cb =>
      refine ⟨[.change_iter .null], ?_, List.nodup_singleton _, by simp [Unobtained]⟩
      simp [call, ietf_interface.ietf_interface_create_cb, hiter]
    | ietf_interface_ipv46_address_change_cb =>
      refine ⟨[.change_iter .null], ?_, List.nodup_singleton _, by simp [Unobtained]⟩
      simp [call, ietf_interface.ietf_interface_ipv46_address_change_cb, hiter]
    | oc_interfaces_config_cb =>
      refine ⟨[.change_iter .null], ?_, List.nodup_singleton _, by simp [Unobtained]⟩
      simp [call, openconfig_interfaces.oc_interfaces_config_cb, hiter]
  · have hobtained : ¬ Unobtained subscriber { event, iter_rc, changes } := fun hnone => hevent hnone.2.1
    cases subscriber with
    | nat_mapping_table_config_cb =>
      rw [call, ietf_nat.nat_mapping_table_config_cb, if_pos hevent]
      exact ⟨[], by simp, List.nodup_nil, iff_of_false List.not_mem_nil hobtained⟩
    | ietf_interface_create_cb =>
      rw [call, ietf_interface.ietf_interface_create_cb, if_pos hevent]
      exact ⟨[], by simp, List.nodup_nil, iff_of_false List.not_mem_nil hobtained⟩
    | oc_interfaces_config_cb =>
      rw [call, openconfig_interfaces.oc_interfaces_config_cb, if_pos hevent]
      exact ⟨[], by simp, List.nodup_nil, iff_of_false List.not_mem_nil hobtained⟩
    | ietf_interface_ipv46_address_change_cb =>
      by_cases happly : event = .SR_EV_APPLY
      · rw [call, ietf_interface.ietf_interface_ipv46_address_change_cb, if_pos happly]
        exact ⟨[], by simp, List.nodup_nil, iff_of_false List.not_mem_nil hobtained⟩
      · by_cases hiter : iter_rc = .SR_ERR_OK
        · obtain rfl : event = .SR_EV_ABORT := by
            cases event <;> simp_all [Reads]
          refine ⟨[.change_iter .obtained], ?_, List.nodup_singleton _, iff_of_false (by simp) hobtained⟩
          simp [call, ietf_interface.ietf_interface_ipv46_address_change_cb, hiter, address_leave]
        · refine ⟨[.change_iter .null], ?_, List.nodup_singleton _, iff_of_false (by simp) hobtained⟩
          simp [call, ietf_interface.ietf_interface_ipv46_address_change_cb, happly, hiter]

theorem subscriber_t.unread_survives_iff {subscriber : subscriber_t} {delivery : delivery_t}
    (hunread : ¬ subscriber.Reads delivery) (w : World) :
    (subscriber.call env uninit delivery w).survives w = true ↔ ¬ Unobtained subscriber delivery := by
  obtain ⟨made, hmade, hnodup, hindeterminate⟩ := @unread_frees env uninit subscriber delivery hunread w
  have hreturns : (subscriber.call env uninit delivery w).outcome.isOk = true := by
    rw [(subscriber_t.call_unread env uninit hunread w).1]
    rfl
  rw [survives_iff hmade, and_iff_right hreturns, and_iff_right hnodup, hindeterminate]

/-- The process goes on after a call exactly when the callback comes through the
    changes that it reads, and has an iterator to release. -/
theorem subscriber_t.call_survives_iff {subscriber : subscriber_t} {delivery : delivery_t} {w : World} :
    (subscriber.call env uninit delivery w).survives w = true ↔
      ¬ Unobtained subscriber delivery ∧
        (subscriber.Reads delivery → subscriber.Withstands env uninit w delivery.changes) := by
  by_cases hreads : subscriber.Reads delivery
  · have hobtained : ¬ Unobtained subscriber delivery := fun hnone => hnone.2.2 hreads.1
    rw [subscriber_t.call_reads env uninit hreads, subscriber.read_survives_iff, and_iff_right hobtained,
      forall_prop_of_true hreads]
  · rw [subscriber_t.unread_survives_iff hreads, and_iff_left fun hread => absurd hread hreads]

end calls

end sweetcomb
