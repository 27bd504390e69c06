import Sweetcomb.Commit
import Sweetcomb.Ietf.Interface.Entry
import Sweetcomb.Refcount
import Sweetcomb.Subscribers

open keyed_store sweetcomb.ietf_interface

namespace sweetcomb

/-- A call that is rejected has done nothing before: the states set by the
    changes that were gone through are those that the interfaces have, or what was
    done to the bindings comes to nothing. The NAT callback does nothing before it
    is sure to succeed. -/
def subscriber_t.NothingDone (subscriber : subscriber_t) (env : Env) (w : World) (changes : List change_t) : Prop :=
  match subscriber with
  | .ietf_interface_create_cb => StatesKept w (changes.takeWhile (accepts env w.om))
  | .ietf_interface_ipv46_address_change_cb => Neutral w.om (operations env w changes)
  | .nat_mapping_table_config_cb => True
  | .oc_interfaces_config_cb => StatesKept w (changes.takeWhile (openconfig_interfaces.shared env w.om))

/-- A rejected call leaves no trace exactly when it has done nothing. -/
theorem rejected_leaves_no_trace_iff (subscriber : subscriber_t) {env : Env} {uninit : Uninit} {w : World}
    {iter_rc rc : sr_error_t} {changes : List change_t}
    (houtcome : (subscriber.call env uninit { event := .SR_EV_VERIFY, iter_rc, changes } w).outcome = .ok rc)
    (hrejected : rc ≠ .SR_ERR_OK) :
    (subscriber.call env uninit { event := .SR_EV_VERIFY, iter_rc, changes } w).world.Same w ↔
      (iter_rc = .SR_ERR_OK → subscriber.NothingDone env w changes) := by
  by_cases hiter : iter_rc = .SR_ERR_OK
  · subst hiter
    rw [forall_prop_of_true rfl]
    cases subscriber with
    | ietf_interface_create_cb => exact create_cb_rejected_same_iff houtcome hrejected
    | ietf_interface_ipv46_address_change_cb => exact address_cb_same_iff env changes w
    | nat_mapping_table_config_cb =>
      refine iff_of_true (ietf_nat.nat_cb_rejected_same fun hok => hrejected ?_) trivial
      exact Except.ok.inj (houtcome.symm.trans hok)
    | oc_interfaces_config_cb => exact openconfig_interfaces.config_cb_rejected_same_iff houtcome hrejected
  · exact iff_of_true (subscriber.unread_same env uninit iter_rc changes w hiter) fun h => absurd h hiter

/-- A state set on an interface that does not exist is rejected at once. -/
theorem rejected_missing_leaves_no_trace :
    (subscriber_t.ietf_interface_create_cb.call counting cleared
      (verify (interface_changes (.modified "host-vpp1" false true))) World.empty).world.Same World.empty := by
  have houtcome : (subscriber_t.ietf_interface_create_cb.call counting cleared
      (verify (interface_changes (.modified "host-vpp1" false true))) World.empty).outcome =
        .ok .SR_ERR_OPERATION_FAILED := by decide
  refine (rejected_leaves_no_trace_iff .ietf_interface_create_cb houtcome (by decide)).mpr fun _ name => ?_
  have hnone : (interface_changes (.modified "host-vpp1" false true)).takeWhile
      (accepts counting World.empty.om) = [] := by decide
  rw [hnone]
  rfl

/-- The first of two interfaces is up although the second was rejected. -/
theorem rejected_leaves_state_set :
    let w : World := { World.empty with om := {("host-vpp1", .interface "host-vpp1" (ethernet false))} }
    let changes := interface_changes (.modified "host-vpp1" false true) ++
      interface_changes (.modified "local0" false true)
    let result := subscriber_t.ietf_interface_create_cb.call counting cleared (verify changes) w
    result.outcome = .ok .SR_ERR_OPERATION_FAILED ∧
      (w.instances "host-vpp1").state = .DOWN ∧ (result.world.instances "host-vpp1").state = .UP :=
  ⟨by decide, by decide, by decide⟩

end sweetcomb
