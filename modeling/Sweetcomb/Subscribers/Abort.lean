import Sweetcomb.Ietf.Interface.Entry
import Sweetcomb.Refcount
import Sweetcomb.Commit
import Sweetcomb.Subscribers

open keyed_store sweetcomb.ietf_interface

namespace sweetcomb

/-- A call that succeeds has nothing to do in the state that it meets. -/
def subscriber_t.NothingToDo (subscriber : subscriber_t) (env : Env) (uninit : Uninit) (w : World)
    (changes : List change_t) : Prop :=
  match subscriber with
  | .ietf_interface_create_cb => ietf_interface.NothingToDo uninit w changes
  | .ietf_interface_ipv46_address_change_cb => Neutral w.om (operations env w changes)
  | .nat_mapping_table_config_cb => ietf_nat.NothingToDo env.text uninit w changes
  | .oc_interfaces_config_cb => ietf_interface.NothingToDo uninit w changes

section verify

variable {subscriber : subscriber_t} {env : Env} {uninit : Uninit} {w : World} {iter_rc : sr_error_t}
  {changes : List change_t}

theorem subscriber_t.verify_same_iff
    (hok : (subscriber.call env uninit { event := .SR_EV_VERIFY, iter_rc, changes } w).outcome = .ok .SR_ERR_OK) :
    (subscriber.call env uninit { event := .SR_EV_VERIFY, iter_rc, changes } w).world.Same w ↔
      (iter_rc = .SR_ERR_OK → subscriber.NothingToDo env uninit w changes) := by
  by_cases hiter : iter_rc = .SR_ERR_OK
  · subst hiter
    rw [forall_prop_of_true rfl]
    cases subscriber with
    | ietf_interface_create_cb => exact create_cb_same_iff hok
    | ietf_interface_ipv46_address_change_cb => exact address_cb_same_iff env changes w
    | nat_mapping_table_config_cb => exact ietf_nat.nat_cb_same_iff hok
    | oc_interfaces_config_cb => exact openconfig_interfaces.config_cb_same_iff hok
  · exact iff_of_true (subscriber.unread_same env uninit iter_rc changes w hiter) fun h => absurd h hiter

end verify

/-- An abort after a successful call restores the state exactly when that call
    had nothing to do, since no callback undoes anything on an abort. -/
theorem abort_restores_iff (subscriber : subscriber_t) {env : Env} {uninit uninit' : Uninit} {w : World}
    {iter_rc iter_rc' : sr_error_t} {changes : List change_t}
    (hok : (subscriber.call env uninit { event := .SR_EV_VERIFY, iter_rc, changes } w).outcome = .ok .SR_ERR_OK) :
    (subscriber.call env uninit' { event := .SR_EV_ABORT, iter_rc := iter_rc', changes }
        (subscriber.call env uninit { event := .SR_EV_VERIFY, iter_rc, changes } w).world).world.Same w ↔
      (iter_rc = .SR_ERR_OK → subscriber.NothingToDo env uninit w changes) := by
  rw [← subscriber_t.verify_same_iff hok]
  exact (subscriber.abort_same env uninit' iter_rc' changes _).congr w

section samples

/-- One ethernet interface, in the given state. -/
def one_interface (enabled : Bool) : World :=
  { World.empty with
    om := {("host-vpp1", .interface "host-vpp1" (ethernet enabled))}
    instances := fun _ => ethernet enabled }

end samples

/-- Enabling an interface that is up needs no rollback. -/
theorem abort_restores_enabled :
    (subscriber_t.ietf_interface_create_cb.call counting cleared
      { event := .SR_EV_ABORT, changes := interface_changes (.modified "host-vpp1" false true) }
      (subscriber_t.ietf_interface_create_cb.call counting cleared
        (verify (interface_changes (.modified "host-vpp1" false true))) (one_interface true)).world).world.Same
      (one_interface true) := by
  refine (abort_restores_iff .ietf_interface_create_cb (by decide)).mpr fun _ => ?_
  have hwritten : written cleared (one_interface true) (interface_changes (.modified "host-vpp1" false true)) =
      some ("host-vpp1", ethernet true) := by decide
  simp only [subscriber_t.NothingToDo, ietf_interface.NothingToDo, hwritten]
  refine ⟨⟨by simp [one_interface], by simp [one_interface], rfl⟩, fun name hname => ?_⟩
  simp [interface_changes, setsOf, sets, enabled_leaf, hname.symm]

/-- What the verify phase has created is still there after the abort. -/
theorem abort_keeps_created :
    (subscriber_t.ietf_interface_create_cb.call counting cleared
        (verify (interface_changes (.created "host-vpp1" true))) World.empty).outcome = .ok .SR_ERR_OK ∧
      ¬ (subscriber_t.ietf_interface_create_cb.call counting cleared
        { event := .SR_EV_ABORT, changes := interface_changes (.created "host-vpp1" true) }
        (subscriber_t.ietf_interface_create_cb.call counting cleared
          (verify (interface_changes (.created "host-vpp1" true))) World.empty).world).world.Same World.empty :=
  ⟨by decide, fun hsame => absurd hsame.om (by decide)⟩

end sweetcomb
