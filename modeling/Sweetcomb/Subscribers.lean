import Sweetcomb.Ietf.Address.Requests
import Sweetcomb.Ietf.Interface.Trace
import Sweetcomb.Ietf.Nat.Trace
import Sweetcomb.Openconfig.Trace

open keyed_store sweetcomb.ietf_interface

namespace sweetcomb

/-- The configuration callbacks of the plugins. -/
inductive subscriber_t where
  | ietf_interface_create_cb
  | ietf_interface_ipv46_address_change_cb
  | nat_mapping_table_config_cb
  | oc_interfaces_config_cb
deriving DecidableEq

def subscriber_t.call (subscriber : subscriber_t) (env : Env) (uninit : Uninit) (delivery : delivery_t)
    (w : World) : cb_result :=
  match subscriber with
  | .ietf_interface_create_cb => ietf_interface.ietf_interface_create_cb env uninit delivery w
  | .ietf_interface_ipv46_address_change_cb =>
    ietf_interface.ietf_interface_ipv46_address_change_cb env delivery w
  | .nat_mapping_table_config_cb => ietf_nat.nat_mapping_table_config_cb env uninit delivery w
  | .oc_interfaces_config_cb => openconfig_interfaces.oc_interfaces_config_cb env uninit delivery w

section deliveries

variable (subscriber : subscriber_t) (env : Env) (uninit : Uninit) (iter_rc : sr_error_t) (changes : List change_t)
  (w : World)

/-- On an abort the address callback goes past its loop, and the others return
    at once. -/
theorem subscriber_t.abort_same :
    (subscriber.call env uninit { event := .SR_EV_ABORT, iter_rc, changes } w).world.Same w := by
  cases subscriber with
  | ietf_interface_create_cb => exact .refl w
  | nat_mapping_table_config_cb => exact .refl w
  | oc_interfaces_config_cb => exact .refl w
  | ietf_interface_ipv46_address_change_cb =>
    by_cases hiter : iter_rc = .SR_ERR_OK <;>
      simp only [call, ietf_interface.ietf_interface_ipv46_address_change_cb, hiter, reduceCtorEq, if_false, if_true,
        address_leave, ne_eq, not_true_eq_false, not_false_eq_true] <;>
      exact ⟨rfl, rfl, rfl⟩

/-- Without a change iterator nothing is read, and nothing done. -/
theorem subscriber_t.unread_same (hiter : iter_rc ≠ .SR_ERR_OK) :
    (subscriber.call env uninit { event := .SR_EV_VERIFY, iter_rc, changes } w).world.Same w := by
  cases subscriber with
  | ietf_interface_create_cb =>
    constructor <;> simp [call, ietf_interface.ietf_interface_create_cb, hiter]
  | nat_mapping_table_config_cb =>
    constructor <;> simp [call, ietf_nat.nat_mapping_table_config_cb, hiter, ietf_nat.nat_leave, ietf_nat.nat_start]
  | oc_interfaces_config_cb =>
    constructor <;> simp [call, openconfig_interfaces.oc_interfaces_config_cb, hiter]
  | ietf_interface_ipv46_address_change_cb =>
    constructor <;> simp [call, ietf_interface.ietf_interface_ipv46_address_change_cb, hiter]

end deliveries

end sweetcomb
