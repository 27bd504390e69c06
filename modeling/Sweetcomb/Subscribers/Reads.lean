import Sweetcomb.Subscribers

open sweetcomb.ietf_interface

namespace sweetcomb

/-- What a callback does once it reads its changes. -/
def subscriber_t.read (subscriber : subscriber_t) (env : Env) (uninit : Uninit) (changes : List change_t) (w : World) :
    cb_result :=
  match subscriber with
  | .ietf_interface_create_cb => create_run env (create_start uninit w) changes
  | .ietf_interface_ipv46_address_change_cb =>
    address_leave (changes.foldlM (address_round env) { iter := .obtained, world := w })
  | .nat_mapping_table_config_cb => ietf_nat.nat_mapping_table_config_cb env uninit (verify changes) w
  | .oc_interfaces_config_cb =>
    openconfig_interfaces.config_run env (openconfig_interfaces.config_start uninit w) changes

/-- A callback reads its changes on a verify, and the address callback also when
    its subscription is enabled. -/
def subscriber_t.Reads (subscriber : subscriber_t) (delivery : delivery_t) : Prop :=
  delivery.iter_rc = .SR_ERR_OK ∧
    (delivery.event = .SR_EV_VERIFY ∨
      subscriber = .ietf_interface_ipv46_address_change_cb ∧ delivery.event = .SR_EV_ENABLED)

section deliveries

variable {subscriber : subscriber_t} (env : Env) (uninit : Uninit) {delivery : delivery_t}

theorem subscriber_t.call_reads (hreads : subscriber.Reads delivery) (w : World) :
    subscriber.call env uninit delivery w = subscriber.read env uninit delivery.changes w := by
  obtain ⟨event, iter_rc, changes⟩ := delivery
  obtain ⟨rfl, hevent⟩ := hreads
  cases subscriber with
  | ietf_interface_create_cb =>
    obtain rfl : event = .SR_EV_VERIFY := by simpa using hevent
    exact create_cb_verify env uninit changes w
  | nat_mapping_table_config_cb =>
    obtain rfl : event = .SR_EV_VERIFY := by simpa using hevent
    rfl
  | oc_interfaces_config_cb =>
    obtain rfl : event = .SR_EV_VERIFY := by simpa using hevent
    exact openconfig_interfaces.config_cb_verify
  | ietf_interface_ipv46_address_change_cb =>
    have hevent : event = .SR_EV_VERIFY ∨ event = .SR_EV_ENABLED := by simpa using hevent
    rcases hevent with rfl | rfl <;> simp [call, read, ietf_interface.ietf_interface_ipv46_address_change_cb]

/-- How a callback ends that does not get to its changes. -/
def subscriber_t.unread_rc (delivery : delivery_t) : subscriber_t → sr_error_t
  | .ietf_interface_ipv46_address_change_cb =>
    if delivery.event = .SR_EV_APPLY then .SR_ERR_OK else delivery.iter_rc
  | .ietf_interface_create_cb => if delivery.event = .SR_EV_VERIFY then .SR_ERR_OPERATION_FAILED else .SR_ERR_OK
  | .nat_mapping_table_config_cb => if delivery.event = .SR_EV_VERIFY then delivery.iter_rc else .SR_ERR_OK
  | .oc_interfaces_config_cb => .SR_ERR_OK

/-- A delivery that is not read leaves every state as it is. -/
theorem subscriber_t.call_unread (hunread : ¬ subscriber.Reads delivery) (w : World) :
    (subscriber.call env uninit delivery w).outcome = .ok (subscriber.unread_rc delivery) ∧
      (subscriber.call env uninit delivery w).world.Same w := by
  obtain ⟨event, iter_rc, changes⟩ := delivery
  by_cases hevent : event = .SR_EV_VERIFY
  · subst hevent
    have hiter : iter_rc ≠ .SR_ERR_OK := fun hiter => hunread ⟨hiter, .inl rfl⟩
    refine ⟨?_, unread_same subscriber env uninit iter_rc changes w hiter⟩
    cases subscriber with
    | ietf_interface_create_cb => simp [call, unread_rc, ietf_interface.ietf_interface_create_cb, hiter]
    | ietf_interface_ipv46_address_change_cb =>
      simp [call, unread_rc, ietf_interface.ietf_interface_ipv46_address_change_cb, hiter]
    | nat_mapping_table_config_cb =>
      simp [call, unread_rc, ietf_nat.nat_mapping_table_config_cb, hiter, ietf_nat.nat_leave]
    | oc_interfaces_config_cb => simp [call, unread_rc, openconfig_interfaces.oc_interfaces_config_cb, hiter]
  · cases subscriber with
    | ietf_interface_create_cb =>
      rw [call, ietf_interface.ietf_interface_create_cb, if_pos hevent]
      exact ⟨by simp [unread_rc, hevent], .refl w⟩
    | nat_mapping_table_config_cb =>
      rw [call, ietf_nat.nat_mapping_table_config_cb, if_pos hevent]
      exact ⟨by simp [unread_rc, hevent], .refl w⟩
    | oc_interfaces_config_cb =>
      rw [call, openconfig_interfaces.oc_interfaces_config_cb, if_pos hevent]
      exact ⟨rfl, .refl w⟩
    | ietf_interface_ipv46_address_change_cb =>
      by_cases happly : event = .SR_EV_APPLY
      · rw [call, ietf_interface.ietf_interface_ipv46_address_change_cb, if_pos happly]
        exact ⟨by simp [unread_rc, happly], .refl w⟩
      · by_cases hiter : iter_rc = .SR_ERR_OK
        · obtain rfl : event = .SR_EV_ABORT := by
            cases event <;> simp_all [Reads]
          refine ⟨?_, abort_same _ env uninit iter_rc changes w⟩
          simp [call, unread_rc, ietf_interface.ietf_interface_ipv46_address_change_cb, hiter, address_leave]
        · rw [call, ietf_interface.ietf_interface_ipv46_address_change_cb, if_neg happly, if_pos hiter]
          exact ⟨by simp [unread_rc, happly], ⟨rfl, rfl, rfl⟩⟩

end deliveries

end sweetcomb
