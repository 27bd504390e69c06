import Sweetcomb.Callback
import Sweetcomb.Oper

open buffer

namespace sweetcomb

/-- `counter_t` of VOM. -/
structure counter_t where
  packets : UInt64
  bytes : UInt64
deriving DecidableEq

/-- What VOM counts on an interface, as far as it is reported. -/
structure stats_t where
  m_rx : counter_t
  m_rx_unicast : counter_t
  m_rx_broadcast : counter_t
  m_rx_multicast : counter_t
  m_tx : counter_t
  m_tx_unicast : counter_t
  m_tx_broadcast : counter_t
  m_tx_multicast : counter_t
deriving DecidableEq

namespace ietf_interface

/-- The values that `interface_statistics_cb` takes from the counters. -/
def statistics_values (xpath : xpath_t) (val : Buffer state_val_t) (stats : stats_t) :
    Except state_fault_t (Buffer state_val_t) := do
  let val ← fill val (leaf_of xpath "in-octets") (.SR_UINT64_T stats.m_rx.bytes)
  let val ← fill val (leaf_of xpath "in-unicast-pkts") (.SR_UINT64_T stats.m_rx_unicast.packets)
  let val ← fill val (leaf_of xpath "in-broadcast-pkts") (.SR_UINT64_T stats.m_rx_broadcast.packets)
  let val ← fill val (leaf_of xpath "in-multicast-pkts") (.SR_UINT64_T stats.m_rx_multicast.packets)
  let val ← fill val (leaf_of xpath "out-octets") (.SR_UINT64_T stats.m_tx.bytes)
  let val ← fill val (leaf_of xpath "out-unicast-pkts") (.SR_UINT64_T stats.m_tx_unicast.packets)
  let val ← fill val (leaf_of xpath "out-broadcast-pkts") (.SR_UINT64_T stats.m_tx_broadcast.packets)
  fill val (leaf_of xpath "out-multicast-pkts") (.SR_UINT64_T stats.m_tx_multicast.packets)

/-- `interface_statistics_cb`. The values go below the path that is asked for. -/
def interface_statistics_cb (env : Env) (get_stats : String → stats_t) (om : Om) (new_values : sr_error_t)
    (xpath : xpath_t) : Except state_fault_t state_reply :=
  let vc := 8
  match sr_xpath_key_value xpath "interface" "name" with
  | none => .error .absent_key
  | some intf_name =>
    if intf_name.isEmpty then .ok { rc := .SR_ERR_INVAL_ARG }
    else if env.alive om intf_name then
      match sr_new_values new_values vc with
      | .error rc => .ok { rc }
      | .ok val => do
        let val ← statistics_values xpath val (get_stats intf_name)
        .ok { rc := .SR_ERR_OK, values := val.contents }
    else .ok { rc := .SR_ERR_OK }

/-- The eight values of an interface. -/
def statistics (xpath : xpath_t) (stats : stats_t) : List state_val_t :=
  [{ xpath := leaf_of xpath "in-octets", data := .SR_UINT64_T stats.m_rx.bytes },
   { xpath := leaf_of xpath "in-unicast-pkts", data := .SR_UINT64_T stats.m_rx_unicast.packets },
   { xpath := leaf_of xpath "in-broadcast-pkts", data := .SR_UINT64_T stats.m_rx_broadcast.packets },
   { xpath := leaf_of xpath "in-multicast-pkts", data := .SR_UINT64_T stats.m_rx_multicast.packets },
   { xpath := leaf_of xpath "out-octets", data := .SR_UINT64_T stats.m_tx.bytes },
   { xpath := leaf_of xpath "out-unicast-pkts", data := .SR_UINT64_T stats.m_tx_unicast.packets },
   { xpath := leaf_of xpath "out-broadcast-pkts", data := .SR_UINT64_T stats.m_tx_broadcast.packets },
   { xpath := leaf_of xpath "out-multicast-pkts", data := .SR_UINT64_T stats.m_tx_multicast.packets }]

/-- The values fit the array exactly. -/
theorem statistics_values_new (xpath : xpath_t) (stats : stats_t) :
    ∃ val, statistics_values xpath (Buffer.new 8) stats = .ok val ∧
      val.contents = (statistics xpath stats).map some :=
  ⟨_, rfl, rfl⟩

theorem interface_statistics_cb_eq (env : Env) (get_stats : String → stats_t) (om : Om) (new_values : sr_error_t)
    (xpath : xpath_t) : interface_statistics_cb env get_stats om new_values xpath =
      match sr_xpath_key_value xpath "interface" "name" with
      | none => .error .absent_key
      | some intf_name => .ok (
        if intf_name = "" then { rc := .SR_ERR_INVAL_ARG }
        else if env.alive om intf_name = false then { rc := .SR_ERR_OK }
        else if new_values ≠ .SR_ERR_OK then { rc := new_values }
        else { rc := .SR_ERR_OK, values := (statistics xpath (get_stats intf_name)).map some }) := by
  unfold interface_statistics_cb
  cases sr_xpath_key_value xpath "interface" "name" with
  | none => rfl
  | some intf_name =>
    obtain ⟨val, hval, hcontents⟩ := statistics_values_new xpath (get_stats intf_name)
    by_cases hname : intf_name = ""
    · simp [hname]
    · by_cases halloc : new_values = .SR_ERR_OK <;>
        cases halive : env.alive om intf_name <;> simp [hname, halloc, halive, sr_new_values, hval, hcontents]

end ietf_interface

namespace ietf_nat

/-- `nat_cap_state_cb`. Whatever the allocation reports, it is passed on as a lack
    of memory. -/
def nat_cap_state_cb (new_values : sr_error_t) (xpath : xpath_t) : Except state_fault_t state_reply :=
  let vc := 1
  match sr_new_values new_values vc with
  | .error _ => .ok { rc := .SR_ERR_NOMEM }
  | .ok val => do
    let val ← fill val (leaf_of xpath "static-mapping") (.SR_BOOL_T true)
    .ok { rc := .SR_ERR_OK, values := val.contents }

/-- What NAT is capable of. -/
def capabilities (xpath : xpath_t) : List state_val_t :=
  [{ xpath := leaf_of xpath "static-mapping", data := .SR_BOOL_T true }]

theorem nat_cap_state_cb_eq (new_values : sr_error_t) (xpath : xpath_t) : nat_cap_state_cb new_values xpath =
    .ok (if new_values ≠ .SR_ERR_OK then { rc := .SR_ERR_NOMEM }
      else { rc := .SR_ERR_OK, values := (capabilities xpath).map some }) := by
  by_cases halloc : new_values = .SR_ERR_OK
  · subst halloc
    rfl
  · simp [nat_cap_state_cb, sr_new_values, halloc]

end ietf_nat

end sweetcomb
