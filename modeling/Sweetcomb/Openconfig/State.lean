import Sweetcomb.Callback
import Sweetcomb.Oper

open buffer

namespace sweetcomb.openconfig_interfaces

/-- `/openconfig-interfaces:interfaces/interface[name='%s']/state`. -/
def xpath_root (intf_name : String) : xpath_t :=
  [{ name := "interfaces" }, { name := "interface", keys := [("name", intf_name)] }, { name := "state" }]

/-- The values `oc_interfaces_state_cb` takes from the reply. -/
def state_values (xpath_root : xpath_t) (val : Buffer state_val_t) (reply : sw_interface_details) :
    Except state_fault_t (Buffer state_val_t) := do
  let vals ← fill val (leaf_of xpath_root "name") (.SR_STRING_T reply.interface_name)
  let vals ← fill vals (leaf_of xpath_root "type") (.SR_IDENTITYREF_T "ianaift:ethernetCsmacd")
  let vals ← fill vals (leaf_of xpath_root "mtu") (.SR_UINT16_T reply.link_mtu)
  let vals ← fill vals (leaf_of xpath_root "enabled") (.SR_BOOL_T (reply.flags ≠ 0))
  let vals ← fill vals (leaf_of xpath_root "ifindex") (.SR_UINT32_T reply.sw_if_index)
  let vals ← fill vals (leaf_of xpath_root "admin-status")
    (.SR_ENUM_T (if reply.flags = IF_STATUS_API_FLAG_ADMIN_UP then "UP" else "DOWN"))
  fill vals (leaf_of xpath_root "oper-status")
    (.SR_ENUM_T (if reply.flags = IF_STATUS_API_FLAG_LINK_UP then "UP" else "DOWN"))

/-- `oc_interfaces_state_cb`. The first record of the dump is read without a
    look at how many there are. -/
def oc_interfaces_state_cb (vpp : List sw_interface_details) (new_values : sr_error_t) (xpath : xpath_t) :
    Except state_fault_t state_reply :=
  let vc := 7
  match sr_xpath_key_value xpath "interface" "name" with
  | none => .error .absent_key
  | some intf_name =>
    if intf_name.isEmpty then .ok { rc := .SR_ERR_INVAL_ARG }
    else
      match sr_new_values new_values vc with
      | .error rc => .ok { rc }
      | .ok vals =>
        match (({ m_name := intf_name } : interface_dump).write vpp).head? with
        | none => .error .end_of_dump
        | some reply => do
          let vals ← state_values (xpath_root intf_name) vals reply
          .ok { rc := .SR_ERR_OK, values := vals.contents }

/-- The path of a request for the state of an interface. -/
def request (intf_name : String) : xpath_t := xpath_root intf_name

/-- The seven values of a record. -/
def rendered (xpath_root : xpath_t) (reply : sw_interface_details) : List state_val_t :=
  [{ xpath := leaf_of xpath_root "name", data := .SR_STRING_T reply.interface_name },
   { xpath := leaf_of xpath_root "type", data := .SR_IDENTITYREF_T "ianaift:ethernetCsmacd" },
   { xpath := leaf_of xpath_root "mtu", data := .SR_UINT16_T reply.link_mtu },
   { xpath := leaf_of xpath_root "enabled", data := .SR_BOOL_T (reply.flags ≠ 0) },
   { xpath := leaf_of xpath_root "ifindex", data := .SR_UINT32_T reply.sw_if_index },
   { xpath := leaf_of xpath_root "admin-status"
     data := .SR_ENUM_T (if reply.flags = IF_STATUS_API_FLAG_ADMIN_UP then "UP" else "DOWN") },
   { xpath := leaf_of xpath_root "oper-status"
     data := .SR_ENUM_T (if reply.flags = IF_STATUS_API_FLAG_LINK_UP then "UP" else "DOWN") }]

variable {xpath : xpath_t} {intf_name : String} {vpp : List sw_interface_details}

/-- The values fit the array exactly. -/
theorem state_values_new (xpath_root : xpath_t) (reply : sw_interface_details) :
    ∃ vals, state_values xpath_root (Buffer.new 7) reply = .ok vals ∧
      vals.contents = (rendered xpath_root reply).map some :=
  ⟨_, rfl, rfl⟩

theorem request_key (intf_name : String) :
    sr_xpath_key_value (request intf_name) "interface" "name" = some intf_name := by
  simp [request, xpath_root, sr_xpath_key_value]

/-- The reply is made of the first interface whose name contains the name asked
    for. -/
theorem oc_interfaces_state_cb_named (hkey : sr_xpath_key_value xpath "interface" "name" = some intf_name)
    (hname : intf_name ≠ "") :
    oc_interfaces_state_cb vpp .SR_ERR_OK xpath =
      match vpp.find? fun interface => intf_name.toList <:+: interface.interface_name.toList with
      | none => .error .end_of_dump
      | some reply => .ok { rc := .SR_ERR_OK, values := (rendered (xpath_root intf_name) reply).map some } := by
  have hempty : intf_name.isEmpty = false := by simpa using hname
  simp only [oc_interfaces_state_cb, hkey, hempty, Bool.false_eq_true, if_false, sr_new_values, if_true,
    interface_dump.write_named hname, List.head?_filter]
  cases vpp.find? fun interface => intf_name.toList <:+: interface.interface_name.toList with
  | none => rfl
  | some reply =>
    obtain ⟨vals, hvals, hcontents⟩ := state_values_new (xpath_root intf_name) reply
    simp only [hvals, ok_bind, hcontents]

/-- A request is answered for the interface that was asked for: the callback
    returns, and every value it returns is of a record of that name. -/
def AnsweredFor (intf_name : String) (vpp : List sw_interface_details) (outcome : Except state_fault_t state_reply) :
    Prop :=
  ∃ reply, outcome = .ok reply ∧
    (reply.values = [] ∨
      ∃ interface ∈ vpp, interface.interface_name = intf_name ∧
        reply.values = (rendered (xpath_root intf_name) interface).map some)

/-- A record's values tell its name. -/
theorem rendered_name {xpath_root : xpath_t} {first second : sw_interface_details}
    (h : (rendered xpath_root first).map some = (rendered xpath_root second).map some) :
    first.interface_name = second.interface_name := by
  simp only [rendered, List.map_cons, List.cons.injEq, Option.some.injEq, state_val_t.mk.injEq,
    state_data_t.SR_STRING_T.injEq] at h
  exact h.1.2

/-- A request is answered for its own interface exactly when it stops before the
    dump, or when the first interface whose name contains the requested one has
    that very name. -/
theorem oc_interfaces_state_cb_answered_iff (vpp : List sw_interface_details) (new_values : sr_error_t)
    (intf_name : String) :
    AnsweredFor intf_name vpp (oc_interfaces_state_cb vpp new_values (request intf_name)) ↔
      intf_name = "" ∨ new_values ≠ .SR_ERR_OK ∨
        ∃ interface, vpp.find? (fun interface => intf_name.toList <:+: interface.interface_name.toList) =
          some interface ∧ interface.interface_name = intf_name := by
  have hkey := request_key intf_name
  by_cases hname : intf_name = ""
  · subst hname
    refine iff_of_true ⟨{ rc := .SR_ERR_INVAL_ARG }, ?_, .inl rfl⟩ (.inl rfl)
    simp [oc_interfaces_state_cb, hkey]
  by_cases halloc : new_values = .SR_ERR_OK
  · subst halloc
    rw [oc_interfaces_state_cb_named hkey hname]
    simp only [hname, ne_eq, not_true_eq_false, false_or]
    cases hfind : vpp.find? fun interface => intf_name.toList <:+: interface.interface_name.toList with
    | none =>
      constructor
      · rintro ⟨reply, houtcome, _⟩
        cases houtcome
      · rintro ⟨interface, hfound, _⟩
        cases hfound
    | some first =>
      constructor
      · rintro ⟨reply, houtcome, hvalues⟩
        cases houtcome
        rcases hvalues with hnothing | ⟨interface, _, hsame, hvalues⟩
        · cases hnothing
        · exact ⟨first, rfl, (rendered_name hvalues).trans hsame⟩
      · rintro ⟨interface, hfound, hsame⟩
        cases hfound
        exact ⟨_, rfl, .inr ⟨first, List.mem_of_find?_eq_some hfind, hsame, rfl⟩⟩
  · refine iff_of_true ⟨{ rc := new_values }, ?_, .inl rfl⟩ (.inr (.inl halloc))
    have hempty : intf_name.isEmpty = false := by simpa using hname
    simp [oc_interfaces_state_cb, hkey, hempty, sr_new_values, halloc]

/-- Two interfaces of which one name is the beginning of the other. -/
def vpp10_before_vpp1 : List sw_interface_details :=
  [host_interface "host-vpp10" 1 1 (by decide), host_interface "host-vpp1" 2 0 (by decide)]

theorem oc_interfaces_state_cb_of_another :
    ¬ AnsweredFor "host-vpp1" vpp10_before_vpp1
      (oc_interfaces_state_cb vpp10_before_vpp1 .SR_ERR_OK (request "host-vpp1")) := by
  rintro ⟨reply, houtcome, hvalues⟩
  rw [oc_interfaces_state_cb_named (request_key _) (by decide)] at houtcome
  cases houtcome
  rcases hvalues with hnothing | ⟨interface, _, hsame, hvalues⟩
  · cases hnothing
  · have hname := (rendered_name hvalues).trans hsame
    exact absurd hname (by decide)

end sweetcomb.openconfig_interfaces
