import Sweetcomb.Ietf.State
import Sweetcomb.Openconfig.State

namespace sweetcomb

/-- The status for a flag. -/
def status (up down : String) (interface : sw_interface_details) (flag : UInt32) : state_data_t :=
  .SR_ENUM_T (if interface.has flag then up else down)

/-- A group of five values that tells the flags of a record bit by bit. -/
def status_group (xpath : xpath_t) (interface : sw_interface_details) (index : Int32)
    (phys_address speed : state_data_t) : List state_val_t :=
  let entry := entry_of xpath "name" interface.interface_name
  [{ xpath := leaf_of entry "admin-status", data := status "up" "down" interface IF_STATUS_API_FLAG_ADMIN_UP },
   { xpath := leaf_of entry "oper-status", data := status "up" "down" interface IF_STATUS_API_FLAG_LINK_UP },
   { xpath := leaf_of entry "phys-address", data := phys_address },
   { xpath := leaf_of entry "if-index", data := .SR_INT32_T index },
   { xpath := leaf_of entry "speed", data := speed }]

/-- The seven values of OpenConfig, with the flags told bit by bit. -/
def status_reply (interface : sw_interface_details) (name type mtu ifindex : state_val_t) : List state_val_t :=
  let root := openconfig_interfaces.xpath_root interface.interface_name
  [name, type, mtu,
   { xpath := leaf_of root "enabled", data := .SR_BOOL_T (interface.has IF_STATUS_API_FLAG_ADMIN_UP) },
   ifindex,
   { xpath := leaf_of root "admin-status", data := status "UP" "DOWN" interface IF_STATUS_API_FLAG_ADMIN_UP },
   { xpath := leaf_of root "oper-status", data := status "UP" "DOWN" interface IF_STATUS_API_FLAG_LINK_UP }]

/-- One group for each record, in the order of the dump, with an index in the
    range of its leaf, and different indices for different interfaces. -/
def Rendered (xpath : xpath_t) (vpp : List sw_interface_details) (outcome : Except state_fault_t state_reply) : Prop :=
  ∃ (group : sw_interface_details → List state_val_t) (index : sw_interface_details → Int32),
    outcome = .ok { rc := .SR_ERR_OK, values := (vpp.flatMap group).map some } ∧
      (∀ interface ∈ vpp, (1 ≤ (index interface).toInt ∧ (index interface).toInt ≤ 2147483647) ∧
        ∃ phys_address speed, group interface = status_group xpath interface (index interface) phys_address speed) ∧
      ∀ first ∈ vpp, ∀ second ∈ vpp, first.sw_if_index ≠ second.sw_if_index → index first ≠ index second

def Reported (interface : sw_interface_details) (outcome : Except state_fault_t state_reply) : Prop :=
  ∃ name type mtu ifindex, outcome =
    .ok { rc := .SR_ERR_OK, values := (status_reply interface name type mtu ifindex).map some }

/-- A record whose flags word is the administrative bit alone or nothing, with a
    positive index. -/
structure sw_interface_details.Plain (interface : sw_interface_details) : Prop where
  flags : interface.flags = 0 ∨ interface.flags = IF_STATUS_API_FLAG_ADMIN_UP
  index : 1 ≤ interface.sw_if_index.toNat ∧ interface.sw_if_index.toNat ≤ 2147483647

variable {xpath : xpath_t} {vpp : List sw_interface_details} {interface : sw_interface_details}

theorem toInt32_range (index : UInt32) :
    (1 ≤ index.toInt32.toInt ∧ index.toInt32.toInt ≤ 2147483647) ↔ 1 ≤ index.toNat ∧ index.toNat ≤ 2147483647 := by
  have hvalue : index.toInt32.toInt = index.toBitVec.toInt := rfl
  have hbits : index.toBitVec.toNat = index.toNat := rfl
  have hbound := index.toNat_lt
  rw [hvalue, BitVec.toInt_eq_toNat_cond, hbits]
  split <;> omega

theorem toInt32_injective : Function.Injective UInt32.toInt32 := by
  intro first second h
  rw [← first.toUInt32_toInt32, h, second.toUInt32_toInt32]

/-- Flags of which at most the administrative bit is set are read as one word
    for what they say bit by bit. -/
theorem has_of_plain (hplain : interface.flags = 0 ∨ interface.flags = IF_STATUS_API_FLAG_ADMIN_UP) :
    (interface.has IF_STATUS_API_FLAG_ADMIN_UP = true ↔ interface.flags = IF_STATUS_API_FLAG_ADMIN_UP) ∧
      (interface.has IF_STATUS_API_FLAG_LINK_UP = true ↔ interface.flags = IF_STATUS_API_FLAG_LINK_UP) ∧
      (interface.has IF_STATUS_API_FLAG_ADMIN_UP = true ↔ interface.flags ≠ 0) := by
  unfold sw_interface_details.has
  rcases hplain with hflags | hflags <;> rw [hflags] <;> decide

/-- Groups of equal sizes are told apart by the list they make together. -/
theorem flatMap_inj_on {first second : sw_interface_details → List state_val_t}
    (hlength : ∀ interface ∈ vpp, (first interface).length = (second interface).length)
    (h : vpp.flatMap first = vpp.flatMap second) : ∀ interface ∈ vpp, first interface = second interface := by
  induction vpp with
  | nil => simp
  | cons head tail ih =>
    rw [List.forall_mem_cons] at hlength ⊢
    rw [List.flatMap_cons, List.flatMap_cons] at h
    obtain ⟨hhead, htail⟩ := List.append_inj h hlength.1
    exact ⟨hhead, ih hlength.2 htail⟩

/-- The callback's group is the group of a plain record. -/
theorem rendered_of_plain (hplain : interface.flags = 0 ∨ interface.flags = IF_STATUS_API_FLAG_ADMIN_UP) :
    ietf_interface.rendered xpath interface = status_group xpath interface interface.sw_if_index.toInt32
      (.SR_STRING_T (ietf_interface.phys_address interface.l2_address))
      (.SR_UINT64_T interface.link_speed.toUInt64) := by
  simp [ietf_interface.rendered, status_group, status, has_of_plain hplain]

theorem reply_of_plain (hplain : interface.flags = 0 ∨ interface.flags = IF_STATUS_API_FLAG_ADMIN_UP) :
    let root := openconfig_interfaces.xpath_root interface.interface_name
    openconfig_interfaces.rendered root interface = status_reply interface
      ⟨leaf_of root "name", .SR_STRING_T interface.interface_name⟩
      ⟨leaf_of root "type", .SR_IDENTITYREF_T "ianaift:ethernetCsmacd"⟩
      ⟨leaf_of root "mtu", .SR_UINT16_T interface.link_mtu⟩
      ⟨leaf_of root "ifindex", .SR_UINT32_T interface.sw_if_index⟩ := by
  obtain ⟨hadmin, hoper, henabled⟩ := has_of_plain hplain
  have hbool : decide (interface.flags ≠ 0) = interface.has IF_STATUS_API_FLAG_ADMIN_UP :=
    Bool.eq_iff_iff.mpr (by rw [decide_eq_true_iff, henabled])
  simp only [openconfig_interfaces.rendered, status_reply, status, hadmin, hoper, hbool]

theorem status_group_index {index : Int32} {phys_address speed : state_data_t}
    (h : ietf_interface.rendered xpath interface = status_group xpath interface index phys_address speed) :
    interface.sw_if_index.toInt32 = index := by
  simp only [ietf_interface.rendered, status_group, List.cons.injEq, state_val_t.mk.injEq,
    state_data_t.SR_INT32_T.injEq] at h
  exact h.2.2.2.1.2

theorem ietf_rendered_iff (hnode : sr_xpath_node_name_eq xpath "interface" = true) :
    Rendered xpath vpp (ietf_interface.ietf_interface_state_cb vpp .SR_ERR_OK xpath) ↔
      ∀ interface ∈ vpp, (1 ≤ interface.sw_if_index.toNat ∧ interface.sw_if_index.toNat ≤ 2147483647) ∧
        ∃ phys_address speed, ietf_interface.rendered xpath interface =
          status_group xpath interface interface.sw_if_index.toInt32 phys_address speed := by
  rw [ietf_interface.ietf_interface_state_cb_interface hnode]
  constructor
  · rintro ⟨group, index, houtcome, hgroup, _⟩
    simp only [Except.ok.injEq, state_reply.mk.injEq, true_and] at houtcome
    have hsame := List.map_injective_iff.mpr (Option.some_injective _) houtcome
    have hlength : ∀ interface ∈ vpp, (ietf_interface.rendered xpath interface).length = (group interface).length := by
      intro interface hmem
      obtain ⟨_, phys_address, speed, hvalues⟩ := hgroup interface hmem
      rw [hvalues]
      rfl
    intro interface hmem
    obtain ⟨hrange, phys_address, speed, hvalues⟩ := hgroup interface hmem
    have hrendered := (flatMap_inj_on hlength hsame interface hmem).trans hvalues
    rw [status_group_index hrendered]
    rw [← status_group_index hrendered] at hrange
    exact ⟨(toInt32_range _).mp hrange, phys_address, speed, hrendered⟩
  · intro hall
    refine ⟨ietf_interface.rendered xpath, fun interface => interface.sw_if_index.toInt32, rfl, ?_, ?_⟩
    · intro interface hmem
      exact ⟨(toInt32_range _).mpr (hall interface hmem).1, (hall interface hmem).2⟩
    · intro first _ second _ hne hindex
      exact hne (toInt32_injective hindex)

/-- The callback answers for a record that stands alone with its own values. -/
theorem oc_interfaces_state_cb_single (interface : sw_interface_details) :
    openconfig_interfaces.oc_interfaces_state_cb [interface] .SR_ERR_OK
        (openconfig_interfaces.request interface.interface_name) =
      .ok {
        rc := .SR_ERR_OK
        values := (openconfig_interfaces.rendered (openconfig_interfaces.xpath_root interface.interface_name)
          interface).map some } := by
  rw [openconfig_interfaces.oc_interfaces_state_cb_named (openconfig_interfaces.request_key _) interface.named]
  simp

/-- The reply is right about a record exactly when its flags word is the
    administrative bit alone or nothing. -/
theorem oc_reported_iff (interface : sw_interface_details) :
    Reported interface (openconfig_interfaces.oc_interfaces_state_cb [interface] .SR_ERR_OK
        (openconfig_interfaces.request interface.interface_name)) ↔
      interface.flags = 0 ∨ interface.flags = IF_STATUS_API_FLAG_ADMIN_UP := by
  rw [oc_interfaces_state_cb_single]
  constructor
  · rintro ⟨name, type, mtu, ifindex, houtcome⟩
    simp only [Except.ok.injEq, state_reply.mk.injEq, true_and] at houtcome
    have hsame := List.map_injective_iff.mpr (Option.some_injective _) houtcome
    simp only [openconfig_interfaces.rendered, status_reply, status, List.cons.injEq, state_val_t.mk.injEq,
      state_data_t.SR_BOOL_T.injEq, state_data_t.SR_ENUM_T.injEq, true_and, and_true] at hsame
    obtain ⟨_, _, _, henabled, _, hadmin, _⟩ := hsame
    by_cases hzero : interface.flags = 0
    · exact .inl hzero
    · have hhas : interface.has IF_STATUS_API_FLAG_ADMIN_UP = true := by
        rw [← henabled]
        simp [hzero]
      rw [hhas, if_pos rfl] at hadmin
      by_contra hplain
      rw [if_neg fun hword => hplain (.inr hword)] at hadmin
      exact absurd hadmin (by decide)
  · intro hplain
    rw [reply_of_plain hplain]
    exact ⟨_, _, _, _, rfl⟩

/-- Both callbacks tell the flags bit by bit, and the index in its range,
    exactly when every record is plain. -/
theorem status_rendered_iff (hnode : sr_xpath_node_name_eq xpath "interface" = true) :
    (Rendered xpath vpp (ietf_interface.ietf_interface_state_cb vpp .SR_ERR_OK xpath) ∧
      ∀ interface ∈ vpp, Reported interface (openconfig_interfaces.oc_interfaces_state_cb [interface] .SR_ERR_OK
        (openconfig_interfaces.request interface.interface_name))) ↔
    ∀ interface ∈ vpp, interface.Plain := by
  rw [ietf_rendered_iff hnode]
  constructor
  · rintro ⟨hietf, hoc⟩ interface hmem
    exact ⟨(oc_reported_iff interface).mp (hoc interface hmem), (hietf interface hmem).1⟩
  · intro hall
    refine ⟨fun interface hmem =>
      ⟨(hall interface hmem).index, _, _, rendered_of_plain (hall interface hmem).flags⟩, ?_⟩
    intro interface hmem
    exact (oc_reported_iff interface).mpr (hall interface hmem).flags

/-- The path of the subscription. -/
def interfaces_state : xpath_t :=
  [{ name := "interfaces-state" }, { name := "interface" }]

theorem status_rendered_host_vpp1 :
    Rendered interfaces_state [host_interface "host-vpp1" 1 1 (by decide)]
        (ietf_interface.ietf_interface_state_cb [host_interface "host-vpp1" 1 1 (by decide)] .SR_ERR_OK
          interfaces_state) ∧
      ∀ interface ∈ [host_interface "host-vpp1" 1 1 (by decide)],
        Reported interface (openconfig_interfaces.oc_interfaces_state_cb [interface] .SR_ERR_OK
          (openconfig_interfaces.request interface.interface_name)) := by
  refine (status_rendered_iff (by decide)).mpr fun interface hmem => ?_
  obtain rfl := List.mem_singleton.mp hmem
  exact ⟨.inr rfl, by decide⟩

/-- An interface of which the link is up as well is shown as down. -/
theorem status_not_rendered_of_link_up :
    ¬ Rendered interfaces_state [host_interface "host-vpp1" 1 3 (by decide)]
      (ietf_interface.ietf_interface_state_cb [host_interface "host-vpp1" 1 3 (by decide)] .SR_ERR_OK
        interfaces_state) := by
  intro hrendered
  obtain ⟨_, phys_address, speed, hvalues⟩ :=
    (ietf_rendered_iff (by decide)).mp hrendered _ (List.mem_singleton_self _)
  have hadmin := congrArg state_val_t.data (List.cons.inj hvalues).1
  exact absurd hadmin (by decide)

end sweetcomb
