import Mathlib.Data.List.Nodup
import Sweetcomb.Ietf.State
import Sweetcomb.Ietf.Statistics
import Sweetcomb.Openconfig.State

namespace sweetcomb

/-- The callbacks that sysrepo asks for operational state. -/
inductive state_subscriber_t where
  | ietf_interface_state_cb
  | interface_statistics_cb
  | nat_cap_state_cb
  | oc_interfaces_state_cb
deriving DecidableEq

/-- What the callbacks look at: the interfaces of VPP, and what VOM knows of its
    own. -/
structure oper_t where
  vpp : List sw_interface_details
  env : Env
  om : Om
  get_stats : String → stats_t

def state_subscriber_t.call (subscriber : state_subscriber_t) (oper : oper_t) (new_values : sr_error_t)
    (xpath : xpath_t) : Except state_fault_t state_reply :=
  match subscriber with
  | .ietf_interface_state_cb => ietf_interface.ietf_interface_state_cb oper.vpp new_values xpath
  | .interface_statistics_cb =>
    ietf_interface.interface_statistics_cb oper.env oper.get_stats oper.om new_values xpath
  | .nat_cap_state_cb => ietf_nat.nat_cap_state_cb new_values xpath
  | .oc_interfaces_state_cb => openconfig_interfaces.oc_interfaces_state_cb oper.vpp new_values xpath

/-- Every value that is counted has been written, and no two are of the same
    leaf. -/
structure state_reply.WellFormed (reply : state_reply) : Prop where
  written : ∀ value ∈ reply.values, value.isSome
  distinct : (reply.values.map (Option.map state_val_t.xpath)).Nodup

section replies

variable {rc : sr_error_t} {values : List state_val_t} {xpath : xpath_t}

theorem wellFormed_iff : ({ rc, values := values.map some } : state_reply).WellFormed ↔
    (values.map state_val_t.xpath).Nodup := by
  have hpaths : (values.map some).map (Option.map state_val_t.xpath) = (values.map state_val_t.xpath).map some := by
    simp
  constructor
  · rintro ⟨-, hdistinct⟩
    rw [hpaths] at hdistinct
    exact List.Nodup.of_map some hdistinct
  · intro hdistinct
    refine ⟨by simp, ?_⟩
    rw [hpaths]
    exact hdistinct.map (Option.some_injective _)

theorem wellFormed_nothing (rc : sr_error_t) : ({ rc } : state_reply).WellFormed :=
  ⟨by simp, List.nodup_nil⟩

theorem leaf_of_inj {first second : xpath_t} {leaf leaf' : String} :
    leaf_of first leaf = leaf_of second leaf' ↔ first = second ∧ leaf = leaf' := by
  constructor
  · intro h
    obtain ⟨hparent, hleaf⟩ := List.append_inj' h rfl
    exact ⟨hparent, by simpa using hleaf⟩
  · rintro ⟨rfl, rfl⟩
    rfl

/-- Leaves of one parent are told apart by their names. -/
theorem leaves_nodup (parent : xpath_t) {leaves : List String} (hleaves : leaves.Nodup) :
    (leaves.map (leaf_of parent)).Nodup :=
  hleaves.map fun _ _ h => (leaf_of_inj.mp h).2

theorem entry_of_inj (hnode : sr_xpath_node_name_eq xpath "interface" = true) {key name name' : String} :
    entry_of xpath key name = entry_of xpath key name' ↔ name = name' := by
  cases hlast : xpath.getLast? with
  | none => simp [sr_xpath_node_name_eq, hlast] at hnode
  | some node => simp [entry_of, hlast]

theorem capabilities_nodup (xpath : xpath_t) : ((ietf_nat.capabilities xpath).map state_val_t.xpath).Nodup :=
  List.nodup_singleton _

theorem statistics_nodup (xpath : xpath_t) (stats : stats_t) :
    ((ietf_interface.statistics xpath stats).map state_val_t.xpath).Nodup := by
  have hleaves := @leaves_nodup xpath ["in-octets", "in-unicast-pkts", "in-broadcast-pkts", "in-multicast-pkts",
    "out-octets", "out-unicast-pkts", "out-broadcast-pkts", "out-multicast-pkts"] (by decide)
  exact hleaves

theorem oc_rendered_nodup (root : xpath_t) (interface : sw_interface_details) :
    ((openconfig_interfaces.rendered root interface).map state_val_t.xpath).Nodup := by
  have hleaves := @leaves_nodup root ["name", "type", "mtu", "enabled", "ifindex", "admin-status", "oper-status"]
    (by decide)
  exact hleaves

end replies

section ietf

variable {xpath : xpath_t} (hnode : sr_xpath_node_name_eq xpath "interface" = true)

/-- The paths of the values of a record. -/
theorem rendered_paths (interface : sw_interface_details) :
    (ietf_interface.rendered xpath interface).map state_val_t.xpath =
      ["admin-status", "oper-status", "phys-address", "if-index", "speed"].map
        (leaf_of (entry_of xpath "name" interface.interface_name)) := rfl

include hnode

/-- No leaf is reported twice exactly when no two interfaces have one name. -/
theorem ietf_paths_nodup_iff (vpp : List sw_interface_details) :
    ((vpp.flatMap (ietf_interface.rendered xpath)).map state_val_t.xpath).Nodup ↔
      (vpp.map sw_interface_details.interface_name).Nodup := by
  have hgroup (interface : sw_interface_details) :
      ((ietf_interface.rendered xpath interface).map state_val_t.xpath).Nodup := by
    rw [rendered_paths]
    exact leaves_nodup _ (by decide)
  have hdisjoint (first second : sw_interface_details) :
      List.Disjoint ((ietf_interface.rendered xpath first).map state_val_t.xpath)
        ((ietf_interface.rendered xpath second).map state_val_t.xpath) ↔
      first.interface_name ≠ second.interface_name := by
    rw [rendered_paths, rendered_paths]
    constructor
    · intro hdisjoint hname
      rw [hname] at hdisjoint
      exact hdisjoint (List.mem_map_of_mem (by simp)) (List.mem_map_of_mem (a := "speed") (by simp))
    · intro hname path hfirst hsecond
      obtain ⟨leaf, -, rfl⟩ := List.mem_map.mp hfirst
      obtain ⟨leaf', -, hpath⟩ := List.mem_map.mp hsecond
      exact hname ((entry_of_inj hnode).mp (leaf_of_inj.mp hpath).1).symm
  have hnames : (vpp.map sw_interface_details.interface_name).Nodup ↔
      vpp.Pairwise fun first second => first.interface_name ≠ second.interface_name := List.pairwise_map
  rw [List.map_flatMap, List.nodup_flatMap, hnames, and_iff_right fun interface _ => hgroup interface]
  exact List.Pairwise.iff fun {first second} => hdisjoint first second

end ietf

section calls

variable {oper : oper_t} {new_values : sr_error_t} {xpath : xpath_t}

theorem ietf_interface_state_cb_eq (vpp : List sw_interface_details) (new_values : sr_error_t) (xpath : xpath_t) :
    ietf_interface.ietf_interface_state_cb vpp new_values xpath = .ok (
      if sr_xpath_node_name_eq xpath "interface" = false then { rc := .SR_ERR_OK }
      else if new_values ≠ .SR_ERR_OK then { rc := new_values }
      else { rc := .SR_ERR_OK, values := (vpp.flatMap (ietf_interface.rendered xpath)).map some }) := by
  cases hnode : sr_xpath_node_name_eq xpath "interface" with
  | false => simp [ietf_interface.ietf_interface_state_cb, hnode]
  | true =>
    by_cases halloc : new_values = .SR_ERR_OK
    · subst halloc
      rw [ietf_interface.ietf_interface_state_cb_interface hnode]
      rfl
    · simp [ietf_interface.ietf_interface_state_cb, hnode, sr_new_values, halloc]

/-- The reply made of the first record of a dump, if there is one. -/
def first_rendered (intf_name : String) : Option sw_interface_details → Except state_fault_t state_reply
  | none => .error .end_of_dump
  | some reply => .ok
    { rc := .SR_ERR_OK
      values := (openconfig_interfaces.rendered (openconfig_interfaces.xpath_root intf_name) reply).map some }

theorem first_rendered_wellFormed {intf_name : String} {found : Option sw_interface_details} {reply : state_reply}
    (hreply : first_rendered intf_name found = .ok reply) : reply.WellFormed := by
  cases found with
  | none => cases hreply
  | some interface => exact Except.ok.inj hreply ▸ wellFormed_iff.mpr (oc_rendered_nodup _ _)

theorem first_rendered_error_iff {intf_name : String} {found : Option sw_interface_details} {fault : state_fault_t} :
    first_rendered intf_name found = .error fault ↔ fault = .end_of_dump ∧ found = none := by
  cases found <;> simp [first_rendered, @eq_comm _ state_fault_t.end_of_dump]

theorem oc_interfaces_state_cb_eq (vpp : List sw_interface_details) (new_values : sr_error_t) (xpath : xpath_t) :
    openconfig_interfaces.oc_interfaces_state_cb vpp new_values xpath =
      match sr_xpath_key_value xpath "interface" "name" with
      | none => .error .absent_key
      | some intf_name =>
        if intf_name = "" then .ok { rc := .SR_ERR_INVAL_ARG }
        else if new_values ≠ .SR_ERR_OK then .ok { rc := new_values }
        else first_rendered intf_name
          (vpp.find? fun interface => intf_name.toList <:+: interface.interface_name.toList) := by
  cases hkey : sr_xpath_key_value xpath "interface" "name" with
  | none => simp [openconfig_interfaces.oc_interfaces_state_cb, hkey]
  | some intf_name =>
    by_cases hname : intf_name = ""
    · simp [openconfig_interfaces.oc_interfaces_state_cb, hkey, hname]
    · by_cases halloc : new_values = .SR_ERR_OK
      · subst halloc
        rw [openconfig_interfaces.oc_interfaces_state_cb_named hkey hname]
        simp only [hname, if_false, ne_eq, not_true_eq_false]
        cases vpp.find? fun interface => intf_name.toList <:+: interface.interface_name.toList <;> rfl
      · simp [openconfig_interfaces.oc_interfaces_state_cb, hkey, hname, sr_new_values, halloc]

section reply

variable {reply : state_reply}

theorem ietf_state_wellFormed (hnames : (oper.vpp.map sw_interface_details.interface_name).Nodup)
    (hcall : state_subscriber_t.call .ietf_interface_state_cb oper new_values xpath = .ok reply) :
    reply.WellFormed := by
  rw [state_subscriber_t.call, ietf_interface_state_cb_eq, Except.ok.injEq] at hcall
  subst hcall
  split
  · exact wellFormed_nothing _
  · next hnode =>
    split
    · exact wellFormed_nothing _
    · exact wellFormed_iff.mpr ((ietf_paths_nodup_iff (by simpa using hnode) oper.vpp).mpr hnames)

theorem capabilities_wellFormed (hcall : state_subscriber_t.call .nat_cap_state_cb oper new_values xpath = .ok reply) :
    reply.WellFormed := by
  rw [state_subscriber_t.call, ietf_nat.nat_cap_state_cb_eq, Except.ok.injEq] at hcall
  subst hcall
  split
  · exact wellFormed_nothing _
  · exact wellFormed_iff.mpr (capabilities_nodup xpath)

theorem statistics_wellFormed
    (hcall : state_subscriber_t.call .interface_statistics_cb oper new_values xpath = .ok reply) :
    reply.WellFormed := by
  rw [state_subscriber_t.call, ietf_interface.interface_statistics_cb_eq] at hcall
  cases hkey : sr_xpath_key_value xpath "interface" "name" with
  | none => simp [hkey] at hcall
  | some intf_name =>
    simp only [hkey, Except.ok.injEq] at hcall
    subst hcall
    split
    · exact wellFormed_nothing _
    · split
      · exact wellFormed_nothing _
      · split
        · exact wellFormed_nothing _
        · exact wellFormed_iff.mpr (statistics_nodup xpath _)

theorem oc_state_wellFormed
    (hcall : state_subscriber_t.call .oc_interfaces_state_cb oper new_values xpath = .ok reply) :
    reply.WellFormed := by
  rw [state_subscriber_t.call, oc_interfaces_state_cb_eq] at hcall
  cases hkey : sr_xpath_key_value xpath "interface" "name" with
  | none => simp [hkey] at hcall
  | some intf_name =>
    simp only [hkey] at hcall
    split at hcall
    · exact Except.ok.inj hcall ▸ wellFormed_nothing _
    · split at hcall
      · exact Except.ok.inj hcall ▸ wellFormed_nothing _
      · exact first_rendered_wellFormed hcall

end reply

/-- Whatever the paths that are asked for and however allocations end, no reply is
    malformed exactly when VPP has no two interfaces of one name. -/
theorem replies_well_formed_iff : (∀ (subscriber : state_subscriber_t) (new_values : sr_error_t) (xpath : xpath_t),
    ∀ reply, subscriber.call oper new_values xpath = .ok reply → reply.WellFormed) ↔
      (oper.vpp.map sw_interface_details.interface_name).Nodup := by
  constructor
  · intro hall
    have hnode : sr_xpath_node_name_eq [{ name := "interface" }] "interface" = true := by decide
    have hreply := hall .ietf_interface_state_cb .SR_ERR_OK [{ name := "interface" }] _
      (ietf_interface.ietf_interface_state_cb_interface hnode)
    rwa [wellFormed_iff, ietf_paths_nodup_iff hnode] at hreply
  · intro hnames subscriber new_values xpath reply hcall
    cases subscriber with
    | ietf_interface_state_cb => exact ietf_state_wellFormed hnames hcall
    | nat_cap_state_cb => exact capabilities_wellFormed hcall
    | interface_statistics_cb => exact statistics_wellFormed hcall
    | oc_interfaces_state_cb => exact oc_state_wellFormed hcall

/-- Where a state callback crashes: on a key that is not in the path, and on a dump
    without a record. It never writes past its array. -/
theorem state_faults_iff {subscriber : state_subscriber_t} {fault : state_fault_t} :
    subscriber.call oper new_values xpath = .error fault ↔
      match subscriber with
      | .ietf_interface_state_cb => False
      | .nat_cap_state_cb => False
      | .interface_statistics_cb => sr_xpath_key_value xpath "interface" "name" = none ∧ fault = .absent_key
      | .oc_interfaces_state_cb =>
        match sr_xpath_key_value xpath "interface" "name" with
        | none => fault = .absent_key
        | some intf_name => intf_name ≠ "" ∧ new_values = .SR_ERR_OK ∧ fault = .end_of_dump ∧
          ∀ interface ∈ oper.vpp, ¬ intf_name.toList <:+: interface.interface_name.toList := by
  cases subscriber with
  | ietf_interface_state_cb => simp [state_subscriber_t.call, ietf_interface_state_cb_eq]
  | nat_cap_state_cb => simp [state_subscriber_t.call, ietf_nat.nat_cap_state_cb_eq]
  | interface_statistics_cb =>
    rw [state_subscriber_t.call, ietf_interface.interface_statistics_cb_eq]
    cases sr_xpath_key_value xpath "interface" "name" <;> simp [@eq_comm _ state_fault_t.absent_key]
  | oc_interfaces_state_cb =>
    rw [state_subscriber_t.call, oc_interfaces_state_cb_eq]
    cases sr_xpath_key_value xpath "interface" "name" with
    | none => simp [@eq_comm _ state_fault_t.absent_key]
    | some intf_name =>
      dsimp only
      by_cases hname : intf_name = ""
      · simp [hname]
      · by_cases halloc : new_values = .SR_ERR_OK
        · simp [hname, halloc, first_rendered_error_iff]
        · simp [hname, halloc]

end calls

end sweetcomb
