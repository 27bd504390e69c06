import Sweetcomb.Commit
import Sweetcomb.Ietf.Interface.Entry
import Sweetcomb.Ietf.Interface.Trace
import Sweetcomb.Ietf.Lifecycle.Entries

open datastore keyed_store loop

namespace sweetcomb.ietf_interface

/-- An interface with its addresses, as one configures it. -/
structure interface_config where
  name : String
  type : String
  enabled : Option Bool
  ipv4 : List (BitVec 32 × UInt8)
  ipv6 : List (BitVec 128 × UInt8)

structure interface_config.Distinct (config : interface_config) : Prop where
  ipv4 : (config.ipv4.map Prod.fst).Nodup
  ipv6 : (config.ipv6.map Prod.fst).Nodup

section config

variable (config : interface_config)

def interface_config.ipv4_entries : address_entries :=
  config.ipv4.map fun entry => (.v4 entry.1, entry.2)

def interface_config.ipv6_entries : address_entries :=
  config.ipv6.map fun entry => (.v6 entry.1, entry.2)

/-- The interface's own values. -/
def interface_config.own : List sr_val_t :=
  [{ xpath := interface_node config.name, type := .SR_LIST_T }, name_leaf config.name,
    { xpath := interface_leaf config.name "type", data := { string_val := config.type } }] ++
  config.enabled.toList.map (enabled_leaf config.name)

/-- The calls of one commit by descending priority. The subtree of the
    interface, which the first is about, includes the addresses. -/
def interface_config.created_calls (env : Env) (uninit : Uninit) : List (World → cb_result) :=
  let ipv4 := created_addresses env.text config.name config.ipv4_entries
  let ipv6 := created_addresses env.text config.name config.ipv6_entries
  [ietf_interface_create_cb env uninit (verify (config.own.map .created ++ (ipv4 ++ ipv6))),
    ietf_interface_ipv46_address_change_cb env (verify ipv4),
    ietf_interface_ipv46_address_change_cb env (verify ipv6)]

def interface_config.deleted_calls (env : Env) (uninit : Uninit) : List (World → cb_result) :=
  let ipv4 := deleted_addresses env.text config.name config.ipv4_entries
  let ipv6 := deleted_addresses env.text config.name config.ipv6_entries
  [ietf_interface_create_cb env uninit (verify (config.own.map .deleted ++ (ipv4 ++ ipv6))),
    ietf_interface_ipv46_address_change_cb env (verify ipv4),
    ietf_interface_ipv46_address_change_cb env (verify ipv6)]

end config

/-- Calls in turn: how each ends, and the state that the last one leaves. -/
def run_calls : List (World → cb_result) → World → List (Except fault_t sr_error_t) × World
  | [], w => ([], w)
  | call :: calls, w =>
    let (outcomes, last) := run_calls calls (call w).world
    ((call w).outcome :: outcomes, last)

section interface

variable (text : AddressText) (name : String) (entries : address_entries)

/-- The values of the address entries. -/
def address_values : List sr_val_t :=
  entries.flatMap fun entry =>
    [leaf_t.node.val text (name, entry.1), (leaf_t.ip entry.1).val text (name, entry.1),
      (leaf_t.prefix_length entry.2).val text (name, entry.1)]

theorem created_addresses_eq :
    created_addresses text name entries = (address_values text name entries).map .created := by
  rw [address_values, List.map_flatMap]
  rfl

theorem deleted_addresses_eq :
    deleted_addresses text name entries = (address_values text name entries).map .deleted := by
  rw [address_values, List.map_flatMap]
  rfl

/-- The interface callback passes over the values of an address. -/
theorem address_value_ignored {text : AddressText} {name : String} {entries : address_entries} {val : sr_val_t}
    (hmem : val ∈ address_values text name entries) :
    named (.created val) = none ∧ typed (.created val) = none ∧ named (.deleted val) = none := by
  obtain ⟨entry, _, hval⟩ := List.mem_flatMap.mp hmem
  simp only [List.mem_cons, List.not_mem_nil, or_false] at hval
  rcases hval with rfl | rfl | rfl <;> exact ⟨rfl, rfl, rfl⟩

end interface

section calls

variable (env : Env) (uninit : Uninit) (config : interface_config) {values : List sr_val_t}

theorem latest_of_ignored {β : Type} {assigns : change_t → Option β} {op : sr_val_t → change_t} {before : β}
    (hvalues : ∀ val ∈ values, assigns (op val) = none) :
    latest assigns before ((config.own ++ values).map op) = latest assigns before (config.own.map op) := by
  rw [List.map_append, latest_append]
  refine latest_eq_self fun change hmem value hassigns => ?_
  obtain ⟨val, hval, rfl⟩ := List.mem_map.mp hmem
  rw [hvalues val hval] at hassigns
  cases hassigns

theorem named_created : latest named "" (config.own.map .created) = config.name := by
  cases henabled : config.enabled <;>
    simp [interface_config.own, henabled, named, name_leaf, enabled_leaf]

theorem typed_created : latest typed "" (config.own.map .created) =
    if config.type = "iana-if-type:ethernetCsmacd" then "ETHERNET" else "" := by
  by_cases htype : config.type = "iana-if-type:ethernetCsmacd" <;> cases henabled : config.enabled <;>
    simp [interface_config.own, henabled, htype, typed, name_leaf, enabled_leaf]

theorem named_deleted : latest named "" (config.own.map .deleted) = config.name := by
  cases henabled : config.enabled <;>
    simp [interface_config.own, henabled, named, name_leaf, enabled_leaf]

theorem any_of_name_leaf {op : sr_val_t → change_t} {holds : change_t → Bool}
    (hleaf : holds (op (name_leaf config.name)) = true) : ((config.own ++ values).map op).any holds = true := by
  refine List.any_eq_true.mpr ⟨_, List.mem_map.mpr ⟨name_leaf config.name, ?_, rfl⟩, hleaf⟩
  simp [interface_config.own]

/-- Creating succeeds exactly for an ethernet interface with a name, and writes
    it under the name. -/
theorem create_cb_created (hwrites : ∀ n, env.write_rc n = .OK)
    (hvalues : ∀ val ∈ values, named (.created val) = none ∧ typed (.created val) = none) (w : World) :
    let result := ietf_interface_create_cb env uninit (verify ((config.own ++ values).map .created)) w
    if config.name ≠ "" ∧ config.type = "iana-if-type:ethernetCsmacd" then
      result.outcome = .ok .SR_ERR_OK ∧
        ∃ attrs, result.world.om = w.om.write object.singular config.name (.interface config.name attrs)
    else result.outcome ≠ .ok .SR_ERR_OK := by
  let changes : List change_t := (config.own ++ values).map .created
  have haccepts : ∀ change ∈ changes, accepts env (create_start uninit w).world.om change = true := by
    intro change hmem
    obtain ⟨val, _, rfl⟩ := List.mem_map.mp hmem
    rfl
  have hcreates : changes.any creates = true := any_of_name_leaf config rfl
  have hname : latest named "" changes = config.name :=
    (latest_of_ignored config fun val hval => (hvalues val hval).1).trans (named_created config)
  have htype : latest typed "" changes = if config.type = "iana-if-type:ethernetCsmacd" then "ETHERNET" else "" :=
    (latest_of_ignored config fun val hval => (hvalues val hval).2).trans (typed_created config)
  have hpending := pending_eq_written (starts_create uninit w) changes
  rw [create_cb_verify, create_run_accepted env _ haccepts]
  rw [written, hcreates, Bool.or_true, if_pos rfl, hname, htype] at hpending
  split
  · rename_i hbuilds
    have hwritten : pending (changes.foldl advance (create_start uninit w)) =
        some (config.name,
          { type := "ETHERNET", state := .from_int (latest enabled uninit.m_state changes).toNat }) := by
      rw [hpending, if_pos hbuilds.2]
      simp [interface_builder.build, hbuilds.1]
    obtain ⟨houtcome, hom, _⟩ := create_commit_written env hwritten (hwrites _)
    rw [foldl_advance_om] at hom
    exact ⟨houtcome, _, hom⟩
  · rename_i hbuilds
    have hnone : pending (changes.foldl advance (create_start uninit w)) = none := by
      rw [hpending, build_eq_none]
      by_contra hboth
      exact hbuilds (by simpa using hboth)
    have hcreate : (changes.foldl advance (create_start uninit w)).create = true := by simp [hcreates]
    have houtcome := (create_commit_rejected env hnone (.inl hcreate)).1
    rw [if_pos hcreate] at houtcome
    intro result hok
    cases houtcome.symm.trans hok

theorem create_cb_deleted (hcleared : uninit.Cleared)
    (hvalues : ∀ val ∈ values, named (.deleted val) = none) (w : World) :
    let result := ietf_interface_create_cb env uninit (verify ((config.own ++ values).map .deleted)) w
    result.outcome = .ok .SR_ERR_OK ∧ result.world.om = w.om.remove config.name := by
  let changes : List change_t := (config.own ++ values).map .deleted
  have haccepts : ∀ change ∈ changes, accepts env (create_start uninit w).world.om change = true := by
    intro change hmem
    obtain ⟨val, _, rfl⟩ := List.mem_map.mp hmem
    rfl
  have hcreates : changes.any creates = false := by simp [changes, creates]
  have hsets : (changes.any fun change => (sets change).isSome) = false := by simp [changes, sets]
  have hremoves : changes.any removes = true := any_of_name_leaf config rfl
  have hname : latest named "" changes = config.name :=
    (latest_of_ignored config hvalues).trans (named_deleted config)
  have hdropped : dropped (changes.foldl advance (create_start uninit w)) = some config.name := by
    simp [dropped, hcreates, hsets, hremoves, hname, create_start, hcleared.create, hcleared.modify]
  obtain ⟨houtcome, hom, _⟩ := create_commit_removed env hdropped
  rw [create_cb_verify, create_run_accepted env _ haccepts]
  refine ⟨houtcome, hom.trans ?_⟩
  rw [foldl_advance_om]
  rfl

section addresses

variable {env} (hcounts : env.Counts) {name : String} (hname : name ≠ "") {w : World} {bound : Finset prefix_t}

include hcounts hname

theorem address_cb_created (hwrites : ∀ n, env.write_rc n = .OK)
    (hpresence : Presence env.text w.om name true bound) (entries : address_entries) :
    let result := ietf_interface_ipv46_address_change_cb env (verify (created_addresses env.text name entries)) w
    result.outcome = .ok .SR_ERR_OK ∧
      Presence env.text result.world.om name true (bound ∪ (prefixes_of 0 entries).toFinset) := by
  obtain ⟨last, hloop, hlast, hrc⟩ :=
    created_entries hcounts hwrites hname (carries_start env w) rfl hpresence rfl entries
  simp only [ietf_interface_ipv46_address_change_cb, reduceCtorEq, if_false, ne_eq, not_true_eq_false, hloop,
    address_leave, hrc]
  exact ⟨trivial, hlast⟩

theorem address_cb_deleted (hpresence : Presence env.text w.om name false bound) (entries : address_entries) :
    let result := ietf_interface_ipv46_address_change_cb env (verify (deleted_addresses env.text name entries)) w
    (result.outcome = .ok .SR_ERR_OK ↔
        entries = [] ∨ (bound \ (prefixes_of 0 entries).dropLast.toFinset).Nonempty) ∧
      Presence env.text result.world.om name false (bound \ (prefixes_of 0 entries).toFinset) := by
  obtain ⟨last, hloop, hlast, hrc⟩ := deleted_entries hcounts hname (carries_start env w) rfl hpresence entries
  simp only [ietf_interface_ipv46_address_change_cb, reduceCtorEq, if_false, ne_eq, not_true_eq_false, hloop,
    address_leave]
  refine ⟨?_, hlast⟩
  rw [hrc]
  split
  · simp [*]
  · split <;> simp [*]

end addresses

end calls

end sweetcomb.ietf_interface
