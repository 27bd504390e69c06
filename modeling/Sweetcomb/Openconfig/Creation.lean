import Sweetcomb.Ietf.Interface.Determined
import Sweetcomb.Ietf.Interface.Sync
import Sweetcomb.Openconfig.Equivalence
import Sweetcomb.Openconfig.Trace

open keyed_store loop sweetcomb.ietf_interface

namespace sweetcomb.openconfig_interfaces

/-- The changes create the ethernet interface of a list key in a state, with
    whatever other leaves and in whatever order. -/
structure Creates (key : String) (state : Bool) (changes : List change_t) : Prop where
  keyed : ∀ change ∈ changes, ∃ ne, change = .created ne ∧ sr_xpath_key_value ne.xpath "interface" "name" = some key
  has_type : ∃ ne, .created ne ∈ changes ∧ sr_xpath_node_name_eq ne.xpath "type" = true
  ethernet : ∀ ne, .created ne ∈ changes → sr_xpath_node_name_eq ne.xpath "type" = true →
    ne.data.string_val = "iana-if-type:ethernetCsmacd"
  has_state : ∃ ne, .created ne ∈ changes ∧ sr_xpath_node_name_eq ne.xpath "enabled" = true
  state : ∀ ne, .created ne ∈ changes → sr_xpath_node_name_eq ne.xpath "enabled" = true → ne.data.bool_val = state

/-- OM holds the interface in an admin state. -/
def Held (om : Om) (name : String) (state : Bool) : Prop :=
  ∃ attrs, (name, .interface name attrs) ∈ om ∧ attrs.state = .from_int state.toNat

/-- The modification of the `enabled` leaf of an entry. -/
def modification (name : String) (old new : Bool) : List change_t :=
  [.modified (config_leaf name "enabled" { bool_val := old }) (config_leaf name "enabled" { bool_val := new })]

/-- The entry of a list key is the interface of that name: it is in OM, no other
    is written, and a later modification finds it. -/
structure Identified (env : Env) (key : String) (state : Bool) (w : World) (result : cb_result) : Prop where
  held : Held result.world.om key state
  only : ∃ made, result.world.calls = w.calls ++ made ∧
    ∀ under name attrs, vom_call.write under (.interface name attrs) ∈ made → name = key
  modified : ∀ uninit : Uninit, uninit.Cleared → ∀ old new,
    (oc_interfaces_config_cb env uninit (verify (modification key old new)) result.world).outcome = .ok .SR_ERR_OK

variable {env : Env} {uninit : Uninit} {w : World} {key : String} {state : Bool} {changes : List change_t}

theorem not_name_of_type {ne : sr_val_t} (htype : sr_xpath_node_name_eq ne.xpath "type" = true) :
    sr_xpath_node_name_eq ne.xpath "name" = false := by
  rw [sr_xpath_node_name_eq_decide] at htype ⊢
  simp [of_decide_eq_true htype]

theorem not_name_of_enabled {ne : sr_val_t} (henabled : sr_xpath_node_name_eq ne.xpath "enabled" = true) :
    sr_xpath_node_name_eq ne.xpath "name" = false ∧ sr_xpath_node_name_eq ne.xpath "type" = false := by
  rw [sr_xpath_node_name_eq_decide] at henabled
  rw [sr_xpath_node_name_eq_decide, sr_xpath_node_name_eq_decide]
  simp [of_decide_eq_true henabled]

section creates

variable (hcreates : Creates key state changes)

include hcreates

theorem Creates.type : latest typed "" changes = "ETHERNET" := by
  apply latest_eq_of_forall
  · obtain ⟨ne, hmem, htype⟩ := hcreates.has_type
    exact ⟨_, hmem, by simp [typed, htype, not_name_of_type htype, hcreates.ethernet ne hmem htype]⟩
  · intro change hmem other htyped
    obtain ⟨ne, rfl, _⟩ := hcreates.keyed change hmem
    simp only [typed, Option.ite_none_right_eq_some, Option.some.injEq] at htyped
    exact htyped.2.symm

theorem Creates.latest_enabled (before : Bool) : latest enabled before changes = state := by
  apply latest_eq_of_forall
  · obtain ⟨ne, hmem, henabled⟩ := hcreates.has_state
    exact ⟨_, hmem, by simp [enabled, henabled, not_name_of_enabled henabled, hcreates.state ne hmem henabled]⟩
  · intro change hmem other hvalue
    obtain ⟨ne, rfl, _⟩ := hcreates.keyed change hmem
    simp only [enabled, Option.ite_none_right_eq_some, Option.some.injEq, Bool.and_eq_true] at hvalue
    rw [← hvalue.2]
    exact hcreates.state ne hmem hvalue.1.2

theorem Creates.quiet : (changes.any fun change => (sets change).isSome) = false ∧ changes.any removes = false := by
  refine ⟨List.any_eq_false.mpr fun change hmem => ?_, List.any_eq_false.mpr fun change hmem => ?_⟩
  · obtain ⟨ne, rfl, _⟩ := hcreates.keyed change hmem
    simp [sets]
  · obtain ⟨ne, rfl, _⟩ := hcreates.keyed change hmem
    simp [removes]

theorem Creates.shared (hkey : key ≠ "") (om : Om) : ∀ change ∈ changes, shared env om change = true := by
  intro change hmem
  obtain ⟨ne, rfl, hvalue⟩ := hcreates.keyed change hmem
  simp [openconfig_interfaces.shared, accepts, common, keyOf, hvalue, hkey]

theorem Creates.calls (start : config_locals) : (changes.foldl advance start).world.calls = start.world.calls := by
  have hnone : changes.filterMap sets = [] := by
    refine List.filterMap_eq_nil_iff.mpr fun change hmem => ?_
    obtain ⟨ne, rfl, _⟩ := hcreates.keyed change hmem
    rfl
  rw [foldl_advance_calls, hnone, List.map_nil, List.append_nil]

/-- An empty list key is refused. -/
theorem Creates.unnamed (hkey : key = "") :
    (oc_interfaces_config_cb env uninit (verify changes) w).outcome = .ok .SR_ERR_INVAL_ARG := by
  subst hkey
  obtain ⟨ne, hmem, _⟩ := hcreates.has_type
  cases changes with
  | nil => cases hmem
  | cons change rest =>
    obtain ⟨first, rfl, hvalue⟩ := hcreates.keyed _ (List.mem_cons_self ..)
    have hunnamed : keyOf (.created first) = some "" := hvalue
    have hnot : openconfig_interfaces.shared env (config_start uninit w).world.om (.created first) = false := by
      simp [openconfig_interfaces.shared, common, hunnamed]
    have hleft := @config_run_left env (config_start uninit w) [] rest (.created first) (by simp) hnot
    rw [config_cb_verify]
    exact hleft.1.trans (config_refusal_of_unnamed hunnamed)

end creates

/-- A modification of an interface that VOM finds is written. -/
theorem modification_ok (hwrites : ∀ n, env.write_rc n = .OK) (hkey : key ≠ "") (halive : env.alive w.om key = true)
    (hcleared : uninit.Cleared) (old new : Bool) :
    (oc_interfaces_config_cb env uninit (verify (modification key old new)) w).outcome = .ok .SR_ERR_OK := by
  have hleaf : sr_xpath_node_name_eq (config_leaf key "enabled" { bool_val := new }).xpath "enabled" = true := rfl
  have hvalue : sr_xpath_key_value (config_leaf key "enabled" { bool_val := new }).xpath "interface" "name" =
    some key := rfl
  have hshared : ∀ change ∈ modification key old new, shared env (config_start uninit w).world.om change = true := by
    intro change hmem
    obtain rfl := List.mem_singleton.mp hmem
    simp [shared, accepts, common, keyOf, hvalue, hkey, config_start, halive]
  have hset : lastSet (modification key old new) = some (key, .from_int new.toNat) := by
    simp only [lastSet, modification, latest_cons, latest_nil, sets, hleaf, hvalue, if_true, Option.map_some,
      Option.getD_some]
    rfl
  have hcreate : (uninit.create || (modification key old new).any creates) = false := by
    simp [hcleared.create, modification, creates]
  rw [config_cb_verify, config_run_shared env _ hshared, (create_commit_calls env _).1,
    pending_eq_written (starts_config uninit w), written_of_not_create hcreate, hset]
  exact if_pos (hwrites _)

section commit

variable (halive : KeepsCommitted env) (hwrites : ∀ n, env.write_rc n = .OK) (hkey : key ≠ "")

include halive hwrites hkey

theorem Held.modified (hheld : Held w.om key state) : ∀ uninit : Uninit, uninit.Cleared → ∀ old new,
    (oc_interfaces_config_cb env uninit (verify (modification key old new)) w).outcome = .ok .SR_ERR_OK := by
  intro uninit hcleared old new
  obtain ⟨attrs, hmem, _⟩ := hheld
  exact modification_ok hwrites hkey (halive _ _ _ hmem) hcleared old new

variable (hcreates : Creates key state changes)

include hcreates

/-- With a name the interface of that name is built, and written unless the name
    is empty. -/
theorem commit_of_named (hflag : changes.any creates = true) :
    let result := create_leave (create_commit env (changes.foldl advance (config_start uninit w)))
    (result.outcome = .ok .SR_ERR_OK → Identified env key state w result) ↔
      latest named "" changes = "" ∨ latest named "" changes = key := by
  have hpending := pending_eq_written (starts_config uninit w) changes
  have hbuild : written uninit w changes = interface_builder.build
      { m_name := latest named "" changes, m_type := "ETHERNET", m_state := state } := by
    rw [written_of_create (by rw [hflag, Bool.or_true]), creation, hcreates.type, hcreates.latest_enabled]
  by_cases hname : latest named "" changes = ""
  · refine iff_of_true (fun hok => ?_) (.inl hname)
    rw [hbuild, build_eq_none.mpr (.inl hname)] at hpending
    have hcreate : (changes.foldl advance (config_start uninit w)).create = true := by
      rw [foldl_advance_create, hflag, Bool.or_true]
    rw [(create_commit_rejected env hpending (.inl hcreate)).1, hcreate] at hok
    cases hok
  · have hbuilt : pending (changes.foldl advance (config_start uninit w)) =
        some (latest named "" changes, ethernet state) := by
      rw [hpending, hbuild]
      simp [interface_builder.build, hname, ietf_interface.ethernet]
    obtain ⟨houtcome, hwritten, _, _, hmade⟩ := create_commit_written env hbuilt (hwrites _)
    rw [hcreates.calls (config_start uninit w)] at hmade
    simp only [houtcome, forall_const, hname, false_or]
    constructor
    · intro hidentified
      obtain ⟨made, hsame, honly⟩ := hidentified.only
      rw [hmade] at hsame
      obtain rfl := List.append_cancel_left hsame
      exact honly _ _ _ (List.mem_singleton_self _)
    · intro hsame
      have hheld : Held (create_leave (create_commit env
          (changes.foldl advance (config_start uninit w)))).world.om key state := by
        refine ⟨ethernet state, ?_, rfl⟩
        rw [hwritten, hsame, Store.mem_write]
        exact .inl rfl
      refine ⟨hheld, ⟨_, hmade, ?_⟩, hheld.modified halive hwrites hkey⟩
      intro under name attrs hmem
      have hcall := List.mem_singleton.mp hmem
      rw [vom_call.write.injEq, object.interface.injEq] at hcall
      exact hcall.2.1.trans hsame

/-- Without a name nothing is done. -/
theorem commit_of_unnamed (hcleared : uninit.Cleared) (hflag : changes.any creates = false) :
    let result := create_leave (create_commit env (changes.foldl advance (config_start uninit w)))
    (result.outcome = .ok .SR_ERR_OK → Identified env key state w result) ↔ Held w.om key state := by
  have hcreate : (changes.foldl advance (config_start uninit w)).create = false := by
    rw [foldl_advance_create, hflag, Bool.or_false]
    exact hcleared.create
  have hmodify : (changes.foldl advance (config_start uninit w)).modify = false := by
    rw [foldl_advance_modify, hcreates.quiet.1, Bool.or_false]
    exact hcleared.modify
  have hremove : (changes.foldl advance (config_start uninit w)).remove = false := by
    rw [foldl_advance_remove, hcreates.quiet.2, Bool.or_false]
    exact hcleared.remove
  obtain ⟨houtcome, hsame, hmade⟩ := create_commit_nothing env hcreate hmodify (by simp [dropped, hremove])
  have hom : (changes.foldl advance (config_start uninit w)).world.om = w.om := foldl_advance_om _ _
  have hafter := hsame.om.trans hom
  simp only [houtcome, forall_const]
  constructor
  · intro hidentified
    rw [← hafter]
    exact hidentified.held
  · intro hheld
    rw [← hafter] at hheld
    have hcalls : (changes.foldl advance (config_start uninit w)).world.calls = w.calls := hcreates.calls _
    exact ⟨hheld, ⟨[], by rw [hmade, hcalls, List.append_nil], by simp⟩, hheld.modified halive hwrites hkey⟩

end commit

/-- An entry of a list key is the interface of that name exactly when the call
    is refused, for an empty key or name; or the last name that is created is the
    key; or no name is created and OM holds the interface already. -/
theorem creation_identified_iff (halive : KeepsCommitted env) (hwrites : ∀ n, env.write_rc n = .OK)
    (hcleared : uninit.Cleared) (hcreates : Creates key state changes) :
    ((oc_interfaces_config_cb env uninit (verify changes) w).outcome = .ok .SR_ERR_OK →
        Identified env key state w (oc_interfaces_config_cb env uninit (verify changes) w)) ↔
      key = "" ∨
        (changes.any creates = true ∧ (latest named "" changes = "" ∨ latest named "" changes = key)) ∨
        (changes.any creates = false ∧ Held w.om key state) := by
  by_cases hkey : key = ""
  · refine iff_of_true (fun hok => ?_) (.inl hkey)
    rw [hcreates.unnamed hkey] at hok
    cases hok
  rw [config_cb_verify, config_run_shared env _ (hcreates.shared hkey _)]
  cases hflag : changes.any creates with
  | true =>
    refine (commit_of_named halive hwrites hkey hcreates hflag).trans ?_
    simp [hkey]
  | false =>
    refine (commit_of_unnamed halive hwrites hkey hcreates hcleared hflag).trans ?_
    simp [hkey]

section samples

/-- The leaves that create an ethernet interface, without a name. -/
def unnamed_leaves (key : String) (state : Bool) : List change_t :=
  [.created (config_leaf key "type" { string_val := "iana-if-type:ethernetCsmacd" }),
    .created (config_leaf key "enabled" { bool_val := state })]

theorem unnamed_leaves_create (key : String) (state : Bool) : Creates key state (unnamed_leaves key state) where
  keyed := by
    intro change hmem
    rcases List.mem_cons.mp hmem with rfl | hmem
    · exact ⟨_, rfl, rfl⟩
    · obtain rfl := List.mem_singleton.mp hmem
      exact ⟨_, rfl, rfl⟩
  has_type := ⟨_, List.mem_cons_self .., rfl⟩
  ethernet := by
    intro ne hmem htype
    rcases List.mem_cons.mp hmem with heq | hmem
    · cases heq
      rfl
    · cases List.mem_singleton.mp hmem
      cases htype
  has_state := ⟨_, List.mem_cons_of_mem _ (List.mem_singleton_self _), rfl⟩
  state := by
    intro ne hmem henabled
    rcases List.mem_cons.mp hmem with heq | hmem
    · cases heq
      cases henabled
    · cases List.mem_singleton.mp hmem
      rfl

/-- A name may come first. -/
theorem Creates.cons_name (hcreates : Creates key state changes) (data : sr_data_t) :
    Creates key state (.created (config_leaf key "name" data) :: changes) where
  keyed := List.forall_mem_cons.mpr ⟨⟨_, rfl, rfl⟩, hcreates.keyed⟩
  has_type := by
    obtain ⟨ne, hmem, htype⟩ := hcreates.has_type
    exact ⟨ne, List.mem_cons_of_mem _ hmem, htype⟩
  ethernet := by
    intro ne hmem htype
    rcases List.mem_cons.mp hmem with heq | hmem
    · cases heq
      cases htype
    · exact hcreates.ethernet ne hmem htype
  has_state := by
    obtain ⟨ne, hmem, henabled⟩ := hcreates.has_state
    exact ⟨ne, List.mem_cons_of_mem _ hmem, henabled⟩
  state := by
    intro ne hmem henabled
    rcases List.mem_cons.mp hmem with heq | hmem
    · cases heq
      cases henabled
    · exact hcreates.state ne hmem henabled

end samples

/-- With its key for a name the entry is identified. -/
theorem creation_identified_host_vpp1 :
    let changes := .created (config_leaf "host-vpp1" "name" { string_val := "host-vpp1" }) ::
      unnamed_leaves "host-vpp1" true
    (oc_interfaces_config_cb counting cleared (verify changes) World.empty).outcome = .ok .SR_ERR_OK →
      Identified counting "host-vpp1" true World.empty
        (oc_interfaces_config_cb counting cleared (verify changes) World.empty) := by
  refine (creation_identified_iff counting_keepsCommitted (fun _ => rfl) cleared_cleared
    ((unnamed_leaves_create _ _).cons_name _)).mpr (.inr (.inl ⟨by decide, .inr (by decide)⟩))

/-- Without a name the call succeeds and nothing is created. -/
theorem creation_not_identified :
    Creates "GigabitEthernet0/8/0" true (unnamed_leaves "GigabitEthernet0/8/0" true) ∧
      (oc_interfaces_config_cb counting cleared (verify (unnamed_leaves "GigabitEthernet0/8/0" true))
        World.empty).outcome = .ok .SR_ERR_OK ∧
      ¬ Identified counting "GigabitEthernet0/8/0" true World.empty
        (oc_interfaces_config_cb counting cleared (verify (unnamed_leaves "GigabitEthernet0/8/0" true))
          World.empty) := by
  refine ⟨unnamed_leaves_create _ _, by decide, fun hidentified => ?_⟩
  obtain ⟨attrs, hmem, _⟩ := hidentified.held
  have hempty : (oc_interfaces_config_cb counting cleared (verify (unnamed_leaves "GigabitEthernet0/8/0" true))
      World.empty).world.om = ∅ := by decide
  rw [hempty] at hmem
  cases hmem

end sweetcomb.openconfig_interfaces
