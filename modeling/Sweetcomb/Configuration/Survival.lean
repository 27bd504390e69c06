import Sweetcomb.Configuration.Address
import Sweetcomb.Subscribers.Independence

open datastore loop runs sweetcomb.ietf_interface

namespace sweetcomb

/-- A value of anything else below an interface: an address, another leaf. -/
def Below (val : sr_val_t) : Prop :=
  (sr_xpath_key_value val.xpath "interface" "name").isSome ∧
    ∀ leaf ∈ ["name", "type"], sr_xpath_node_name_eq val.xpath leaf = false

/-- The changes of interfaces in one commit, in any order, and with them those of
    what is below interfaces. -/
def InterfaceChanges (changes : List change_t) : Prop :=
  ∃ (edits : List (edit String Bool)) (others : List change_t),
    changes.Perm (edits.flatMap interface_changes ++ others) ∧
      ∀ change ∈ others, ∀ val, change.old_val = some val ∨ change.new_val = some val → Below val

/-- The changes that sysrepo delivers for the edits of one commit, in any order.
    Those of OpenConfig stand for edits of interfaces. -/
def subscriber_t.Committed (text : AddressText) (changes : List change_t) : subscriber_t → Prop
  | .ietf_interface_create_cb => InterfaceChanges changes
  | .ietf_interface_ipv46_address_change_cb =>
    ∃ edits : List address_edit, changes.Perm (edits.flatMap (address_changes text))
  | .nat_mapping_table_config_cb =>
    ∃ edits : List ietf_nat.mapping_edit, changes.Perm (edits.flatMap (ietf_nat.mapping_changes text))
  | .oc_interfaces_config_cb =>
    ∃ ietf, InterfaceChanges ietf ∧ List.Forall₂ openconfig_interfaces.Related ietf changes

def deletes (change : change_t) : Bool := change.op == .SR_OP_DELETED

/-- When an interface callback fails after its loop: what a commit creates last has
    no name, or the write fails; or there is nothing to write, and a flag that was
    not initialised asks for it. -/
def Fails (env : Env) (uninit : Uninit) (writes : Nat) (changes : List change_t) : Prop :=
  if changes.any creates then latest named "" changes = "" ∨ env.write_rc writes ≠ .OK
  else if uninit.create then changes ≠ []
  else if changes.any fun change => (sets change).isSome then env.write_rc writes ≠ .OK
  else uninit.modify = true

/-- When a commit crashes the plugin: a callback comes to the end of its changes and
    fails there, so that it releases the last values or the iterator once more, or
    the callback of OpenConfig gets to a deletion. -/
def subscriber_t.Unsafe (env : Env) (uninit : Uninit) (writes : Nat) (changes : List change_t) (om : Om) :
    subscriber_t → Prop
  | .ietf_interface_create_cb =>
    (∀ change ∈ changes, accepts env om change = true) ∧ Fails env uninit writes changes
  | .ietf_interface_ipv46_address_change_cb => False
  | .nat_mapping_table_config_cb =>
    (∀ change ∈ changes, ietf_nat.accepts env.text change = true) ∧
      if changes.any ietf_nat.creates then env.write_rc writes ≠ .OK else uninit.create = true
  | .oc_interfaces_config_cb =>
    match changes.find? fun change => !openconfig_interfaces.shared env om change with
    | some change => deletes change = true
    | none => Fails env uninit writes changes

section below

variable {changes others : List change_t}

theorem Below.name {val : sr_val_t} (hbelow : Below val) : sr_xpath_node_name_eq val.xpath "name" = false :=
  hbelow.2 "name" (by simp)

theorem Below.type {val : sr_val_t} (hbelow : Below val) : sr_xpath_node_name_eq val.xpath "type" = false :=
  hbelow.2 "type" (by simp)

/-- Nothing below an interface creates one, or a type. -/
theorem quiet_of_below {change : change_t}
    (hbelow : ∀ val, change.old_val = some val ∨ change.new_val = some val → Below val) :
    creates change = false ∧ typed change = none := by
  cases change with
  | created new_val =>
    have hnew := hbelow new_val (.inr rfl)
    simp [creates, typed, hnew.name, hnew.type]
  | modified _ _ | deleted _ | moved _ _ => exact ⟨rfl, rfl⟩

/-- The changes of an address are below its interface. -/
theorem below_of_address (text : AddressText) (e : address_edit) :
    ∀ change ∈ address_changes text e, ∀ val, change.old_val = some val ∨ change.new_val = some val → Below val := by
  have hleaf (leaf : leaf_t) : Below (leaf.val text e.key) := by
    cases leaf <;> simp [Below, leaf_t.val, address_node, sr_xpath_key_value, sr_xpath_node_name_eq]
  intro change hmem val hval
  obtain ⟨leaf, -, rfl⟩ := List.mem_map.mp hmem
  cases leaf <;> simp [leaf_change.change] at hval
  case created | deleted =>
    rw [← hval]
    exact hleaf _
  case modified =>
    rcases hval with rfl | rfl <;> exact hleaf _

end below

section interfaces

variable {changes : List change_t} (hchanges : InterfaceChanges changes)

include hchanges

/-- Interfaces are created with their type. -/
theorem typed_iff_creates :
    (∃ change ∈ changes, (typed change).isSome) ↔ ∃ change ∈ changes, creates change = true := by
  obtain ⟨edits, others, hperm, hbelow⟩ := hchanges
  have hcreated {change : change_t} {e : edit String Bool} (hchange : change ∈ interface_changes e)
      (hsome : (typed change).isSome ∨ creates change = true) : ∃ name enabled, e = .created name enabled := by
    cases e with
    | created name enabled => exact ⟨name, enabled, rfl⟩
    | deleted name enabled =>
      obtain ⟨value, -, rfl⟩ := List.mem_map.mp hchange
      simp [creates, typed] at hsome
    | modified name old new =>
      obtain rfl := List.mem_singleton.mp hchange
      simp [creates, typed] at hsome
  simp only [hperm.mem_iff, List.mem_append, List.mem_flatMap]
  constructor
  · rintro ⟨change, ⟨e, he, hchange⟩ | hother, htyped⟩
    · obtain ⟨name, enabled, rfl⟩ := hcreated hchange (.inl htyped)
      refine ⟨.created (name_leaf name), .inl ⟨_, he, ?_⟩, ?_⟩
      · simp [interface_changes, interface_entry]
      · simp [creates, name_leaf]
    · simp [(quiet_of_below (hbelow change hother)).2] at htyped
  · rintro ⟨change, ⟨e, he, hchange⟩ | hother, hcreates⟩
    · obtain ⟨name, enabled, rfl⟩ := hcreated hchange (.inr hcreates)
      refine ⟨.created (type_leaf name), .inl ⟨_, he, ?_⟩, ?_⟩
      · simp [interface_changes, interface_entry]
      · simp [typed, type_leaf]
    · simp [(quiet_of_below (hbelow change hother)).1] at hcreates

/-- No change of a commit is fatal to the callback of its model. -/
theorem create_fatal_none (text : AddressText) :
    ∀ change ∈ changes, subscriber_t.fatal text .ietf_interface_create_cb change = none := by
  obtain ⟨edits, others, hperm, hbelow⟩ := hchanges
  intro change hmem
  rcases List.mem_append.mp (hperm.mem_iff.mp hmem) with hedit | hother
  · obtain ⟨e, -, hchange⟩ := List.mem_flatMap.mp hedit
    cases e with
    | created name enabled =>
      obtain ⟨value, -, rfl⟩ := List.mem_map.mp hchange
      rfl
    | deleted name enabled =>
      obtain ⟨value, -, rfl⟩ := List.mem_map.mp hchange
      rfl
    | modified name old new =>
      obtain rfl := List.mem_singleton.mp hchange
      simp [subscriber_t.fatal, enabled_leaf]
  · cases change with
    | modified old_val new_val =>
      have hkey := (hbelow _ hother new_val (.inr rfl)).1
      rw [Option.isSome_iff_ne_none] at hkey
      simp [subscriber_t.fatal, hkey]
    | created _ | deleted _ | moved _ _ => rfl

end interfaces

/-- Only an ethernet type is kept, so that there is one if any has been given. -/
theorem latest_typed_iff {changes : List change_t} :
    latest typed "" changes = "" ↔ ¬ ∃ change ∈ changes, (typed change).isSome := by
  constructor
  · intro hnone hsome
    have hethernet : latest typed "" changes = "ETHERNET" := by
      refine latest_of_forall (fun type => type = "ETHERNET") hsome fun change _ type htype => ?_
      cases change with
      | created new_val =>
        rw [typed, Option.ite_none_right_eq_some] at htype
        exact (Option.some.inj htype.2).symm
      | modified _ _ | deleted _ | moved _ _ => cases htype
    rw [hethernet] at hnone
    simp at hnone
  · intro hnone
    refine latest_eq_self fun change hmem type htype => ?_
    exact absurd ⟨change, hmem, by rw [htype]; rfl⟩ hnone

theorem completes_iff {env : Env} {uninit : Uninit} {w : World} {changes : List change_t}
    (hwhole : (∃ change ∈ changes, (typed change).isSome) ↔ ∃ change ∈ changes, creates change = true) :
    Completes env uninit w changes ∨ changes = [] ∧ uninit.create = true ↔ ¬ Fails env uninit w.writes changes := by
  have htype : latest typed "" changes = "" ↔ changes.any creates = false := by
    rw [latest_typed_iff, hwhole, ← Bool.not_eq_true, List.any_eq_true]
  cases hcreates : changes.any creates with
  | true =>
    have hsome : changes ≠ [] := by
      rintro rfl
      cases hcreates
    have hnone : creation uninit.m_state changes = none ↔ latest named "" changes = "" := by
      simp [creation, build_eq_none, htype, hcreates]
    rw [Completes, written_of_create (by simp [hcreates]), Fails, hcreates, if_pos rfl]
    cases hcreation : creation uninit.m_state changes with
    | none => simp [hsome, hnone.mp hcreation]
    | some set =>
      have hname : latest named "" changes ≠ "" := fun hempty => by simp [hnone.mpr hempty] at hcreation
      simp [hsome, hname]
  | false =>
    cases hcreate : uninit.create with
    | true =>
      have hnone : creation uninit.m_state changes = none :=
        build_eq_none.mpr (.inr (htype.mpr hcreates))
      rw [Completes, written_of_create (by simp [hcreate]), hnone, Fails, hcreates, hcreate]
      simp
    | false =>
      rw [Completes, written_of_not_create (by simp [hcreates, hcreate]), Fails, hcreates, hcreate]
      cases hsets : changes.any fun change => (sets change).isSome with
      | true =>
        have hlast : lastSet changes ≠ none := fun hlast => by
          rw [quiet_of_lastSet hlast] at hsets
          cases hsets
        obtain ⟨set, hset⟩ := Option.ne_none_iff_exists'.mp hlast
        simp [hset]
      | false => simp [lastSet_of_quiet hsets]

section related

variable {ietf changes : List change_t} (hrelated : List.Forall₂ openconfig_interfaces.Related ietf changes)

include hrelated

theorem typed_iff_creates_related
    (hietf : (∃ change ∈ ietf, (typed change).isSome) ↔ ∃ change ∈ ietf, creates change = true) :
    (∃ change ∈ changes, (typed change).isSome) ↔ ∃ change ∈ changes, creates change = true := by
  have hboth : ((∃ change ∈ ietf, (typed change).isSome) ↔ ∃ change ∈ changes, (typed change).isSome) ∧
      ((∃ change ∈ ietf, creates change = true) ↔ ∃ change ∈ changes, creates change = true) := by
    clear hietf
    induction hrelated with
    | nil => simp
    | cons hhead _ ih => simp only [List.exists_mem_cons_iff, hhead.typed, hhead.creates, ih.1, ih.2, true_and]
  rw [← hboth.1, ← hboth.2, hietf]

/-- A related change crashes the OpenConfig callback exactly when it deletes. -/
theorem related_fatal_iff (text : AddressText) {change : change_t} (hmem : change ∈ changes) :
    subscriber_t.fatal text .oc_interfaces_config_cb change = none ↔ ¬ deletes change = true := by
  obtain ⟨_, _, hchange⟩ := openconfig_interfaces.related_mem hrelated hmem
  have hkeyed := hchange.keyed
  rw [hchange.keyOf] at hkeyed
  cases hchange with
  | deleted hold => simp [subscriber_t.fatal, deletes]
  | created hnew | modified hold hnew | moved hold hnew =>
    have hkey : (openconfig_interfaces.keyOf _).isSome := hkeyed.resolve_right (by simp)
    rw [Option.isSome_iff_ne_none] at hkey
    simp [subscriber_t.fatal, hkey, deletes]

end related

theorem address_fatal_none {env : Env} {edits : List address_edit} {changes : List change_t}
    (hedits : changes.Perm (edits.flatMap (address_changes env.text))) {change : change_t} (hmem : change ∈ changes)
    (hends : proceeds env change = false) :
    subscriber_t.fatal env.text .ietf_interface_ipv46_address_change_cb change = none := by
  obtain ⟨e, -, hchange⟩ := List.mem_flatMap.mp (hedits.mem_iff.mp hmem)
  have hname := if_name_of_entry env.text e change hchange
  have hempty : e.key.1 = "" := by
    by_contra hnamed
    rw [proceeds_iff.mpr ⟨_, hname, hnamed, overflows_entry env e change hchange⟩] at hends
    cases hends
  rw [hempty] at hname
  simp [subscriber_t.fatal, hname]

section mappings

variable {text : AddressText} {edits : List ietf_nat.mapping_edit} {changes : List change_t}
  (hedits : changes.Perm (edits.flatMap (ietf_nat.mapping_changes text)))

include hedits

theorem nat_fatal_none : ∀ change ∈ changes, subscriber_t.fatal text .nat_mapping_table_config_cb change = none := by
  intro change hmem
  obtain ⟨e, -, hchange⟩ := List.mem_flatMap.mp (hedits.mem_iff.mp hmem)
  cases e with
  | created index mapping =>
    obtain ⟨value, hvalue, rfl⟩ := List.mem_map.mp hchange
    simp only [ietf_nat.mapping_entry, List.mem_cons, List.not_mem_nil, or_false] at hvalue
    rcases hvalue with rfl | rfl | rfl | rfl | rfl <;>
      simp [subscriber_t.fatal, ietf_nat.address_leaves, ietf_nat.index_leaf, ietf_nat.type_leaf, ietf_nat.prefix_leaf,
        utils_prefix_t.make_prefix_to_string]
  | deleted index mapping =>
    obtain ⟨value, -, rfl⟩ := List.mem_map.mp hchange
    rfl
  | modified index old new =>
    simp only [ietf_nat.mapping_changes, List.mem_cons, List.not_mem_nil, or_false] at hchange
    rcases hchange with rfl | rfl <;> rfl

/-- Mappings are created static. -/
theorem lastMapping_ne_none_iff (uninit : Uninit) :
    ietf_nat.lastMapping text uninit changes ≠ none ↔ changes.any ietf_nat.creates = true := by
  have hmem {change : change_t} : change ∈ changes ↔ ∃ e ∈ edits, change ∈ ietf_nat.mapping_changes text e := by
    rw [hedits.mem_iff, List.mem_flatMap]
  have hcreated {change : change_t} {e : ietf_nat.mapping_edit} (hchange : change ∈ ietf_nat.mapping_changes text e)
      (hsome : ietf_nat.creates change = true ∨ (ietf_nat.typed change).isSome) :
      ∃ index mapping, e = .created index mapping := by
    cases e with
    | created index mapping => exact ⟨index, mapping, rfl⟩
    | deleted index mapping =>
      obtain ⟨value, -, rfl⟩ := List.mem_map.mp hchange
      simp [ietf_nat.creates, ietf_nat.typed] at hsome
    | modified index old new =>
      simp only [ietf_nat.mapping_changes, List.mem_cons, List.not_mem_nil, or_false] at hchange
      rcases hchange with rfl | rfl <;> simp [ietf_nat.creates, ietf_nat.typed] at hsome
  have hstatic : ∀ change ∈ changes, ∀ type, ietf_nat.typed change = some type → type = "static" := by
    intro change hchange type htype
    obtain ⟨e, -, hentry⟩ := hmem.mp hchange
    obtain ⟨index, mapping, rfl⟩ := hcreated hentry (.inr (by rw [htype]; rfl))
    obtain ⟨value, hvalue, rfl⟩ := List.mem_map.mp hentry
    simp only [ietf_nat.mapping_entry, List.mem_cons, List.not_mem_nil, or_false] at hvalue
    rcases hvalue with rfl | rfl | rfl | rfl | rfl <;>
      simp [ietf_nat.typed, ietf_nat.index_leaf, ietf_nat.type_leaf, ietf_nat.prefix_leaf] at htype
    exact htype.symm
  have hnone : ietf_nat.lastMapping text uninit changes ≠ none ↔ latest ietf_nat.typed "" changes = "static" := by
    simp [ietf_nat.lastMapping]
  rw [hnone]
  constructor
  · intro htype
    by_contra hquiet
    rw [Bool.not_eq_true, List.any_eq_false] at hquiet
    have huntyped : latest ietf_nat.typed "" changes = "" := by
      refine latest_eq_self fun change hchange type htype => ?_
      obtain ⟨e, he, hentry⟩ := hmem.mp hchange
      obtain ⟨index, mapping, rfl⟩ := hcreated hentry (.inr (by rw [htype]; rfl))
      refine absurd ?_ (hquiet (.created (ietf_nat.index_leaf index)) (hmem.mpr ⟨_, he, ?_⟩))
      · simp [ietf_nat.creates, ietf_nat.index_leaf]
      · simp [ietf_nat.mapping_changes, ietf_nat.mapping_entry]
    rw [huntyped] at htype
    simp at htype
  · intro hany
    obtain ⟨change, hchange, hcreates⟩ := List.any_eq_true.mp hany
    obtain ⟨e, he, hentry⟩ := hmem.mp hchange
    obtain ⟨index, mapping, rfl⟩ := hcreated hentry (.inl hcreates)
    refine latest_of_forall (fun type => type = "static")
      ⟨.created (ietf_nat.type_leaf index), hmem.mpr ⟨_, he, ?_⟩, ?_⟩ hstatic
    · simp [ietf_nat.mapping_changes, ietf_nat.mapping_entry]
    · simp [ietf_nat.typed, ietf_nat.type_leaf]

end mappings

/-- A commit crashes the plugin in this case and in no other. -/
theorem withstands_iff_safe {env : Env} {uninit : Uninit} {changes : List change_t} {subscriber : subscriber_t}
    (hcommitted : subscriber.Committed env.text changes) (w : World) :
    subscriber.Withstands env uninit w changes ↔ ¬ subscriber.Unsafe env uninit w.writes changes w.om := by
  have hfound {stays : change_t → Bool} {change : change_t}
      (hfind : changes.find? (fun change => !stays change) = some change) :
      change ∈ changes ∧ stays change = false ∧ ¬ ∀ change ∈ changes, stays change = true := by
    have hmem : change ∈ changes := List.mem_of_find?_eq_some hfind
    have hleft : stays change = false := by simpa using List.find?_some hfind
    exact ⟨hmem, hleft, fun hall => by simp [hall change hmem] at hleft⟩
  unfold subscriber_t.Withstands
  cases subscriber with
  | ietf_interface_create_cb =>
    simp only [subscriber_t.stays, subscriber_t.Unsafe]
    cases hfind : changes.find? fun change => !accepts env w.om change with
    | some change =>
      obtain ⟨hmem, -, hnot⟩ := hfound hfind
      exact iff_of_true (create_fatal_none hcommitted env.text change hmem) fun hunsafe => hnot hunsafe.1
    | none =>
      have hall : ∀ change ∈ changes, accepts env w.om change = true := by simpa using hfind
      rw [and_iff_right hall]
      exact completes_iff (typed_iff_creates hcommitted)
  | ietf_interface_ipv46_address_change_cb =>
    obtain ⟨edits, hedits⟩ := hcommitted
    simp only [subscriber_t.stays, subscriber_t.Unsafe, not_false_eq_true, iff_true]
    cases hfind : changes.find? fun change => !proceeds env change with
    | some change =>
      obtain ⟨hmem, hleft, -⟩ := hfound hfind
      exact address_fatal_none hedits hmem hleft
    | none => trivial
  | nat_mapping_table_config_cb =>
    obtain ⟨edits, hedits⟩ := hcommitted
    simp only [subscriber_t.stays, subscriber_t.Unsafe]
    cases hfind : changes.find? fun change => !ietf_nat.accepts env.text change with
    | some change =>
      obtain ⟨hmem, -, hnot⟩ := hfound hfind
      exact iff_of_true (nat_fatal_none hedits change hmem) fun hunsafe => hnot hunsafe.1
    | none =>
      have hall : ∀ change ∈ changes, ietf_nat.accepts env.text change = true := by simpa using hfind
      rw [and_iff_right hall, subscriber_t.Ends, lastMapping_ne_none_iff hedits]
      cases changes.any ietf_nat.creates <;> cases uninit.create <;> simp
  | oc_interfaces_config_cb =>
    obtain ⟨ietf, hietf, hrelated⟩ := hcommitted
    simp only [subscriber_t.stays, subscriber_t.Unsafe]
    cases hfind : changes.find? fun change => !openconfig_interfaces.shared env w.om change with
    | some change => exact related_fatal_iff hrelated env.text (hfound hfind).1
    | none => exact completes_iff (typed_iff_creates_related hrelated (typed_iff_creates hietf))

/-- The call comes through what it is delivered. -/
def placed_t.Endures (env : Env) (placed : placed_t) (w : World) : Prop :=
  ¬ Unobtained placed.call.subscriber placed.call.delivery ∧
    (placed.call.subscriber.Reads placed.call.delivery →
      placed.call.subscriber.Withstands env placed.call.uninit { w with writes := placed.writes }
        placed.call.delivery.changes)

/-- The call has no iterator to release, or reads the changes of a commit that
    crashes it. -/
def placed_t.Crashes (env : Env) (placed : placed_t) (w : World) : Prop :=
  Unobtained placed.call.subscriber placed.call.delivery ∨
    placed.call.subscriber.Reads placed.call.delivery ∧
      placed.call.subscriber.Unsafe env placed.call.uninit placed.writes placed.call.delivery.changes w.om

section runs

variable {env : Env} {w : World} {calls : List placed_t}

theorem outlives_iff_endures {process : Option World} {placed : placed_t} :
    Outlives env process placed ↔ ∀ w, process = some w → placed.Endures env w :=
  forall₂_congr fun _ _ => subscriber_t.call_survives_iff

/-- Whatever the callbacks are delivered, in any order and however their writes end,
    the process is there at the end exactly when each call comes through its changes
    without a fault and without releasing anything twice or that it has not got. -/
theorem survives_throughout_iff : ((plugins_machine env).run (some w) calls).isSome = true ↔
    Along (plugins_machine env).step (fun process placed => ∀ w, process = some w → placed.Endures env w) (some w)
      calls := by
  rw [run_isSome_iff, and_iff_right Option.isSome_some]
  exact along_congr fun process placed => outlives_iff_endures

theorem endures_iff {placed : placed_t}
    (hcommitted : placed.call.subscriber.Committed env.text placed.call.delivery.changes) (w : World) :
    placed.Endures env w ↔ ¬ placed.Crashes env w := by
  rw [placed_t.Endures, placed_t.Crashes, withstands_iff_safe hcommitted]
  tauto

/-- A process survives a run of commits of all models, in any order and whatever
    becomes of the writes, exactly when none of them crashes it. -/
theorem commits_survived_iff
    (hcommitted : ∀ placed ∈ calls, placed.call.subscriber.Committed env.text placed.call.delivery.changes) :
    ((plugins_machine env).run (some w) calls).isSome = true ↔
      Along (plugins_machine env).step (fun process placed => ∀ w, process = some w → ¬ placed.Crashes env w) (some w)
        calls := by
  rw [run_isSome_iff, and_iff_right Option.isSome_some]
  refine along_iff_of_step (fun _ => True) (fun process placed _ hcommitted => ?_) (fun _ _ _ _ _ => trivial) trivial
    (along_forall.mpr hcommitted)
  exact outlives_iff_endures.trans (forall₂_congr fun w _ => endures_iff hcommitted w)

end runs

section samples

/-- An interface is created, and an address of it while the flag happens to be set. -/
def created_then_addressed : List placed_t :=
  [{ call :=
      { subscriber := .ietf_interface_create_cb
        uninit := cleared
        delivery := verify (interface_changes (.created "host-vpp1" true)) }
     writes := 0 },
    { call :=
      { subscriber := .ietf_interface_create_cb
        uninit := { cleared with modify := true }
        delivery := verify (address_changes plainText (.created ("host-vpp1", .v4 0) 24)) }
      writes := 1 }]

theorem address_crashes :
    ((plugins_machine counting).run (some World.empty) created_then_addressed).isSome ≠ true := by
  rw [ne_eq, commits_survived_iff]
  · rintro ⟨-, hcrashes, -⟩
    refine hcrashes _ rfl (.inr ⟨⟨rfl, .inl rfl⟩, by decide, ?_⟩)
    rfl
  · rintro _ (_ | ⟨_, _ | ⟨_, hmem⟩⟩)
    · exact ⟨[.created "host-vpp1" true], [], List.Perm.refl _, by simp⟩
    · exact ⟨[], _, List.Perm.refl _, below_of_address plainText (.created ("host-vpp1", .v4 0) 24)⟩
    · cases hmem

end samples

end sweetcomb
