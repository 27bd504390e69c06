import Sweetcomb.Ietf.Address.Requests
import Sweetcomb.Ietf.Interface.Entry
import Sweetcomb.Refcount
import Sweetcomb.Subscribers.Keys

open datastore keyed_store loop sweetcomb.ietf_interface

namespace sweetcomb

/-- The change lists that delete one configured object and nothing else, and the
    callbacks that they are delivered to. Whatever is deleted of the entry comes in
    any order; the leaves that say which entry it is tell its own. -/
inductive Deletes (text : AddressText) : configured_t → subscriber_t → List change_t → Prop
  | interface (name : String) (values : List sr_val_t)
    (hkey : ∃ val ∈ values, sr_xpath_node_name_eq val.xpath "name" = true)
    (hown : ∀ val ∈ values, sr_xpath_node_name_eq val.xpath "name" = true → val.data.string_val = name) :
    Deletes text (.interface name) .ietf_interface_create_cb (values.map .deleted)
  | openconfig (name : String) (values : List sr_val_t) (hsome : values ≠ []) :
    Deletes text (.interface name) .oc_interfaces_config_cb (values.map .deleted)
  | binding (itf : String) (pfx : prefix_t) (values : List sr_val_t)
    (hitf : ∀ val ∈ values, sr_xpath_key_value val.xpath "interface" "name" = some itf)
    (hown : ∀ val ∈ values, val.type ≠ .SR_LIST_T → sr_xpath_node_name_eq val.xpath "ip" = true →
      text.from_string val.data.string_val = some pfx.addr) :
    Deletes text (.binding itf pfx) .ietf_interface_ipv46_address_change_cb (values.map .deleted)
  | mapping (id index : UInt32) (values : List sr_val_t)
    (hkey : ∃ val ∈ values, sr_xpath_node_name_eq val.xpath "index" = true)
    (hown : ∀ val ∈ values, sr_xpath_node_name_eq val.xpath "index" = true → val.data.uint32_val = index) :
    Deletes text (.mapping id index) .nat_mapping_table_config_cb (values.map .deleted)

/-- Nothing but what is held under some keys is gone. -/
def DropsOnly (keys : Set String) (before after : Om) : Prop :=
  ∀ entry, (entry ∈ after → entry ∈ before) ∧ (entry ∈ before → entry.1 ∉ keys → entry ∈ after)

theorem dropsOnly_refl (keys : Set String) (om : Om) : DropsOnly keys om om :=
  fun _ => ⟨id, fun hmem _ => hmem⟩

theorem dropsOnly_remove {keys : Set String} {before after : Om} (hdrops : DropsOnly keys before after) {key : String}
    (hkey : key ∈ keys) : DropsOnly keys before (after.remove key) := by
  intro entry
  rw [Store.mem_remove]
  refine ⟨fun hmem => (hdrops entry).1 hmem.1, fun hmem hother => ⟨(hdrops entry).2 hmem hother, ?_⟩⟩
  rintro rfl
  exact hother hkey

section removals

variable (env : Env) (uninit : Uninit) (w : World)

/-- A list of deleted values gives the interface callback nothing to write. -/
theorem written_of_deleted (values : List sr_val_t) : written uninit w (values.map .deleted) = none := by
  have hcreates : (values.map change_t.deleted).any creates = false := by simp [creates]
  have hquiet : ((values.map change_t.deleted).any fun change => (sets change).isSome) = false := by simp [sets]
  have htype : latest typed "" (values.map change_t.deleted) = "" := by
    refine latest_eq_self fun change hmem value htyped => ?_
    obtain ⟨val, _, rfl⟩ := List.mem_map.mp hmem
    cases htyped
  rw [written, hcreates, htype, lastSet_of_quiet hquiet, Option.map_none]
  split
  · exact build_eq_none.mpr (.inr rfl)
  · rfl

theorem interface_removal {name : String} {values : List sr_val_t}
    (hkey : ∃ val ∈ values, sr_xpath_node_name_eq val.xpath "name" = true)
    (hown : ∀ val ∈ values, sr_xpath_node_name_eq val.xpath "name" = true → val.data.string_val = name) :
    let result := ietf_interface_create_cb env uninit (verify (values.map .deleted)) w
    DropsOnly {name} w.om result.world.om ∧ result.world.static_mapping_table = w.static_mapping_table := by
  let l : create_locals := (values.map .deleted).foldl advance (create_start uninit w)
  have haccepts : ∀ change ∈ values.map change_t.deleted,
      accepts env (create_start uninit w).world.om change = true := by
    intro change hmem
    obtain ⟨val, _, rfl⟩ := List.mem_map.mp hmem
    rfl
  have hom : l.world.om = w.om := foldl_advance_om _ _
  have htable : l.world.static_mapping_table = w.static_mapping_table := foldl_advance_table _ _
  have hpending : pending l = none :=
    (pending_eq_written (starts_create uninit w) _).trans (written_of_deleted uninit w _)
  rw [create_cb_verify, create_run_accepted env _ haccepts]
  by_cases hflag : l.create = true ∨ l.modify = true
  · obtain ⟨_, hsame, _⟩ := create_commit_rejected env hpending hflag
    refine ⟨?_, hsame.static_mapping_table.trans htable⟩
    rw [hsame.om, hom]
    exact dropsOnly_refl _ _
  · simp only [not_or, Bool.not_eq_true] at hflag
    cases hdropped : dropped l with
    | some dropped_name =>
      have hlatest : latest named "" (values.map .deleted) = name := by
        refine latest_eq_of_forall ?_ ?_
        · obtain ⟨val, hmem, hnode⟩ := hkey
          exact ⟨.deleted val, List.mem_map_of_mem hmem, by simp [named, hnode, hown val hmem hnode]⟩
        · intro change hmem other hnamed
          obtain ⟨val, hval, rfl⟩ := List.mem_map.mp hmem
          rw [named, Option.ite_none_right_eq_some, Option.some.injEq] at hnamed
          exact hnamed.2.symm.trans (hown val hval hnamed.1)
      have hname : l.builder.m_name = name := by
        rw [builder_of_foldl (starts_create uninit w)]
        exact hlatest
      have hdropped_name : dropped_name = name := by
        rw [ietf_interface.dropped] at hdropped
        split at hdropped
        · cases hdropped
        · exact (Option.some.inj hdropped).symm.trans hname
      subst hdropped_name
      obtain ⟨_, hremoved, _, htable_after, _⟩ := create_commit_removed env hdropped
      refine ⟨?_, htable_after.trans htable⟩
      rw [hremoved, hom]
      exact dropsOnly_remove (dropsOnly_refl _ _) rfl
    | none =>
      obtain ⟨_, hsame, _⟩ := create_commit_nothing env hflag.1 hflag.2 hdropped
      refine ⟨?_, hsame.static_mapping_table.trans htable⟩
      rw [hsame.om, hom]
      exact dropsOnly_refl _ _

/-- The OpenConfig callback ends at the first deleted value. -/
theorem openconfig_removal {values : List sr_val_t} (hsome : values ≠ []) :
    (openconfig_interfaces.oc_interfaces_config_cb env uninit (verify (values.map .deleted)) w).world.Same w := by
  obtain ⟨val, rest, rfl⟩ := List.exists_cons_of_ne_nil hsome
  have hnot : openconfig_interfaces.shared env w.om (.deleted val) = false := by
    simp [openconfig_interfaces.shared, openconfig_interfaces.common, openconfig_interfaces.keyOf]
  obtain ⟨_, hsame, _⟩ := @openconfig_interfaces.config_run_left env (openconfig_interfaces.config_start uninit w) []
    (rest.map .deleted) _ (by simp) hnot
  rw [openconfig_interfaces.config_cb_verify]
  exact hsame

theorem mapping_removal {index : UInt32} {values : List sr_val_t}
    (hkey : ∃ val ∈ values, sr_xpath_node_name_eq val.xpath "index" = true)
    (hown : ∀ val ∈ values, sr_xpath_node_name_eq val.xpath "index" = true → val.data.uint32_val = index) :
    let result := ietf_nat.nat_mapping_table_config_cb env uninit (verify (values.map .deleted)) w
    DropsOnly {ietf_nat.KEY index} w.om result.world.om ∧
      ∀ other ≠ index, result.world.static_mapping_table other = w.static_mapping_table other := by
  let changes : List change_t := values.map .deleted
  have haccepts : ∀ change ∈ changes, ietf_nat.accepts env.text change = true := by
    intro change hmem
    obtain ⟨val, _, rfl⟩ := List.mem_map.mp hmem
    rfl
  have hended := ietf_nat.ended_same env uninit w changes
  have htype : latest ietf_nat.typed "" changes = "" := by
    refine latest_eq_self fun change hmem value htyped => ?_
    obtain ⟨val, _, rfl⟩ := List.mem_map.mp hmem
    cases htyped
  have hmapping : (ietf_nat.ended env uninit w changes).builder.mapping = none := by
    rw [ietf_nat.ended_mapping, ietf_nat.lastMapping, htype]
    rfl
  obtain ⟨keyed, hkeyed, hnode⟩ := hkey
  have hindex : (ietf_nat.ended env uninit w changes).xindex = index := by
    rw [ietf_nat.ended_xindex, ietf_nat.lastIndex]
    refine latest_eq_of_forall ⟨.deleted keyed, List.mem_map_of_mem hkeyed, ?_⟩ fun change hmem other hindexed => ?_
    · simp [ietf_nat.indexed, hnode, hown keyed hkeyed hnode]
    · obtain ⟨val, hval, rfl⟩ := List.mem_map.mp hmem
      rw [ietf_nat.indexed, Option.ite_none_right_eq_some, Option.some.injEq] at hindexed
      exact hindexed.2.symm.trans (hown val hval hindexed.1)
  have hremove : (ietf_nat.ended env uninit w changes).remove = true := by
    rw [ietf_nat.ended_remove, Bool.or_eq_true, List.any_eq_true]
    exact .inr ⟨.deleted keyed, List.mem_map_of_mem hkeyed, hnode⟩
  rw [ietf_nat.nat_cb_accepted haccepts, ← ietf_nat.ended]
  cases hcreate : (ietf_nat.ended env uninit w changes).create with
  | true =>
    obtain ⟨_, hsame⟩ := ietf_nat.nat_commit_rejected env hcreate hmapping
    have hsame := hsame.trans hended
    refine ⟨?_, fun other _ => by rw [hsame.static_mapping_table]⟩
    rw [hsame.om]
    exact dropsOnly_refl _ _
  | false =>
    obtain ⟨_, hom, htable, _⟩ := ietf_nat.nat_commit_removed env hcreate hremove
    rw [hindex, hended.om] at hom
    rw [hindex, hended.static_mapping_table] at htable
    refine ⟨?_, fun other hother => by rw [htable, Function.update_of_ne hother]⟩
    rw [hom]
    exact dropsOnly_remove (dropsOnly_refl _ _) rfl

/-- The bindings of an address entry, of whatever length. -/
def entry_keys (text : AddressText) (itf : String) (addr : address) : Set String :=
  Set.range fun len => ietf_interface.KEY text itf { addr, len }

/-- A request to delete a binding of an address entry. -/
def ietf_interface.request_t.Drops (text : AddressText) (itf : String) (addr : address) (request : request_t) : Prop :=
  request.if_name = itf ∧ request.add = false ∧ text.from_string request.addr = some addr

section bindings

variable {itf : String} {addr : address}

theorem serve_drops {state : Om × Nat} {request : request_t} (hrequest : request.Drops env.text itf addr) {om : Om}
    (hdrops : DropsOnly (entry_keys env.text itf addr) om state.1) :
    DropsOnly (entry_keys env.text itf addr) om (request.serve env state).1 := by
  obtain ⟨rfl, hadd, haddr⟩ := hrequest
  cases halive : env.alive state.1 request.if_name with
  | false => simpa [request_t.serve, request_t.operation, request_t.reaches, halive] using hdrops
  | true =>
    have hremove := dropsOnly_remove hdrops (Set.mem_range_self request.pfx_len)
    simpa [request_t.serve, request_t.operation, request_t.reaches, prefix_t.make, halive, hadd, haddr,
      Operation.apply] using hremove

theorem foldl_serve_drops {requests : List request_t} (hall : ∀ request ∈ requests, request.Drops env.text itf addr)
    {state : Om × Nat} {om : Om} (hdrops : DropsOnly (entry_keys env.text itf addr) om state.1) :
    DropsOnly (entry_keys env.text itf addr) om (requests.foldl (request_t.serve env) state).1 := by
  induction requests generalizing state with
  | nil => exact hdrops
  | cons request requests ih =>
    rw [List.forall_mem_cons] at hall
    exact ih hall.2 (serve_drops env hall.1 hdrops)

/-- Of deleted values the loop remembers no address but that of the entry, and
    requests to delete it only. -/
theorem requests_of_deletion {values : List sr_val_t}
    (hitf : ∀ val ∈ values, sr_xpath_key_value val.xpath "interface" "name" = some itf)
    (hown : ∀ val ∈ values, val.type ≠ .SR_LIST_T → sr_xpath_node_name_eq val.xpath "ip" = true →
      env.text.from_string val.data.string_val = some addr)
    {m : memory_t} (hcreate : m.create = false) (hold : m.old_addr ≠ "" → env.text.from_string m.old_addr = some addr) :
    ∀ request ∈ requests env m (values.map .deleted), request.Drops env.text itf addr := by
  induction values generalizing m with
  | nil => simp [requests]
  | cons val values ih =>
    rw [List.forall_mem_cons] at hitf hown
    rw [List.map_cons]
    cases hproceeds : proceeds env (.deleted val) with
    | false => simp [requests_of_stopped hproceeds]
    | true =>
      have hread : (m.read env (.deleted val)).create = false ∧
          ((m.read env (.deleted val)).old_addr ≠ "" →
            env.text.from_string (m.read env (.deleted val)).old_addr = some addr) := by
        obtain ⟨-, hparse⟩ | ⟨-, hparse⟩ | ⟨-, len, hparse⟩ := parse_cases env val 0 m.old_addr m.old_prefix_len
        · simpa [memory_t.read, memory_t.read_old, hparse, hcreate] using hold
        · simpa [memory_t.read, memory_t.read_old, hparse, hcreate] using hold
        · simp only [memory_t.read, memory_t.read_old, hparse, Option.getD_some, hcreate, true_and, assigned_addr]
          by_cases hlist : val.type = .SR_LIST_T
          · simp [hlist]
          · by_cases hip : sr_xpath_node_name_eq val.xpath "ip" = true
            · simpa [hlist, hip] using fun _ => hown.1 hlist hip
            · simpa [hlist, hip] using hold
      obtain ⟨hread_create, hread_old⟩ := hread
      have hname : if_name_of (.deleted val) = some itf := hitf.1
      rw [requests_of_proceeds hname hproceeds, List.forall_mem_append]
      refine ⟨fun request hmem => ?_, ih hitf.2 hown.2 hread_create hread_old⟩
      simp only [memory_t.requests, memory_t.del_requests, memory_t.create_requests, hread_create, Bool.false_and,
        Bool.false_eq_true, if_false, List.append_nil] at hmem
      split at hmem
      · next hdel =>
        rw [List.mem_singleton] at hmem
        subst hmem
        rw [Bool.and_eq_true, Bool.not_eq_true', ← Bool.not_eq_true, String.isEmpty_iff] at hdel
        exact ⟨rfl, rfl, hread_old hdel.2⟩
      · cases hmem

end bindings

theorem binding_removal {itf : String} {addr : address} {values : List sr_val_t}
    (hitf : ∀ val ∈ values, sr_xpath_key_value val.xpath "interface" "name" = some itf)
    (hown : ∀ val ∈ values, val.type ≠ .SR_LIST_T → sr_xpath_node_name_eq val.xpath "ip" = true →
      env.text.from_string val.data.string_val = some addr) :
    let result := ietf_interface_ipv46_address_change_cb env (verify (values.map .deleted)) w
    DropsOnly (entry_keys env.text itf addr) w.om result.world.om ∧
      result.world.static_mapping_table = w.static_mapping_table := by
  have hcb : ietf_interface_ipv46_address_change_cb env (verify (values.map .deleted)) w =
      address_leave ((values.map change_t.deleted).foldlM (address_round env) { iter := .obtained, world := w }) := by
    simp [ietf_interface_ipv46_address_change_cb]
  have hserved := foldlM_served env { iter := .obtained, world := w } (values.map .deleted)
  have hrequests := requests_of_deletion env hitf hown (m := {}) rfl fun hne => absurd rfl hne
  dsimp only
  rw [hcb]
  refine ⟨?_, hserved.table⟩
  rw [hserved.om]
  exact foldl_serve_drops env hrequests (dropsOnly_refl _ _)

end removals

/-- What belongs to one entry of the configuration: an address entry is known by
    its address, whatever the prefix length. -/
def SameEntry : configured_t → configured_t → Prop
  | .binding itf pfx, .binding otherItf other => itf = otherItf ∧ pfx.addr = other.addr
  | first, second => first = second

/-- Every object of another entry, and without a colliding key, is left as it
    was; nothing appears; and other indices of the table stay. -/
structure LeavesOthers (text : AddressText) (removed : configured_t) (before after : World) : Prop where
  kept : ∀ key obj other, (key, obj) ∈ before.om → obj.Realises other → key = other.key text →
    (∀ same, SameEntry removed same → other ≠ same ∧ ¬ Collide text same other) → (key, obj) ∈ after.om
  nothing_new : ∀ entry ∈ after.om, entry ∈ before.om
  table : ∀ index, (∀ id, removed ≠ .mapping id index) →
    after.static_mapping_table index = before.static_mapping_table index

theorem leavesOthers_of_drops {text : AddressText} {removed : configured_t} {keys : Set String} {before after : World}
    (hkeys : ∀ key ∈ keys, ∃ same, SameEntry removed same ∧ key = same.key text)
    (hdrops : DropsOnly keys before.om after.om)
    (htable : ∀ index, (∀ id, removed ≠ .mapping id index) →
      after.static_mapping_table index = before.static_mapping_table index) :
    LeavesOthers text removed before after where
  kept := by
    intro key obj other hmem _ hkey hother
    refine (hdrops _).2 hmem fun hdropped => ?_
    obtain ⟨same, hsame, hsame_key⟩ := hkeys key hdropped
    obtain ⟨hdistinct, hcollide⟩ := hother same hsame
    exact hcollide ((key_eq_iff text hdistinct.symm).mp (hsame_key.symm.trans hkey))
  nothing_new := fun entry => (hdrops entry).1
  table := htable

/-- Whatever the state, deleting one object leaves the others. -/
theorem deletion_leavesOthers {env : Env} {removed : configured_t} {subscriber : subscriber_t}
    {changes : List change_t} (hdeletes : Deletes env.text removed subscriber changes) (uninit : Uninit) (w : World) :
    LeavesOthers env.text removed w (subscriber.call env uninit (verify changes) w).world := by
  cases hdeletes with
  | interface name values hkey hown =>
    obtain ⟨hdrops, htable⟩ := interface_removal env uninit w hkey hown
    exact leavesOthers_of_drops (by simp [SameEntry, configured_t.key]) hdrops fun index _ => congrFun htable index
  | openconfig name values hsome =>
    have hsame := openconfig_removal env uninit w hsome
    have hdrops : DropsOnly ∅ w.om (openconfig_interfaces.oc_interfaces_config_cb env uninit
        (verify (values.map .deleted)) w).world.om := by
      rw [hsame.om]
      exact dropsOnly_refl ∅ w.om
    exact leavesOthers_of_drops (by simp) hdrops fun index _ => congrFun hsame.static_mapping_table index
  | binding itf pfx values hitf hown =>
    obtain ⟨hdrops, htable⟩ := binding_removal env w hitf hown
    refine leavesOthers_of_drops ?_ hdrops fun index _ => congrFun htable index
    rintro _ ⟨len, rfl⟩
    exact ⟨.binding itf { pfx with len }, ⟨rfl, rfl⟩, rfl⟩
  | mapping id index values hkey hown =>
    obtain ⟨hdrops, htable⟩ := mapping_removal env uninit w hkey hown
    refine leavesOthers_of_drops (fun key hmem => ?_) hdrops fun other hother => htable other ?_
    · exact ⟨.mapping id index, rfl, hmem⟩
    · rintro rfl
      exact hother id rfl

/-- Two configured objects have two keys, unless an interface is named like the
    key of another object; the mappings of all instances are in one table by their
    index. In every state that can be reached each object is under its own key, and
    deleting one leaves those of other entries that do not share a key with it. -/
theorem keys_and_removals (env : Env) :
    (∀ first second : configured_t, first ≠ second → ¬ Collide env.text first second →
      first.key env.text ≠ second.key env.text) ∧
    (∀ id id' index index', (configured_t.mapping id index).key env.text =
      (configured_t.mapping id' index').key env.text ↔ index = index') ∧
    ∀ w, Reachable env w → w.om.Keyed (OwnKey env.text) ∧
      ∀ removed subscriber changes uninit, Deletes env.text removed subscriber changes →
        LeavesOthers env.text removed w (subscriber.call env uninit (verify changes) w).world := by
  refine ⟨fun first second hdistinct hcollide => ?_, fun _ _ _ _ => ietf_nat.KEY_injective.eq_iff,
    fun w hreachable => ⟨reachable_keyed hreachable, fun _ _ _ uninit hdeletes => ?_⟩⟩
  · rwa [ne_eq, key_eq_iff env.text hdistinct]
  · exact deletion_leavesOthers hdeletes uninit w

section samples

def create_interface (name : String) : call_t where
  subscriber := .ietf_interface_create_cb
  uninit := cleared
  delivery := verify (interface_changes (.created name true))

/-- 10.0.0.1 seen as 192.0.2.1. -/
def create_mapping (index : UInt32) : call_t where
  subscriber := .nat_mapping_table_config_cb
  uninit := cleared
  delivery := verify (ietf_nat.mapping_changes plainText
    (.created index (⟨.v4 0x0A000001, 32⟩, ⟨.v4 0xC0000201, 32⟩)))

def mapping_object : object := .nat_static (.v4 0x0A000001) (.v4 0xC0000201)

/-- The state after an interface and a mapping are created. -/
def interface_and_mapping (name : String) (index : UInt32) : World :=
  [create_interface name, create_mapping index].foldl (call_t.step counting) World.empty

end samples

/-- Deleting an interface leaves a mapping. -/
theorem deleting_interface_keeps_mapping :
    ("1", mapping_object) ∈ (subscriber_t.ietf_interface_create_cb.call counting cleared
      (verify (interface_changes (.deleted "host-vpp1" true))) (interface_and_mapping "host-vpp1" 1)).world.om := by
  have hreachable : Reachable counting (interface_and_mapping "host-vpp1" 1) := ⟨World.empty, _, rfl, rfl⟩
  have hleaves := ((keys_and_removals counting).2.2 _ hreachable).2 _ _ _ cleared
    (.interface "host-vpp1" (interface_entry "host-vpp1" true) (by decide) (by decide))
  refine hleaves.kept "1" mapping_object (.mapping 0 1) (by decide +kernel) trivial (by decide) ?_
  rintro same rfl
  exact ⟨by decide, by simp [Collide]; decide⟩

/-- An interface named like the index of a mapping takes it along. -/
theorem deleting_interface_drops_mapping :
    (configured_t.interface "7").key plainText = (configured_t.mapping 0 7).key plainText ∧
      (configured_t.mapping 0 1).key plainText = (configured_t.mapping 1 1).key plainText ∧
      Reachable counting (interface_and_mapping "7" 7) ∧
      ("7", mapping_object) ∈ (interface_and_mapping "7" 7).om ∧
      ("7", mapping_object) ∉ (subscriber_t.ietf_interface_create_cb.call counting cleared
        (verify (interface_changes (.deleted "7" true))) (interface_and_mapping "7" 7)).world.om :=
  ⟨by decide, by decide, ⟨World.empty, _, rfl, rfl⟩, by decide +kernel, by decide +kernel⟩

end sweetcomb
