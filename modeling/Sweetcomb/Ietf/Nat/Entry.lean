import Sweetcomb.Commit
import Sweetcomb.Ietf.Nat.Outcome

open datastore keyed_store loop

namespace sweetcomb.ietf_nat

/-- The internal and the external prefix of a mapping entry. -/
abbrev mapping_t := utils_prefix_t × utils_prefix_t

abbrev mapping_edit := edit UInt32 mapping_t

abbrev mapping_datastore := Datastore UInt32 mapping_t

def mapping_node (index : UInt32) : xpath_t :=
  [{ name := "nat" }, { name := "instances" }, { name := "instance", keys := [("id", "0")] },
    { name := "mapping-table" }, { name := "mapping-entry", keys := [("index", index.toNat.repr)] }]

def mapping_leaf (index : UInt32) (leaf : String) (data : sr_data_t) : sr_val_t :=
  { xpath := mapping_node index ++ [{ name := leaf }], data }

@[simp] theorem node_name_eq_mapping_node (index : UInt32) (name : String) :
    sr_xpath_node_name_eq (mapping_node index) name = ("mapping-entry" == name) := rfl

@[simp] theorem node_name_eq_mapping_leaf (index : UInt32) (leaf : String) (data : sr_data_t) (name : String) :
    sr_xpath_node_name_eq (mapping_leaf index leaf data).xpath name = (leaf == name) := rfl

@[simp] theorem mapping_leaf_data (index : UInt32) (leaf : String) (data : sr_data_t) :
    (mapping_leaf index leaf data).data = data := rfl

def index_leaf (index : UInt32) : sr_val_t :=
  mapping_leaf index "index" { uint32_val := index }

def type_leaf (index : UInt32) : sr_val_t :=
  mapping_leaf index "type" { string_val := "static" }

def prefix_leaf (text : AddressText) (index : UInt32) (leaf : String) (pfx : utils_prefix_t) : sr_val_t :=
  mapping_leaf index leaf { string_val := pfx.to_string text }

/-- A static mapping entry as sysrepo lists it: the list node and its leaves. -/
def mapping_entry (text : AddressText) (index : UInt32) (mapping : mapping_t) : List sr_val_t :=
  [{ xpath := mapping_node index, type := .SR_LIST_T }, index_leaf index, type_leaf index,
    prefix_leaf text index "internal-src-address" mapping.1,
    prefix_leaf text index "external-src-address" mapping.2]

def mapping_changes (text : AddressText) : mapping_edit → List change_t
  | .created index mapping => (mapping_entry text index mapping).map .created
  | .deleted index mapping => (mapping_entry text index mapping).map .deleted
  | .modified index old new =>
    [.modified (prefix_leaf text index "internal-src-address" old.1)
      (prefix_leaf text index "internal-src-address" new.1),
    .modified (prefix_leaf text index "external-src-address" old.2)
      (prefix_leaf text index "external-src-address" new.2)]

/-- The addresses of a mapping. The prefix lengths are not used. -/
def mapping_pair (mapping : mapping_t) : nat_pair_t :=
  (mapping.1.m_address, mapping.2.m_address)

/-- The table holds the mappings of the datastore, and OM holds under each index
    exactly the mapping of the table. -/
structure Synced (w : World) (ds : mapping_datastore) : Prop where
  table : ∀ index, w.static_mapping_table index = (ds index).map mapping_pair
  held : ∀ index object, (KEY index, object) ∈ w.om ↔
    ∃ pair, w.static_mapping_table index = some pair ∧ object = .nat_static pair.1 pair.2

theorem KEY_injective : Function.Injective KEY := by
  intro first second h
  exact UInt32.toNat_inj.mp (repr_injective h)

section synced

variable {w : World} {ds : mapping_datastore} (hsync : Synced w ds) {after : World} {index : UInt32}

include hsync

theorem Synced.update_table (mapping : Option mapping_t) (other : UInt32) :
    Function.update w.static_mapping_table index (mapping.map mapping_pair) other =
      (Function.update ds index mapping other).map mapping_pair := by
  by_cases hother : other = index
  · subst hother
    simp
  · simp [hother, hsync.table]

theorem Synced.write {mapping : mapping_t} (hfresh : ds index = none)
    (hom : after.om = w.om.write object.singular (KEY index)
      (.nat_static (mapping_pair mapping).1 (mapping_pair mapping).2))
    (htable : after.static_mapping_table =
      Function.update w.static_mapping_table index (some (mapping_pair mapping))) :
    Synced after (Function.update ds index (some mapping)) where
  table := by
    intro other
    rw [htable]
    exact hsync.update_table (some mapping) other
  held := by
    intro other object
    rw [hom, htable, Store.mem_write_of_rigid (rigid_nat_static _ _), hsync.held]
    by_cases hother : other = index
    · subst hother
      simp [hsync.table, hfresh]
    · simp [hother, KEY_injective.eq_iff]

theorem Synced.remove (hom : after.om = w.om.remove (KEY index))
    (htable : after.static_mapping_table = Function.update w.static_mapping_table index none) :
    Synced after (Function.update ds index none) where
  table := by
    intro other
    rw [htable]
    exact hsync.update_table none other
  held := by
    intro other object
    rw [hom, htable, Store.mem_remove, hsync.held]
    by_cases hother : other = index
    · subst hother
      simp
    · simp [hother, KEY_injective.eq_iff]

end synced

end sweetcomb.ietf_nat
