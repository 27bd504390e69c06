import Sweetcomb.Datastore
import Sweetcomb.Sysrepo
import Sweetcomb.Vom

open datastore keyed_store

namespace sweetcomb.ietf_interface

/-- The list node of one interface. -/
def interface_node (name : String) : xpath_t :=
  [{ name := "interfaces" }, { name := "interface", keys := [("name", name)] }]

def interface_leaf (name leaf : String) : xpath_t :=
  interface_node name ++ [{ name := leaf }]

def name_leaf (name : String) : sr_val_t :=
  { xpath := interface_leaf name "name", data := { string_val := name } }

def type_leaf (name : String) : sr_val_t :=
  { xpath := interface_leaf name "type", data := { string_val := "iana-if-type:ethernetCsmacd" } }

def enabled_leaf (name : String) (enabled : Bool) : sr_val_t :=
  { xpath := interface_leaf name "enabled", data := { bool_val := enabled } }

/-- An ethernet interface as sysrepo lists it: the list node and its leaves. -/
def interface_entry (name : String) (enabled : Bool) : List sr_val_t :=
  [{ xpath := interface_node name, type := .SR_LIST_T },
    name_leaf name, type_leaf name, enabled_leaf name enabled]

/-- The changes that sysrepo delivers for one edit of an interface. -/
def interface_changes : edit String Bool → List change_t
  | .created name enabled => (interface_entry name enabled).map .created
  | .deleted name enabled => (interface_entry name enabled).map .deleted
  | .modified name old new => [.modified (enabled_leaf name old) (enabled_leaf name new)]

/-- What OM holds of an ethernet interface in the given admin state. -/
def ethernet (enabled : Bool) : interface_attrs :=
  { type := "ETHERNET", state := .from_int enabled.toNat }

theorem ethernet_injective : Function.Injective ethernet := by decide

/-- The interfaces committed to OM are those of the datastore, each under its
    name and in its admin state, and their shared instances are ethernet. -/
structure Synced (w : World) (ds : Datastore String Bool) : Prop where
  held : ∀ key name attrs, (key, .interface name attrs) ∈ w.om ↔
    key = name ∧ (ds name).map ethernet = some attrs
  shared : ∀ name, (ds name).isSome → (w.instances name).type = "ETHERNET"

/-- VOM finds every interface that was committed to OM. -/
def KeepsCommitted (env : Env) : Prop :=
  ∀ om name attrs, (name, .interface name attrs) ∈ om → env.alive om name = true

section values

variable (name other : String) (value old new : Bool)

@[simp] theorem node_name_eq_interface_node (leaf : String) :
    sr_xpath_node_name_eq (interface_node name) leaf = ("interface" == leaf) := rfl

@[simp] theorem node_name_eq_interface_leaf (leaf node : String) :
    sr_xpath_node_name_eq (interface_leaf name leaf) node = (leaf == node) := rfl

@[simp] theorem key_value_interface_leaf (leaf : String) :
    sr_xpath_key_value (interface_leaf name leaf) "interface" "name" = some name := rfl

end values

section synced

variable {w : World} {ds : Datastore String Bool}

theorem Synced.write (hsync : Synced w ds) {after : World} {name : String} {enabled : Bool}
    (hom : after.om = w.om.write object.singular name (.interface name (ethernet enabled)))
    (hinstances : after.instances = Function.update w.instances name (ethernet enabled)) :
    Synced after (Function.update ds name (some enabled)) where
  held := by
    intro key other attrs
    rw [hom, Store.mem_write, hsync.held]
    by_cases hother : other = name
    · subst hother
      by_cases hkey : key = other <;> simp [hkey, object.singular, eq_comm]
    · simp [hother, object.singular]
  shared := by
    intro other hsome
    rw [hinstances]
    by_cases hother : other = name
    · subst hother
      simp [ethernet]
    · rw [Function.update_of_ne hother]
      exact hsync.shared other (by simpa [hother] using hsome)

theorem Synced.remove (hsync : Synced w ds) {after : World} {name : String}
    (hom : after.om = w.om.remove name) (hinstances : after.instances = w.instances) :
    Synced after (Function.update ds name none) where
  held := by
    intro key other attrs
    rw [hom, Store.mem_remove, hsync.held]
    by_cases hother : other = name
    · subst hother
      simp only [Function.update_self, Option.map_none, reduceCtorEq, and_false, iff_false]
      rintro ⟨⟨hkey, _⟩, hdistinct⟩
      exact hdistinct hkey
    · simp only [Function.update_of_ne hother]
      constructor
      · exact fun hmem => hmem.1
      · rintro ⟨rfl, hheld⟩
        exact ⟨⟨rfl, hheld⟩, hother⟩
  shared := by
    intro other hsome
    rw [hinstances]
    by_cases hother : other = name
    · subst hother
      simp at hsome
    · exact hsync.shared other (by simpa [hother] using hsome)

end synced

end sweetcomb.ietf_interface
