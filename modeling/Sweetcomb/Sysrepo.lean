import Mathlib.Data.List.Basic

namespace sweetcomb

/-- Return codes of the sysrepo client library. -/
inductive sr_error_t where
  | SR_ERR_OK
  | SR_ERR_INVAL_ARG
  | SR_ERR_NOMEM
  | SR_ERR_NOT_FOUND
  | SR_ERR_INTERNAL
  | SR_ERR_INIT_FAILED
  | SR_ERR_IO
  | SR_ERR_DISCONNECT
  | SR_ERR_MALFORMED_MSG
  | SR_ERR_UNSUPPORTED
  | SR_ERR_UNKNOWN_MODEL
  | SR_ERR_BAD_ELEMENT
  | SR_ERR_VALIDATION_FAILED
  | SR_ERR_OPERATION_FAILED
  | SR_ERR_DATA_EXISTS
  | SR_ERR_DATA_MISSING
  | SR_ERR_UNAUTHORIZED
  | SR_ERR_INVAL_USER
  | SR_ERR_LOCKED
  | SR_ERR_TIME_OUT
  | SR_ERR_RESTART_NEEDED
  | SR_ERR_VERSION_MISMATCH
deriving DecidableEq

/-- Phase of a commit in which a subscriber is called. -/
inductive sr_notif_event_t where
  | SR_EV_VERIFY
  | SR_EV_APPLY
  | SR_EV_ABORT
  | SR_EV_ENABLED
deriving DecidableEq

inductive sr_change_oper_t where
  | SR_OP_CREATED
  | SR_OP_MODIFIED
  | SR_OP_DELETED
  | SR_OP_MOVED
deriving DecidableEq

/-- The types of node that the plugins tell apart; the others are leaves. -/
inductive sr_type_t where
  | SR_LIST_T
  | SR_CONTAINER_T
  | SR_LEAF_T
deriving DecidableEq

/-- The union of a value's data, one member for each C type the plugins read. -/
structure sr_data_t where
  string_val : String := ""
  bool_val : Bool := false
  uint8_val : UInt8 := 0
  uint32_val : UInt32 := 0
deriving DecidableEq

/-- One step of a data path: a node name and the list keys of its predicate. -/
structure xpath_node where
  name : String
  keys : List (String × String) := []
deriving DecidableEq

abbrev xpath_t := List xpath_node

structure sr_val_t where
  xpath : xpath_t
  type : sr_type_t := .SR_LEAF_T
  data : sr_data_t := {}
deriving DecidableEq

/-- A value as sysrepo hands it out: a copy at an address of its own, which the
    caller must release. -/
structure sr_val_ptr where
  addr : Nat
  val : sr_val_t
deriving DecidableEq

/-- Compares the last node of the path only. -/
def sr_xpath_node_name_eq (xpath : xpath_t) (name : String) : Bool :=
  match xpath.getLast? with
  | some node => node.name == name
  | none => false

/-- The name of the last node, when there is one. -/
def leaf_name (xpath : xpath_t) : Option String :=
  xpath.getLast?.map xpath_node.name

theorem sr_xpath_node_name_eq_decide (xpath : xpath_t) (name : String) :
    sr_xpath_node_name_eq xpath name = decide (leaf_name xpath = some name) := by
  unfold sr_xpath_node_name_eq leaf_name
  cases xpath.getLast? with
  | none => simp
  | some node => simp [Bool.beq_eq_decide_eq]

/-- The value of a list key, or the null pointer when the path has no such
    node or the node no such key. -/
def sr_xpath_key_value (xpath : xpath_t) (node key : String) : Option String :=
  (xpath.find? fun step => step.name == node).bind fun step => step.keys.lookup key

/-- One change of a commit. A created item has no old value and a deleted item
    no new one; a moved item comes with its predecessor, if it has one. -/
inductive change_t where
  | created (new_val : sr_val_t)
  | modified (old_val new_val : sr_val_t)
  | deleted (old_val : sr_val_t)
  | moved (old_val : Option sr_val_t) (new_val : sr_val_t)
deriving DecidableEq

@[simp]
def change_t.op : change_t → sr_change_oper_t
  | .created _ => .SR_OP_CREATED
  | .modified _ _ => .SR_OP_MODIFIED
  | .deleted _ => .SR_OP_DELETED
  | .moved _ _ => .SR_OP_MOVED

@[simp]
def change_t.old_val : change_t → Option sr_val_t
  | .created _ => none
  | .modified old_val _ => some old_val
  | .deleted old_val => some old_val
  | .moved old_val _ => old_val

@[simp]
def change_t.new_val : change_t → Option sr_val_t
  | .created new_val => some new_val
  | .modified _ new_val => some new_val
  | .deleted _ => none
  | .moved _ new_val => some new_val

/-- What sysrepo supplies to one call of a configuration callback: the event,
    the result of `sr_get_changes_iter` and the changes its iterator yields. -/
structure delivery_t where
  event : sr_notif_event_t
  iter_rc : sr_error_t := .SR_ERR_OK
  changes : List change_t

/-- A call in the verify phase whose changes can be read. -/
abbrev verify (changes : List change_t) : delivery_t :=
  { event := .SR_EV_VERIFY, changes }

/-- The iterator variable of a callback: null, never assigned, or obtained. -/
inductive iter_ptr where
  | null
  | indeterminate
  | obtained
deriving DecidableEq

/-- A release made by a callback. -/
inductive free_t where
  | val (addr : Nat)
  | change_iter (it : iter_ptr)
deriving DecidableEq

/-- Ways in which a callback ends without returning a code. -/
inductive fault_t where
  | absent_value
  | absent_key
  | null_interface
  | uncaught_exception
  | stack_overflow
deriving DecidableEq

end sweetcomb
