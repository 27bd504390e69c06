import Sweetcomb.Buffer
import Sweetcomb.Sysrepo
import Mathlib.Data.List.Infix
import Mathlib.Data.Vector.Basic

open buffer

namespace sweetcomb

/-- What VPP reports of one interface. VPP has no interface without a name. -/
structure sw_interface_details where
  interface_name : String
  sw_if_index : UInt32
  flags : UInt32
  link_mtu : UInt16
  link_speed : UInt32
  l2_address : List.Vector UInt8 6
  named : interface_name ≠ ""
deriving DecidableEq

def IF_STATUS_API_FLAG_ADMIN_UP : UInt32 := 1

def IF_STATUS_API_FLAG_LINK_UP : UInt32 := 2

/-- Flags are a set of bits. -/
def sw_interface_details.has (interface : sw_interface_details) (flag : UInt32) : Bool :=
  interface.flags &&& flag == flag

/-- An interface on a link of the host. -/
def host_interface (interface_name : String) (sw_if_index flags : UInt32) (named : interface_name ≠ "") :
    sw_interface_details where
  interface_name
  sw_if_index
  flags
  link_mtu := 9000
  link_speed := 0
  l2_address := .replicate 6 0
  named

/-- A request to dump interfaces. -/
structure sw_interface_dump where
  name_filter_valid : Bool
  name_filter : String

/-- VPP answers in its own order with every interface whose name contains the
    filter. -/
def sw_interface_dump.answer (request : sw_interface_dump) (vpp : List sw_interface_details) :
    List sw_interface_details :=
  if request.name_filter_valid then
    vpp.filter fun interface => request.name_filter.toList <:+: interface.interface_name.toList
  else vpp

structure interface_dump where
  m_name : String := ""

/-- `interface_dump::issue`. -/
def interface_dump.issue (dump : interface_dump) : sw_interface_dump :=
  if dump.m_name.isEmpty then { name_filter_valid := false, name_filter := "" }
  else { name_filter_valid := true, name_filter := dump.m_name }

/-- The records of a dump, once it is written. -/
def interface_dump.write (dump : interface_dump) (vpp : List sw_interface_details) : List sw_interface_details :=
  dump.issue.answer vpp

/-- The data of a value of operational state, under its sysrepo type. -/
inductive state_data_t where
  | SR_ENUM_T (enum_val : String)
  | SR_STRING_T (string_val : String)
  | SR_IDENTITYREF_T (identityref_val : String)
  | SR_BOOL_T (bool_val : Bool)
  | SR_INT32_T (int32_val : Int32)
  | SR_UINT16_T (uint16_val : UInt16)
  | SR_UINT32_T (uint32_val : UInt32)
  | SR_UINT64_T (uint64_val : UInt64)
deriving DecidableEq

/-- A value of operational state. -/
structure state_val_t where
  xpath : xpath_t
  data : state_data_t
deriving DecidableEq

/-- Ways in which a state callback ends without returning a code. -/
inductive state_fault_t where
  | out_of_bounds
  | end_of_dump
  | absent_key
deriving DecidableEq

/-- What a state callback hands to sysrepo. -/
structure state_reply where
  rc : sr_error_t
  values : List (Option state_val_t) := []
deriving DecidableEq

/-- Allocates an array of values, unless it reports an error. -/
def sr_new_values (rc : sr_error_t) (values_cnt : Nat) : Except sr_error_t (Buffer state_val_t) :=
  if rc = .SR_ERR_OK then .ok (Buffer.new values_cnt) else .error rc

/-- Fills the value at the running index and goes on to the next. -/
def fill (val : Buffer state_val_t) (xpath : xpath_t) (data : state_data_t) :
    Except state_fault_t (Buffer state_val_t) :=
  match val.push { xpath, data } with
  | some val => .ok val
  | none => .error .out_of_bounds

/-- The path of a list entry: the key goes to the last node. -/
def entry_of (xpath : xpath_t) (key value : String) : xpath_t :=
  match xpath.getLast? with
  | some node => xpath.dropLast ++ [{ node with keys := node.keys ++ [(key, value)] }]
  | none => []

/-- The path of a leaf. -/
def leaf_of (xpath : xpath_t) (name : String) : xpath_t :=
  xpath ++ [{ name := name }]

theorem interface_dump.write_all (vpp : List sw_interface_details) : ({} : interface_dump).write vpp = vpp := rfl

/-- A dump of one name is a search for the name as a part. -/
theorem interface_dump.write_named {name : String} (hname : name ≠ "") (vpp : List sw_interface_details) :
    ({ m_name := name } : interface_dump).write vpp =
      vpp.filter fun interface => name.toList <:+: interface.interface_name.toList := by
  have hvalid : name.isEmpty = false := by simpa using hname
  simp [interface_dump.write, interface_dump.issue, sw_interface_dump.answer, hvalid]

/-- Filling with room behind the values appends one. -/
theorem fill_appends {val : Buffer state_val_t} {values : List state_val_t} {size : Nat} (h : val.Holds values size)
    (hroom : values.length < size) (xpath : xpath_t) (data : state_data_t) :
    ∃ val', fill val xpath data = .ok val' ∧ val'.Holds (values ++ [{ xpath := xpath, data := data }]) size := by
  obtain ⟨val', hpush, hholds⟩ := h.push hroom { xpath, data }
  refine ⟨val', ?_, hholds⟩
  rw [fill, hpush]

end sweetcomb
