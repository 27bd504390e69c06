import Sweetcomb.Callback
import Sweetcomb.Oper

open buffer

namespace sweetcomb.ietf_interface

/-- One byte as `%02x` prints it. -/
def hex_byte (byte : UInt8) : List Char :=
  let digits := Nat.toDigits 16 byte.toNat
  List.replicate (2 - digits.length) '0' ++ digits

/-- `%02x:%02x:%02x:%02x:%02x:%02x`. -/
def phys_address (l2_address : List.Vector UInt8 6) : String :=
  String.ofList ([':'].intercalate (l2_address.toList.map hex_byte))

/-- The loop body of `ietf_interface_state_cb`. Flags are compared as a whole
    word, and the index is narrowed to a signed number. -/
def state_values (xpath : xpath_t) (val : Buffer state_val_t) (interface : sw_interface_details) :
    Except state_fault_t (Buffer state_val_t) := do
  let entry := entry_of xpath "name" interface.interface_name
  let val ← fill val (leaf_of entry "admin-status")
    (.SR_ENUM_T (if interface.flags = IF_STATUS_API_FLAG_ADMIN_UP then "up" else "down"))
  let val ← fill val (leaf_of entry "oper-status")
    (.SR_ENUM_T (if interface.flags = IF_STATUS_API_FLAG_LINK_UP then "up" else "down"))
  let val ← fill val (leaf_of entry "phys-address") (.SR_STRING_T (phys_address interface.l2_address))
  let val ← fill val (leaf_of entry "if-index") (.SR_INT32_T interface.sw_if_index.toInt32)
  fill val (leaf_of entry "speed") (.SR_UINT64_T interface.link_speed.toUInt64)

/-- `ietf_interface_state_cb`. The number of values per interface is one more
    than the loop writes, and room is made for one more interface than there
    are. -/
def ietf_interface_state_cb (vpp : List sw_interface_details) (new_values : sr_error_t) (xpath : xpath_t) :
    Except state_fault_t state_reply :=
  let vc := 6
  if sr_xpath_node_name_eq xpath "interface" = false then .ok { rc := .SR_ERR_OK }
  else
    let dump := ({} : interface_dump).write vpp
    let interface_num := dump.length
    match sr_new_values new_values ((interface_num + 1) * vc) with
    | .error rc => .ok { rc }
    | .ok val => do
      let val ← dump.foldlM (state_values xpath) val
      .ok { rc := .SR_ERR_OK, values := val.contents }

/-- The five values of a record. -/
def rendered (xpath : xpath_t) (interface : sw_interface_details) : List state_val_t :=
  let entry := entry_of xpath "name" interface.interface_name
  [{ xpath := leaf_of entry "admin-status"
     data := .SR_ENUM_T (if interface.flags = IF_STATUS_API_FLAG_ADMIN_UP then "up" else "down") },
   { xpath := leaf_of entry "oper-status"
     data := .SR_ENUM_T (if interface.flags = IF_STATUS_API_FLAG_LINK_UP then "up" else "down") },
   { xpath := leaf_of entry "phys-address"
     data := .SR_STRING_T (phys_address interface.l2_address) },
   { xpath := leaf_of entry "if-index"
     data := .SR_INT32_T interface.sw_if_index.toInt32 },
   { xpath := leaf_of entry "speed"
     data := .SR_UINT64_T interface.link_speed.toUInt64 }]

variable {xpath : xpath_t} {vpp : List sw_interface_details}

theorem rendered_length (interface : sw_interface_details) : (rendered xpath interface).length = 5 := rfl

theorem length_flatMap_rendered (dump : List sw_interface_details) :
    (dump.flatMap (rendered xpath)).length = dump.length * 5 := by
  simp [List.length_flatMap, rendered_length]

theorem state_values_appends (xpath : xpath_t) {val : Buffer state_val_t} {values : List state_val_t} {size : Nat}
    (h : val.Holds values size) (interface : sw_interface_details) (hroom : values.length + 5 ≤ size) :
    ∃ val', state_values xpath val interface = .ok val' ∧ val'.Holds (values ++ rendered xpath interface) size := by
  obtain ⟨val₁, hfill₁, h₁⟩ := fill_appends h (by omega)
    (leaf_of (entry_of xpath "name" interface.interface_name) "admin-status")
    (.SR_ENUM_T (if interface.flags = IF_STATUS_API_FLAG_ADMIN_UP then "up" else "down"))
  obtain ⟨val₂, hfill₂, h₂⟩ := fill_appends h₁ (by simp; omega)
    (leaf_of (entry_of xpath "name" interface.interface_name) "oper-status")
    (.SR_ENUM_T (if interface.flags = IF_STATUS_API_FLAG_LINK_UP then "up" else "down"))
  obtain ⟨val₃, hfill₃, h₃⟩ := fill_appends h₂ (by simp; omega)
    (leaf_of (entry_of xpath "name" interface.interface_name) "phys-address")
    (.SR_STRING_T (phys_address interface.l2_address))
  obtain ⟨val₄, hfill₄, h₄⟩ := fill_appends h₃ (by simp; omega)
    (leaf_of (entry_of xpath "name" interface.interface_name) "if-index")
    (.SR_INT32_T interface.sw_if_index.toInt32)
  obtain ⟨val₅, hfill₅, h₅⟩ := fill_appends h₄ (by simp; omega)
    (leaf_of (entry_of xpath "name" interface.interface_name) "speed")
    (.SR_UINT64_T interface.link_speed.toUInt64)
  refine ⟨val₅, ?_, by simpa [rendered] using h₅⟩
  simp only [state_values, hfill₁, hfill₂, hfill₃, hfill₄, ok_bind]
  exact hfill₅

/-- Every record is rendered, in the order of the dump, and the array has room
    for all of them. -/
theorem ietf_interface_state_cb_interface (hnode : sr_xpath_node_name_eq xpath "interface" = true) :
    ietf_interface_state_cb vpp .SR_ERR_OK xpath =
      .ok { rc := .SR_ERR_OK, values := (vpp.flatMap (rendered xpath)).map some } := by
  have hroom : ([] : List state_val_t).length + (vpp.flatMap (rendered xpath)).length ≤ (vpp.length + 1) * 6 := by
    rw [length_flatMap_rendered, List.length_nil]
    omega
  obtain ⟨val, hloop, hholds⟩ := Buffer.Holds.foldlM_groups
    (fun _ _ interface h hroom => state_values_appends xpath h interface hroom)
    (Buffer.new_holds ((vpp.length + 1) * 6)) hroom
  have hcontents := hholds.contents
  rw [List.nil_append] at hcontents
  simp [ietf_interface_state_cb, hnode, interface_dump.write_all, sr_new_values, hloop, hcontents]

end sweetcomb.ietf_interface
