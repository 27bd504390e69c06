import Sweetcomb.Asio.Text
import Sweetcomb.Oper.Replies
import Sweetcomb.Oper.Status

namespace sweetcomb

section text

/-- A byte is printed in its two hexadecimal digits. -/
theorem hex_byte_eq (byte : UInt8) : ietf_interface.hex_byte byte = (positional 16 2 byte.toNat).map Nat.digitChar := by
  have hbound := byte.toNat_lt
  by_cases hsmall : byte.toNat < 16
  · have hquotient : byte.toNat / 16 = 0 := Nat.div_eq_of_lt hsmall
    simp [ietf_interface.hex_byte, positional, Nat.toDigits_of_lt_base hsmall, hquotient, Nat.mod_eq_of_lt hsmall]
  · have hquotient : byte.toNat / 16 < 16 := by omega
    simp [ietf_interface.hex_byte, positional, Nat.toDigits_of_base_le (by decide) (not_lt.mp hsmall),
      Nat.toDigits_of_lt_base hquotient, Nat.mod_eq_of_lt hquotient]

theorem hexGroupValue_hex_byte (byte : UInt8) : hexGroupValue (ietf_interface.hex_byte byte) = byte.toNat := by
  have hvalue : ∀ digit < 16, hexValue (Nat.digitChar digit) = digit := by decide
  have hbound : byte.toNat < 16 ^ 2 := byte.toNat_lt
  rw [hex_byte_eq, hexGroupValue, List.map_map, map_positional (f := hexValue ∘ Nat.digitChar) (by decide) hvalue,
    fromPositional_positional hbound]

theorem colon_not_mem_hex_byte (byte : UInt8) : ':' ∉ ietf_interface.hex_byte byte := by
  have hchars : ∀ digit < 16, Nat.digitChar digit ≠ ':' := by decide
  rw [hex_byte_eq]
  intro hmem
  obtain ⟨digit, hdigit, hcolon⟩ := List.mem_map.mp hmem
  exact hchars digit (lt_of_mem_positional (by decide) hdigit) hcolon

/-- The address is read back from its text. -/
theorem phys_address_injective : Function.Injective ietf_interface.phys_address := by
  intro first second h
  have hsplit (l2_address : List.Vector UInt8 6) :
      ([':'].intercalate (l2_address.toList.map ietf_interface.hex_byte)).splitOn ':' =
        l2_address.toList.map ietf_interface.hex_byte := by
    apply List.splitOn_intercalate
    · intro word hword
      obtain ⟨byte, -, rfl⟩ := List.mem_map.mp hword
      exact colon_not_mem_hex_byte byte
    · simp [← List.length_eq_zero_iff]
  have hwords : first.toList.map ietf_interface.hex_byte = second.toList.map ietf_interface.hex_byte := by
    rw [← hsplit first, ← hsplit second, String.ofList_injective h]
  have hbytes : Function.Injective ietf_interface.hex_byte := by
    intro byte other hsame
    have hvalue := congrArg hexGroupValue hsame
    rw [hexGroupValue_hex_byte, hexGroupValue_hex_byte] at hvalue
    exact UInt8.toNat_inj.mp hvalue
  exact List.Vector.eq _ _ (List.map_injective_iff.mpr hbytes hwords)

end text

/-- Groups of one size are told apart by the list that they make together. -/
theorem map_of_flatMap {α β : Type} {group : α → List β} {size : Nat}
    (hsize : ∀ element, (group element).length = size + 1) {first second : List α}
    (hsame : first.flatMap group = second.flatMap group) : first.map group = second.map group := by
  induction first generalizing second with
  | nil =>
    cases second with
    | nil => rfl
    | cons element second =>
      have hlength := congrArg List.length hsame
      simp only [List.flatMap_nil, List.flatMap_cons, List.length_nil, List.length_append, hsize] at hlength
      omega
  | cons element first ih =>
    cases second with
    | nil =>
      have hlength := congrArg List.length hsame
      simp only [List.flatMap_nil, List.flatMap_cons, List.length_nil, List.length_append, hsize] at hlength
      omega
    | cons other second =>
      rw [List.flatMap_cons, List.flatMap_cons] at hsame
      obtain ⟨hhead, htail⟩ := List.append_inj hsame ((hsize element).trans (hsize other).symm)
      rw [List.map_cons, List.map_cons, hhead, ih htail]

/-- What the IETF model is told of an interface. Its flags are told as far as the
    word is one flag or the other and nothing else, its MTU not at all. -/
structure report_t where
  interface_name : String
  admin_up : Bool
  link_up : Bool
  l2_address : List.Vector UInt8 6
  sw_if_index : UInt32
  link_speed : UInt32
deriving DecidableEq

def sw_interface_details.report (interface : sw_interface_details) : report_t where
  interface_name := interface.interface_name
  admin_up := interface.flags = IF_STATUS_API_FLAG_ADMIN_UP
  link_up := interface.flags = IF_STATUS_API_FLAG_LINK_UP
  l2_address := interface.l2_address
  sw_if_index := interface.sw_if_index
  link_speed := interface.link_speed

section reports

variable {xpath : xpath_t}

/-- The values of a record are made of its report. -/
theorem rendered_of_report {first second : sw_interface_details} (hreport : first.report = second.report) :
    ietf_interface.rendered xpath first = ietf_interface.rendered xpath second := by
  simp only [sw_interface_details.report, report_t.mk.injEq, decide_eq_decide] at hreport
  obtain ⟨hname, hadmin, hlink, hphys, hindex, hspeed⟩ := hreport
  simp only [ietf_interface.rendered, hname, hadmin, hlink, hphys, hindex, hspeed]

variable (hnode : sr_xpath_node_name_eq xpath "interface" = true)

include hnode

/-- The report is read back from the values. -/
theorem report_of_rendered {first second : sw_interface_details}
    (hsame : ietf_interface.rendered xpath first = ietf_interface.rendered xpath second) :
    first.report = second.report := by
  have hstatus {up up' : Prop} [Decidable up] [Decidable up']
      (h : (if up then "up" else "down") = if up' then "up" else "down") : up ↔ up' := by
    by_cases hup : up <;> by_cases hup' : up' <;> simp [hup, hup'] at h ⊢
  simp only [ietf_interface.rendered, List.cons.injEq, state_val_t.mk.injEq, state_data_t.SR_ENUM_T.injEq,
    state_data_t.SR_STRING_T.injEq, state_data_t.SR_INT32_T.injEq, state_data_t.SR_UINT64_T.injEq, and_true] at hsame
  obtain ⟨⟨hpath, hadmin⟩, ⟨-, hlink⟩, ⟨-, hphys⟩, ⟨-, hindex⟩, -, hspeed⟩ := hsame
  simp only [sw_interface_details.report, report_t.mk.injEq, decide_eq_decide]
  exact ⟨(entry_of_inj hnode).mp (leaf_of_inj.mp hpath).1, hstatus hadmin, hstatus hlink,
    phys_address_injective hphys, toInt32_injective hindex, UInt32.toUInt64_inj.mp hspeed⟩

/-- Two states of VPP are reported alike exactly when their interfaces are, one after
    the other. -/
theorem reports_equal_iff {vpp vpp' : List sw_interface_details} :
    ietf_interface.ietf_interface_state_cb vpp .SR_ERR_OK xpath =
        ietf_interface.ietf_interface_state_cb vpp' .SR_ERR_OK xpath ↔
      vpp.map sw_interface_details.report = vpp'.map sw_interface_details.report := by
  have hgroup {first second : sw_interface_details} :
      ietf_interface.rendered xpath first = ietf_interface.rendered xpath second ↔ first.report = second.report :=
    ⟨report_of_rendered hnode, rendered_of_report⟩
  rw [ietf_interface.ietf_interface_state_cb_interface hnode, ietf_interface.ietf_interface_state_cb_interface hnode]
  have hmap {γ : Type} (f : sw_interface_details → γ) :
      vpp.map f = vpp'.map f ↔ List.Forall₂ (fun first second => f first = f second) vpp vpp' := by
    rw [← List.forall₂_eq_eq_eq, List.forall₂_map_left_iff, List.forall₂_map_right_iff]
  have hgroups : vpp.map (ietf_interface.rendered xpath) = vpp'.map (ietf_interface.rendered xpath) ↔
      vpp.map sw_interface_details.report = vpp'.map sw_interface_details.report := by
    simp only [hmap, hgroup]
  simp only [Except.ok.injEq, state_reply.mk.injEq, true_and]
  rw [← hgroups]
  constructor
  · intro hsame
    exact map_of_flatMap ietf_interface.rendered_length (List.map_injective_iff.mpr (Option.some_injective _) hsame)
  · intro hsame
    rw [List.flatMap_def, List.flatMap_def, hsame]

end reports

/-- An interface whose link is up is reported as one that is down on all accounts:
    the word of its flags is neither. -/
theorem flags_reported_alike :
    ietf_interface.ietf_interface_state_cb [host_interface "host-vpp1" 1 3 (by decide)] .SR_ERR_OK
        [{ name := "interface" }] =
      ietf_interface.ietf_interface_state_cb [host_interface "host-vpp1" 1 0 (by decide)] .SR_ERR_OK
        [{ name := "interface" }] :=
  (reports_equal_iff (by decide)).mpr (by decide)

end sweetcomb
