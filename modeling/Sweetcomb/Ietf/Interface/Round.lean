import Sweetcomb.Ietf.Interface
import Sweetcomb.Loop

open loop

namespace sweetcomb.ietf_interface

/-- The name that a change puts in the builder. -/
def named : change_t → Option String
  | .created new_val => if sr_xpath_node_name_eq new_val.xpath "name" then some new_val.data.string_val else none
  | .deleted old_val => if sr_xpath_node_name_eq old_val.xpath "name" then some old_val.data.string_val else none
  | _ => none

def creates : change_t → Bool
  | .created new_val => sr_xpath_node_name_eq new_val.xpath "name"
  | _ => false

def removes : change_t → Bool
  | .deleted old_val => sr_xpath_node_name_eq old_val.xpath "name"
  | _ => false

/-- The type that a change puts in the builder. -/
def typed : change_t → Option String
  | .created new_val =>
    if !sr_xpath_node_name_eq new_val.xpath "name" && sr_xpath_node_name_eq new_val.xpath "type" &&
      new_val.data.string_val == "iana-if-type:ethernetCsmacd" then some "ETHERNET" else none
  | _ => none

/-- The state that a change puts in the builder. -/
def enabled : change_t → Option Bool
  | .created new_val =>
    if !sr_xpath_node_name_eq new_val.xpath "name" && !sr_xpath_node_name_eq new_val.xpath "type" &&
        sr_xpath_node_name_eq new_val.xpath "enabled" then
      some new_val.data.bool_val else none
  | _ => none

/-- The interface whose state a change modifies, with the new state. -/
def sets : change_t → Option (String × admin_state_t)
  | .modified _ new_val =>
    if sr_xpath_node_name_eq new_val.xpath "enabled" then
      (sr_xpath_key_value new_val.xpath "interface" "name").map fun n => (n, .from_int new_val.data.bool_val.toNat)
    else none
  | _ => none

/-- The state that a change sets on one interface. -/
def setsOf (name : String) (change : change_t) : Option admin_state_t :=
  match sets change with
  | some (n, state) => if n = name then some state else none
  | none => none

/-- The changes after which the loop goes on: no move, and an `enabled` leaf is
    modified only on an interface that VOM finds. -/
def accepts (env : Env) (om : Om) : change_t → Bool
  | .created _ => true
  | .deleted _ => true
  | .modified _ new_val =>
    !sr_xpath_node_name_eq new_val.xpath "enabled" ||
      (sr_xpath_key_value new_val.xpath "interface" "name").any fun n => env.alive om n
  | .moved _ _ => false

def setWorld (w : World) (change : change_t) : World :=
  match sets change with
  | some (n, state) => w.set n state
  | none => w

/-- The effect of one accepted round, variable by variable. -/
def advance (l : create_locals) (change : change_t) : create_locals where
  intf := ((sets change).map fun set => .found set.1).or l.intf
  builder :=
    { m_name := (named change).getD l.builder.m_name
      m_type := (typed change).getD l.builder.m_type
      m_state := (enabled change).getD l.builder.m_state }
  old_val := (l.world.receive change.old_val).1
  new_val := ((l.world.receive change.old_val).2.receive change.new_val).1
  create := l.create || creates change
  remove := l.remove || removes change
  modify := l.modify || (sets change).isSome
  rc := l.rc
  iter := l.iter
  world :=
    let (old_val, w) := l.world.receive change.old_val
    let (new_val, w) := w.receive change.new_val
    ((setWorld w change).sr_free_val old_val).sr_free_val new_val

theorem create_round_accepted {env : Env} {l : create_locals} {change : change_t}
    (haccepts : accepts env l.world.om change = true) :
    create_round env l change = .ok (advance l change) := by
  cases change with
  | created new_val =>
    by_cases hname : sr_xpath_node_name_eq new_val.xpath "name" = true
    · simp [create_round, create_switch, advance, named, creates, removes, typed, enabled, sets, setWorld,
        hname, interface_builder.set_name]
    · by_cases htype : sr_xpath_node_name_eq new_val.xpath "type" = true
      · by_cases hether : new_val.data.string_val = "iana-if-type:ethernetCsmacd" <;>
          simp [create_round, create_switch, advance, named, creates, removes, typed, enabled, sets,
            setWorld, hname, htype, hether, interface_builder.set_type]
      · by_cases henabled : sr_xpath_node_name_eq new_val.xpath "enabled" = true <;>
          simp [create_round, create_switch, advance, named, creates, removes, typed, enabled, sets,
            setWorld, hname, htype, henabled, interface_builder.set_state]
  | deleted old_val =>
    by_cases hname : sr_xpath_node_name_eq old_val.xpath "name" = true <;>
      simp [create_round, create_switch, advance, named, creates, removes, typed, enabled, sets, setWorld,
        hname, interface_builder.set_name]
  | modified old_val new_val =>
    by_cases hleaf : sr_xpath_node_name_eq new_val.xpath "enabled" = true
    · cases hkey : sr_xpath_key_value new_val.xpath "interface" "name" with
      | none => simp [accepts, hleaf, hkey] at haccepts
      | some n =>
        have halive : env.alive l.world.om n = true := by simpa [accepts, hleaf, hkey] using haccepts
        simp [create_round, create_switch, advance, named, creates, removes, typed, enabled, sets,
          setWorld, hleaf, hkey, World.find, halive]
    · simp [create_round, create_switch, advance, named, creates, removes, typed, enabled, sets, setWorld,
        hleaf]
  | moved old_val new_val => simp [accepts] at haccepts

/-- How the callback ends at a change that is not accepted. -/
def refusal : change_t → Except fault_t sr_error_t
  | .moved _ _ => .ok .SR_ERR_UNSUPPORTED
  | .modified _ new_val =>
    if (sr_xpath_key_value new_val.xpath "interface" "name").isSome then .ok .SR_ERR_OPERATION_FAILED
    else .error .absent_key
  | _ => .ok .SR_ERR_OK

section refused

variable {env : Env} {om : Om} {change : change_t} (hrefused : accepts env om change = false)

include hrefused

theorem refusal_cases : refusal change = .ok .SR_ERR_UNSUPPORTED ∨ refusal change = .ok .SR_ERR_OPERATION_FAILED ∨
    refusal change = .error .absent_key := by
  cases change with
  | created new_val => simp [accepts] at hrefused
  | deleted old_val => simp [accepts] at hrefused
  | modified old_val new_val =>
    rw [refusal]
    split <;> simp
  | moved old_val new_val => exact .inl rfl

theorem refusal_ne_ok : refusal change ≠ .ok .SR_ERR_OK := by
  rcases refusal_cases hrefused with hends | hends | hends <;> simp [hends]

theorem refusal_ne_invalid : refusal change ≠ .ok .SR_ERR_INVAL_ARG := by
  rcases refusal_cases hrefused with hends | hends | hends <;> simp [hends]

theorem refusal_ne_null : refusal change ≠ .error .null_interface := by
  rcases refusal_cases hrefused with hends | hends | hends <;> simp [hends]

end refused

/-- The variables once the values of a change have been received. -/
def create_locals.receive (l : create_locals) (change : change_t) : create_locals :=
  { l with
    old_val := (l.world.receive change.old_val).1
    new_val := ((l.world.receive change.old_val).2.receive change.new_val).1
    world := ((l.world.receive change.old_val).2.receive change.new_val).2 }

/-- At a change that is not accepted the loop is left, by the label or at once. -/
theorem create_round_exit (env : Env) (l : create_locals) {change : change_t}
    (hrefused : accepts env l.world.om change = false) :
    (∃ intf rc, create_round env l change = .error (.goto_error { l.receive change with intf, rc }) ∧
      refusal change = .ok rc) ∨
    ∃ fault, create_round env l change = .error (.fault fault (l.receive change)) ∧ refusal change = .error fault := by
  cases change with
  | created new_val => simp [accepts] at hrefused
  | deleted old_val => simp [accepts] at hrefused
  | modified old_val new_val =>
    by_cases hleaf : sr_xpath_node_name_eq new_val.xpath "enabled" = true
    · cases hkey : sr_xpath_key_value new_val.xpath "interface" "name" with
      | none =>
        refine .inr ⟨.absent_key, ?_, by simp [refusal, hkey]⟩
        simp [create_round, create_switch, hleaf, hkey, create_locals.receive]
      | some n =>
        have hmissing : env.alive l.world.om n = false := by simpa [accepts, hleaf, hkey] using hrefused
        refine .inl ⟨none, .SR_ERR_OPERATION_FAILED, ?_, by simp [refusal, hkey]⟩
        simp [create_round, create_switch, hleaf, hkey, World.find, hmissing, create_locals.receive]
    · simp [accepts, hleaf] at hrefused
  | moved old_val new_val =>
    refine .inl ⟨l.intf, .SR_ERR_UNSUPPORTED, ?_, rfl⟩
    simp [create_round, create_switch, create_locals.receive]

/-- A change that is not accepted leaves the callback, from a state in which
    nothing that a callback can leave a trace in has changed. -/
theorem create_round_refused (env : Env) (l : create_locals) {change : change_t}
    (hrefused : accepts env l.world.om change = false) :
    ∃ exit, create_round env l change = .error exit ∧
      (create_leave (.error exit)).outcome = refusal change ∧
      (create_leave (.error exit)).world.Same l.world ∧
      (create_leave (.error exit)).world.calls = l.world.calls := by
  rcases create_round_exit env l hrefused with ⟨intf, rc, hround, hends⟩ | ⟨fault, hround, hends⟩
  · refine ⟨_, hround, hends.symm, ⟨?_, ?_, ?_⟩, ?_⟩ <;> simp [create_leave, create_locals.receive]
  · refine ⟨_, hround, hends.symm, ⟨?_, ?_, ?_⟩, ?_⟩ <;> simp [create_leave, create_locals.receive]

end sweetcomb.ietf_interface
