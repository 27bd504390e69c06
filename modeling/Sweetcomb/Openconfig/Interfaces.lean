import Sweetcomb.Ietf.Interface

namespace sweetcomb.openconfig_interfaces

/-- The class is a copy of the one in the IETF plugin, and so are the variables
    of the callback: `ol` and `ne` are `old_val` and `new_val`. -/
abbrev interface_builder := ietf_interface.interface_builder

abbrev config_locals := ietf_interface.create_locals

/-- The `switch` on the operation. -/
def config_switch (env : Env) (l : config_locals) (oper : sr_change_oper_t) :
    Except (Exit config_locals) config_locals :=
  match oper with
  | .SR_OP_CREATED => do
    let ne ← deref l .absent_value l.new_val
    if sr_xpath_node_name_eq ne.val.xpath "name" then
      .ok { l with builder := l.builder.set_name ne.val.data.string_val, create := true }
    else if sr_xpath_node_name_eq ne.val.xpath "type" then
      .ok { l with builder := l.builder.set_type ne.val.data.string_val }
    else if sr_xpath_node_name_eq ne.val.xpath "enabled" then
      .ok { l with builder := l.builder.set_state ne.val.data.bool_val }
    else .ok l
  | .SR_OP_MODIFIED => do
    let ne ← deref l .absent_value l.new_val
    if sr_xpath_node_name_eq ne.val.xpath "enabled" then
      let n ← deref l .absent_key (sr_xpath_key_value ne.val.xpath "interface" "name")
      if l.world.find env n then
        .ok { l with
          intf := some (.found n)
          world := l.world.set n (.from_int ne.val.data.bool_val.toNat)
          modify := true }
      else
        .error (.goto_error { l with intf := none, rc := .SR_ERR_OPERATION_FAILED })
    else .ok l
  | .SR_OP_DELETED => do
    let ol ← deref l .absent_value l.old_val
    if sr_xpath_node_name_eq ol.val.xpath "name" then
      .ok { l with builder := l.builder.set_name ol.val.data.string_val, remove := true }
    else .ok l
  | .SR_OP_MOVED => .error (.goto_error { l with rc := .SR_ERR_UNSUPPORTED })

/-- One round of the `foreach_change` loop. The interface key is taken from the
    new value whatever the operation, and without one the callback returns at
    once. -/
def config_round (env : Env) (l : config_locals) (change : change_t) :
    Except (Exit config_locals) config_locals := do
  let (ol, w) := l.world.receive change.old_val
  let (ne, w) := w.receive change.new_val
  let l := { l with old_val := ol, new_val := ne, world := w }
  let ne ← deref l .absent_value l.new_val
  let intf_name ← deref l .absent_key (sr_xpath_key_value ne.val.xpath "interface" "name")
  if intf_name.isEmpty then .error (.return_now .SR_ERR_INVAL_ARG l)
  else
    let l ← config_switch env l change.op
    .ok { l with world := (l.world.sr_free_val l.old_val).sr_free_val l.new_val }

/-- What follows the loop. -/
def config_commit (env : Env) (l : config_locals) : Except (Exit config_locals) config_locals := do
  let l ←
    if l.create then
      match l.builder.build with
      | none => .error (.goto_error { l with intf := none, rc := .SR_ERR_INVAL_ARG })
      | some (name, attrs) => .ok { l with intf := some (.built name attrs) }
    else .ok l
  if l.create || l.modify then
    let intf ← deref l .null_interface l.intf
    let (rc, w) := l.world.om_write env intf.key (.interface intf.key (intf.attrs l.world))
    if rc ≠ .OK then .error (.goto_error { l with rc := .SR_ERR_OPERATION_FAILED, world := w })
    else .ok { l with world := w }
  else if l.remove then .ok { l with world := l.world.om_remove l.builder.m_name }
  else .ok l

/-- The label `nothing_todo` and the other ways to leave the callback. -/
def config_leave (result : Except (Exit config_locals) config_locals) : cb_result :=
  match result with
  | .ok l => { outcome := .ok .SR_ERR_OK, world := l.world.sr_free_change_iter l.iter }
  | .error (.goto_error l) =>
    { outcome := .ok l.rc
      world := ((l.world.sr_free_val l.old_val).sr_free_val l.new_val).sr_free_change_iter l.iter }
  | .error (.return_now rc l) => { outcome := .ok rc, world := l.world }
  | .error (.fault fault l) => { outcome := .error fault, world := l.world }

/-- The variables when the loop starts. `rc` is not set before. -/
def config_start (uninit : Uninit) (w : World) : config_locals where
  builder := { m_state := uninit.m_state }
  create := uninit.create
  remove := uninit.remove
  modify := uninit.modify
  rc := uninit.rc
  iter := .obtained
  world := w

/-- Creation, deletion and state of ethernet interfaces. -/
def oc_interfaces_config_cb (env : Env) (uninit : Uninit) (delivery : delivery_t) (w : World) : cb_result :=
  if delivery.event ≠ .SR_EV_VERIFY then { outcome := .ok .SR_ERR_OK, world := w }
  else if delivery.iter_rc ≠ .SR_ERR_OK then
    { outcome := .ok .SR_ERR_OK, world := w.sr_free_change_iter .null }
  else config_leave do
    let l ← delivery.changes.foldlM (config_round env) (config_start uninit w)
    config_commit env l

/-- The two callbacks run the same code after a change has been read. -/
theorem config_switch_eq (env : Env) : config_switch env = ietf_interface.create_switch env := by
  funext l oper
  cases oper <;> rfl

theorem config_commit_eq (env : Env) : config_commit env = ietf_interface.create_commit env := rfl

theorem config_leave_eq : config_leave = ietf_interface.create_leave := by
  funext result
  cases result with
  | ok l => rfl
  | error exit => cases exit <;> rfl

end sweetcomb.openconfig_interfaces
