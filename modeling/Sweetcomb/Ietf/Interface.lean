import Sweetcomb.Callback

namespace sweetcomb.ietf_interface

structure interface_builder where
  m_name : String := ""
  m_type : String := ""
  m_state : Bool

def interface_builder.build (builder : interface_builder) : Option (String × interface_attrs) :=
  if builder.m_name.isEmpty || builder.m_type.isEmpty then none
  else some (builder.m_name,
    { type := builder.m_type, state := .from_int builder.m_state.toNat })

def interface_builder.set_name (builder : interface_builder) (n : String) : interface_builder :=
  { builder with m_name := n }

/-- Only ethernet interfaces can be built; another type leaves the builder as
    it is. -/
def interface_builder.set_type (builder : interface_builder) (t : String) : interface_builder :=
  if t = "iana-if-type:ethernetCsmacd" then { builder with m_type := "ETHERNET" } else builder

def interface_builder.set_state (builder : interface_builder) (enable : Bool) : interface_builder :=
  { builder with m_state := enable }

/-- The `shared_ptr` of a callback: the singular instance that `find` returned
    or an interface just built. -/
inductive intf_ptr where
  | found (name : String)
  | built (name : String) (attrs : interface_attrs)
deriving DecidableEq

def intf_ptr.key : intf_ptr → String
  | .found name => name
  | .built name _ => name

/-- A found instance is shared, so it is read as it is at the moment. -/
def intf_ptr.attrs (w : World) : intf_ptr → interface_attrs
  | .found name => w.instances name
  | .built _ attrs => attrs

/-- The variables of `ietf_interface_create_cb`. -/
structure create_locals where
  intf : Option intf_ptr := none
  builder : interface_builder
  old_val : Option sr_val_ptr := none
  new_val : Option sr_val_ptr := none
  create : Bool
  remove : Bool
  modify : Bool
  rc : sr_error_t
  iter : iter_ptr := .null
  world : World

/-- The `switch` on the operation. -/
def create_switch (env : Env) (l : create_locals) (op : sr_change_oper_t) :
    Except (Exit create_locals) create_locals :=
  match op with
  | .SR_OP_MODIFIED => do
    let new_val ← deref l .absent_value l.new_val
    if sr_xpath_node_name_eq new_val.val.xpath "enabled" then
      let n ← deref l .absent_key (sr_xpath_key_value new_val.val.xpath "interface" "name")
      if l.world.find env n then
        .ok { l with
          intf := some (.found n)
          world := l.world.set n (.from_int new_val.val.data.bool_val.toNat)
          modify := true }
      else
        .error (.goto_error { l with intf := none, rc := .SR_ERR_OPERATION_FAILED })
    else .ok l
  | .SR_OP_CREATED => do
    let new_val ← deref l .absent_value l.new_val
    if sr_xpath_node_name_eq new_val.val.xpath "name" then
      .ok { l with builder := l.builder.set_name new_val.val.data.string_val, create := true }
    else if sr_xpath_node_name_eq new_val.val.xpath "type" then
      .ok { l with builder := l.builder.set_type new_val.val.data.string_val }
    else if sr_xpath_node_name_eq new_val.val.xpath "enabled" then
      .ok { l with builder := l.builder.set_state new_val.val.data.bool_val }
    else .ok l
  | .SR_OP_DELETED => do
    let old_val ← deref l .absent_value l.old_val
    if sr_xpath_node_name_eq old_val.val.xpath "name" then
      .ok { l with builder := l.builder.set_name old_val.val.data.string_val, remove := true }
    else .ok l
  | .SR_OP_MOVED => .error (.goto_error { l with rc := .SR_ERR_UNSUPPORTED })

/-- One round of the `foreach_change` loop. -/
def create_round (env : Env) (l : create_locals) (change : change_t) :
    Except (Exit create_locals) create_locals := do
  let (old_val, w) := l.world.receive change.old_val
  let (new_val, w) := w.receive change.new_val
  let l := { l with old_val, new_val, world := w }
  -- the log line reads the path of the old value, or else of the new one
  let _ ← deref l .absent_value (l.old_val <|> l.new_val)
  let l ← create_switch env l change.op
  .ok { l with world := (l.world.sr_free_val l.old_val).sr_free_val l.new_val }

/-- What follows the loop. -/
def create_commit (env : Env) (l : create_locals) : Except (Exit create_locals) create_locals := do
  let l ←
    if l.create then
      match l.builder.build with
      | none => .error (.goto_error { l with intf := none, rc := .SR_ERR_INVAL_ARG })
      | some (name, attrs) => .ok { l with intf := some (.built name attrs) }
    else .ok l
  if l.create || l.modify then
    let intf ← deref l .null_interface l.intf
    let (rc, w) := l.world.om_write env intf.key (.interface intf.key (intf.attrs l.world))
    if rc ≠ .OK then .error (.goto_error { l with rc := .SR_ERR_OPERATION_FAILED, world := w })
    else .ok { l with world := w }
  else if l.remove then .ok { l with world := l.world.om_remove l.builder.m_name }
  else .ok l

/-- The label `nothing_todo` and the other ways to leave the callback. -/
def create_leave (result : Except (Exit create_locals) create_locals) : cb_result :=
  match result with
  | .ok l => { outcome := .ok .SR_ERR_OK, world := l.world.sr_free_change_iter l.iter }
  | .error (.goto_error l) =>
    { outcome := .ok l.rc
      world := ((l.world.sr_free_val l.old_val).sr_free_val l.new_val).sr_free_change_iter l.iter }
  | .error (.return_now rc l) => { outcome := .ok rc, world := l.world }
  | .error (.fault fault l) => { outcome := .error fault, world := l.world }

/-- The variables at entry, once `sr_get_changes_iter` has set `rc` and
    `iter`. -/
def create_start (uninit : Uninit) (w : World) : create_locals where
  builder := { m_state := uninit.m_state }
  create := uninit.create
  remove := uninit.remove
  modify := uninit.modify
  rc := .SR_ERR_OK
  iter := .obtained
  world := w

/-- Creation, deletion and state of ethernet interfaces. -/
def ietf_interface_create_cb (env : Env) (uninit : Uninit) (delivery : delivery_t) (w : World) :
    cb_result :=
  if delivery.event ≠ .SR_EV_VERIFY then { outcome := .ok .SR_ERR_OK, world := w }
  else if delivery.iter_rc ≠ .SR_ERR_OK then
    { outcome := .ok .SR_ERR_OPERATION_FAILED, world := w.sr_free_change_iter .null }
  else create_leave do
    let l ← delivery.changes.foldlM (create_round env) (create_start uninit w)
    create_commit env l

end sweetcomb.ietf_interface
