import Sweetcomb.Callback
import Sweetcomb.Utils

namespace sweetcomb.ietf_interface

/-- The unique identifier of a binding. -/
def KEY (text : AddressText) (itf : String) (pfx : prefix_t) : String :=
  "l3_" ++ itf ++ "_" ++ pfx.to_string text

def ipv46_config_add_remove (env : Env) (if_name addr : String) (pfx_len : UInt8) (add : Bool) (w : World) :
    sr_error_t × World :=
  if !w.find env if_name then (.SR_ERR_INVAL_ARG, w)
  else
    match prefix_t.make env.text addr pfx_len with
    | none => (.SR_ERR_OPERATION_FAILED, w)
    | some pfx =>
      if add then
        let (rc, w) := w.om_write env (KEY env.text if_name pfx) (.l3_binding if_name pfx)
        if rc ≠ .OK then (.SR_ERR_OPERATION_FAILED, w) else (.SR_ERR_OK, w)
      else (.SR_ERR_OK, w.om_remove (KEY env.text if_name pfx))

section config

variable {env : Env} {w : World} {if_name addr : String} {pfx_len : UInt8} {pfx : prefix_t}

theorem config_missing (addr : String) (pfx_len : UInt8) (add : Bool) (hfind : w.find env if_name = false) :
    ipv46_config_add_remove env if_name addr pfx_len add w = (.SR_ERR_INVAL_ARG, w) := by
  simp [ipv46_config_add_remove, hfind]

theorem config_unparsed (add : Bool) (hfind : w.find env if_name = true)
    (hpfx : prefix_t.make env.text addr pfx_len = none) :
    ipv46_config_add_remove env if_name addr pfx_len add w = (.SR_ERR_OPERATION_FAILED, w) := by
  simp [ipv46_config_add_remove, hfind, hpfx]

theorem config_added (hfind : w.find env if_name = true) (hpfx : prefix_t.make env.text addr pfx_len = some pfx) :
    ipv46_config_add_remove env if_name addr pfx_len true w =
      (if env.write_rc w.writes = .OK then .SR_ERR_OK else .SR_ERR_OPERATION_FAILED,
        (w.om_write env (KEY env.text if_name pfx) (.l3_binding if_name pfx)).2) := by
  by_cases hwrite : env.write_rc w.writes = .OK <;> simp [ipv46_config_add_remove, hfind, hpfx, hwrite]

theorem config_deleted (hfind : w.find env if_name = true) (hpfx : prefix_t.make env.text addr pfx_len = some pfx) :
    ipv46_config_add_remove env if_name addr pfx_len false w =
      (.SR_ERR_OK, w.om_remove (KEY env.text if_name pfx)) := by
  simp [ipv46_config_add_remove, hfind, hpfx]

theorem make_of_parse {text : AddressText} {bits : address} (hparse : text.from_string addr = some bits)
    (pfx_len : UInt8) : prefix_t.make text addr pfx_len = some ⟨bits, pfx_len⟩ := by
  simp [prefix_t.make, hparse]

theorem make_to_string (text : AddressText) (addr : address) (pfx_len : UInt8) :
    prefix_t.make text (text.to_string addr) pfx_len = some ⟨addr, pfx_len⟩ :=
  make_of_parse (text.from_string_to_string addr) pfx_len

end config

/-- The address and the prefix length after reading a value. Throws, as `none`, on
    the null pointer and on a netmask that is no address. -/
def parse_interface_ipv46_address (env : Env) (val : Option sr_val_ptr) (addr : String) (pfx_len : UInt8) :
    Except fault_t (Option (String × UInt8)) :=
  match val with
  | none => .ok none
  | some val =>
    if val.val.type = .SR_LIST_T then
      -- create on list item - reset state vars
      .ok (some ("", pfx_len))
    else if sr_xpath_node_name_eq val.val.xpath "ip" then .ok (some (val.val.data.string_val, pfx_len))
    else if sr_xpath_node_name_eq val.val.xpath "prefix-length" then .ok (some (addr, val.val.data.uint8_val))
    else if sr_xpath_node_name_eq val.val.xpath "netmask" then
      match env.text.from_string val.val.data.string_val with
      | none => .ok none
      | some netmask => (netmask_to_plen env netmask).map fun pfx_len => some (addr, pfx_len)
    else .ok (some (addr, pfx_len))

/-- The variables of `ietf_interface_ipv46_address_change_cb`. -/
structure address_locals where
  old_val : Option sr_val_ptr := none
  new_val : Option sr_val_ptr := none
  new_addr : String := ""
  old_addr : String := ""
  if_name : String := ""
  new_prefix_len : UInt8 := 0
  old_prefix_len : UInt8 := 0
  rc : sr_error_t := .SR_ERR_OK
  op_rc : sr_error_t := .SR_ERR_OK
  create : Bool := false
  del : Bool := false
  iter : iter_ptr := .null
  world : World

def address_locals.parse_old (env : Env) (l : address_locals) : Except fault_t (Option address_locals) :=
  (parse_interface_ipv46_address env l.old_val l.old_addr l.old_prefix_len).map fun read =>
    read.map fun (old_addr, old_prefix_len) => { l with old_addr, old_prefix_len }

def address_locals.parse_new (env : Env) (l : address_locals) : Except fault_t (Option address_locals) :=
  (parse_interface_ipv46_address env l.new_val l.new_addr l.new_prefix_len).map fun read =>
    read.map fun (new_addr, new_prefix_len) => { l with new_addr, new_prefix_len }

/-- The `switch` on the operation. An exception leaves it with what has been
    assigned so far. -/
def address_switch (env : Env) (l : address_locals) (op : sr_change_oper_t) : Except fault_t address_locals :=
  match op with
  | .SR_OP_CREATED =>
    let l := { l with create := true }
    (l.parse_new env).map fun read => read.getD l
  | .SR_OP_MODIFIED =>
    let l := { l with create := true, del := true }
    match l.parse_old env with
    | .error fault => .error fault
    | .ok none => .ok l
    | .ok (some l) => (l.parse_new env).map fun read => read.getD l
  | .SR_OP_DELETED =>
    let l := { l with del := true }
    (l.parse_old env).map fun read => read.getD l
  | .SR_OP_MOVED => .ok l

def address_del (env : Env) (l : address_locals) : address_locals :=
  if l.del && !l.old_addr.isEmpty then
    let (op_rc, world) := ipv46_config_add_remove env l.if_name l.old_addr l.old_prefix_len false l.world
    { l with op_rc, world }
  else l

def address_create (env : Env) (l : address_locals) : address_locals :=
  if l.create && !l.new_addr.isEmpty then
    let (op_rc, world) := ipv46_config_add_remove env l.if_name l.new_addr l.new_prefix_len true l.world
    { l with op_rc, world }
  else l

/-- One round of the `foreach_change` loop. -/
def address_round (env : Env) (l : address_locals) (change : change_t) :
    Except (Exit address_locals) address_locals := do
  let (old_val, w) := l.world.receive change.old_val
  let (new_val, w) := w.receive change.new_val
  let l := { l with old_val, new_val, world := w }
  let val ← deref l .absent_value (l.new_val <|> l.old_val)
  let if_name ← deref l .absent_key (sr_xpath_key_value val.val.xpath "interface" "name")
  let l := { l with if_name }
  if if_name.isEmpty then .error (.goto_error { l with rc := .SR_ERR_OPERATION_FAILED })
  else
    match address_switch env l change.op with
    | .error fault => .error (.fault fault l)
    | .ok l =>
      let l := { l with world := (l.world.sr_free_val l.old_val).sr_free_val l.new_val }
      .ok (address_create env (address_del env l))

/-- The end of the callback and the label `nothing_todo`. -/
def address_leave (result : Except (Exit address_locals) address_locals) : cb_result :=
  match result with
  | .ok l => { outcome := .ok l.op_rc, world := l.world.sr_free_change_iter l.iter }
  | .error (.goto_error l) =>
    { outcome := .ok l.rc
      world := ((l.world.sr_free_val l.old_val).sr_free_val l.new_val).sr_free_change_iter l.iter }
  | .error (.return_now rc l) => { outcome := .ok rc, world := l.world }
  | .error (.fault fault l) => { outcome := .error fault, world := l.world }

/-- Addresses of an interface of either family. `foreach_change` does not enter
    its loop on an abort. -/
def ietf_interface_ipv46_address_change_cb (env : Env) (delivery : delivery_t) (w : World) : cb_result :=
  if delivery.event = .SR_EV_APPLY then { outcome := .ok .SR_ERR_OK, world := w }
  else if delivery.iter_rc ≠ .SR_ERR_OK then
    { outcome := .ok delivery.iter_rc, world := w.sr_free_change_iter .null }
  else
    let start : address_locals := { iter := .obtained, world := w }
    if delivery.event = .SR_EV_ABORT then address_leave (.ok start)
    else address_leave (delivery.changes.foldlM (address_round env) start)

end sweetcomb.ietf_interface
