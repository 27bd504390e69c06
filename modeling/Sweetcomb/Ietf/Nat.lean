import Sweetcomb.Callback
import Sweetcomb.Utils

namespace sweetcomb.ietf_nat

structure nat_static_builder where
  m_type : String := ""
  m_internal_src : utils_prefix_t
  m_external_src : utils_prefix_t
  m_internal_dest : utils_prefix_t
  m_external_dest : utils_prefix_t
  m_inside : address := .default
  m_outside : address := .default

def nat_static_builder.new (uninit : Uninit) : nat_static_builder where
  m_internal_src := .new uninit.m_prefix_len
  m_external_src := .new uninit.m_prefix_len
  m_internal_dest := .new uninit.m_prefix_len
  m_external_dest := .new uninit.m_prefix_len

/-- The builder afterwards, and the mapping or the null pointer. -/
def nat_static_builder.build (text : AddressText) (builder : nat_static_builder) :
    nat_static_builder × Option object :=
  if builder.m_type ≠ "static" then (builder, none)
  else if !builder.m_internal_src.empty text && !builder.m_external_src.empty text then
    let m_inside := builder.m_internal_src.m_address
    let m_outside := builder.m_external_src.m_address
    ({ builder with m_inside, m_outside }, some (.nat_static m_inside m_outside))
  else if !builder.m_internal_dest.empty text && !builder.m_external_dest.empty text then
    let m_inside := builder.m_internal_dest.m_address
    let m_outside := builder.m_external_dest.m_address
    ({ builder with m_inside, m_outside }, some (.nat_static m_inside m_outside))
  else (builder, none)

def nat_static_builder.set_type (builder : nat_static_builder) (t : String) : nat_static_builder :=
  { builder with m_type := t }

section setters

variable (text : AddressText) (builder : nat_static_builder) (p : String)

def nat_static_builder.set_internal_src : Option nat_static_builder :=
  (utils_prefix_t.make_prefix text p).map fun m_internal_src => { builder with m_internal_src }

def nat_static_builder.set_external_src : Option nat_static_builder :=
  (utils_prefix_t.make_prefix text p).map fun m_external_src => { builder with m_external_src }

def nat_static_builder.set_internal_dest : Option nat_static_builder :=
  (utils_prefix_t.make_prefix text p).map fun m_internal_dest => { builder with m_internal_dest }

def nat_static_builder.set_external_dest : Option nat_static_builder :=
  (utils_prefix_t.make_prefix text p).map fun m_external_dest => { builder with m_external_dest }

end setters

/-- The unique identifier of a mapping. -/
def KEY (xindex : UInt32) : String := xindex.toNat.repr

/-- The variables of `nat_mapping_table_config_cb`. -/
structure nat_locals where
  builder : nat_static_builder
  ol : Option sr_val_ptr := none
  ne : Option sr_val_ptr := none
  it : iter_ptr
  xindex : UInt32
  create : Bool
  remove : Bool
  rc : sr_error_t
  world : World

/-- A setter of the builder. What it throws nobody catches. -/
def nat_set (l : nat_locals) (builder : Option nat_static_builder) : Except (Exit nat_locals) nat_locals := do
  let builder ← deref l .uncaught_exception builder
  .ok { l with builder }

/-- The `switch` on the operation. -/
def nat_switch (env : Env) (l : nat_locals) (oper : sr_change_oper_t) : Except (Exit nat_locals) nat_locals :=
  match oper with
  | .SR_OP_CREATED => do
    let ne ← deref l .absent_value l.ne
    if sr_xpath_node_name_eq ne.val.xpath "index" then
      .ok { l with xindex := ne.val.data.uint32_val, create := true }
    else if sr_xpath_node_name_eq ne.val.xpath "type" then
      .ok { l with builder := l.builder.set_type ne.val.data.string_val }
    else if sr_xpath_node_name_eq ne.val.xpath "internal-src-address" then
      nat_set l (l.builder.set_internal_src env.text ne.val.data.string_val)
    else if sr_xpath_node_name_eq ne.val.xpath "external-src-address" then
      nat_set l (l.builder.set_external_src env.text ne.val.data.string_val)
    else if sr_xpath_node_name_eq ne.val.xpath "internal-dst-address" then
      nat_set l (l.builder.set_internal_dest env.text ne.val.data.string_val)
    else if sr_xpath_node_name_eq ne.val.xpath "external-dst-address" then
      nat_set l (l.builder.set_external_dest env.text ne.val.data.string_val)
    else .ok l
  | .SR_OP_DELETED => do
    let ol ← deref l .absent_value l.ol
    if sr_xpath_node_name_eq ol.val.xpath "index" then
      .ok { l with xindex := ol.val.data.uint32_val, remove := true }
    else .ok l
  | _ => .error (.goto_error { l with rc := .SR_ERR_UNSUPPORTED })

/-- One round of the `foreach_change` loop. -/
def nat_round (env : Env) (l : nat_locals) (change : change_t) : Except (Exit nat_locals) nat_locals := do
  let (ol, w) := l.world.receive change.old_val
  let (ne, w) := w.receive change.new_val
  let l ← nat_switch env { l with ol, ne, world := w } change.op
  .ok { l with world := (l.world.sr_free_val l.ne).sr_free_val l.ol }

/-- What follows the loop. The iterator is released before the mapping is
    built. -/
def nat_commit (env : Env) (l : nat_locals) : Except (Exit nat_locals) nat_locals :=
  let l := { l with world := l.world.sr_free_change_iter l.it }
  if l.create then
    let (builder, ns) := l.builder.build env.text
    let l := { l with builder }
    match ns with
    | none => .error (.goto_error { l with rc := .SR_ERR_INVAL_ARG })
    | some ns =>
      let (rc, w) := l.world.om_write env (KEY l.xindex) ns
      if rc ≠ .OK then .error (.goto_error { l with rc := .SR_ERR_OPERATION_FAILED, world := w })
      else .ok { l with world := { w with
        static_mapping_table :=
          Function.update w.static_mapping_table l.xindex (some (l.builder.m_inside, l.builder.m_outside)) } }
  else if l.remove then
    let w := l.world.om_remove (KEY l.xindex)
    .ok { l with world := { w with
      static_mapping_table := Function.update w.static_mapping_table l.xindex none } }
  else .ok l

/-- The end of the callback and the label `error`. -/
def nat_leave (result : Except (Exit nat_locals) nat_locals) : cb_result :=
  match result with
  | .ok l => { outcome := .ok .SR_ERR_OK, world := l.world }
  | .error (.goto_error l) =>
    { outcome := .ok l.rc
      world := ((l.world.sr_free_val l.ol).sr_free_val l.ne).sr_free_change_iter l.it }
  | .error (.return_now rc l) => { outcome := .ok rc, world := l.world }
  | .error (.fault fault l) => { outcome := .error fault, world := l.world }

/-- The variables at entry. The iterator is not initialised. -/
def nat_start (uninit : Uninit) (w : World) : nat_locals where
  builder := .new uninit
  it := .indeterminate
  xindex := uninit.xindex
  create := uninit.create
  remove := uninit.remove
  rc := uninit.rc
  world := w

/-- Static mappings of one address to another. -/
def nat_mapping_table_config_cb (env : Env) (uninit : Uninit) (delivery : delivery_t) (w : World) : cb_result :=
  if delivery.event ≠ .SR_EV_VERIFY then { outcome := .ok .SR_ERR_OK, world := w }
  else
    let l := { nat_start uninit w with rc := delivery.iter_rc }
    if l.rc ≠ .SR_ERR_OK then nat_leave (.error (.goto_error l))
    else nat_leave do
      let l ← delivery.changes.foldlM (nat_round env) { l with it := .obtained }
      nat_commit env l

end sweetcomb.ietf_nat
