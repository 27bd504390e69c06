import Sweetcomb.Asio.Address
import Sweetcomb.KeyedStore
import Sweetcomb.Sysrepo

open keyed_store

namespace sweetcomb

inductive rc_t where
  | UNSET
  | NOOP
  | OK
  | INIT
  | INVALID
  | TIMEOUT
deriving DecidableEq

inductive admin_state_t where
  | DOWN
  | UP
deriving DecidableEq

def admin_state_t.from_int (n : Nat) : admin_state_t :=
  if n = 0 then .DOWN else .UP

/-- What an interface instance holds beside its name. `type` is the text given
    to `type_t::from_string`. -/
structure interface_attrs where
  type : String
  state : admin_state_t
deriving DecidableEq

/-- `VOM::route::prefix_t`: an address as configured, host bits kept, and a
    prefix length. -/
structure prefix_t where
  addr : address
  len : UInt8
deriving DecidableEq

/-- Throws on text that is no address. -/
def prefix_t.make (text : AddressText) (addr : String) (len : UInt8) : Option prefix_t :=
  (text.from_string addr).map fun addr => { addr, len }

def prefix_t.to_string (text : AddressText) (pfx : prefix_t) : String :=
  text.to_string pfx.addr ++ "/" ++ pfx.len.toNat.repr

/-- The objects that the plugins hand to VOM. A binding refers to its interface
    by the name of the shared instance. -/
inductive object where
  | interface (name : String) (attrs : interface_attrs)
  | l3_binding (itf : String) (pfx : prefix_t)
  | nat_static (inside outside : address)
deriving DecidableEq

/-- Two states of one interface are one object of VOM. -/
def object.singular : object → object
  | .interface name _ => .interface name { type := "", state := .DOWN }
  | other => other

theorem rigid_l3_binding (itf : String) (pfx : prefix_t) : Rigid object.singular (.l3_binding itf pfx) := by
  intro other hsame
  cases other with
  | interface name attrs => simp [object.singular] at hsame
  | l3_binding otherItf otherPfx => exact hsame
  | nat_static inside outside => simp [object.singular] at hsame

theorem rigid_nat_static (inside outside : address) :
    Rigid object.singular (.nat_static inside outside) := by
  intro other hsame
  cases other with
  | interface name attrs => simp [object.singular] at hsame
  | l3_binding itf pfx => simp [object.singular] at hsame
  | nat_static otherInside otherOutside => exact hsame

/-- The object model: the objects held under each client key. -/
abbrev Om := Store String object

abbrev nat_pair_t := address × address

/-- `std::map<uint32_t, nat_pair_t>`. -/
abbrev nat_table_t := UInt32 → Option nat_pair_t

/-- A call that a callback makes on VOM to change something. -/
inductive vom_call where
  | write (key : String) (obj : object)
  | remove (key : String)
  | set (name : String) (state : admin_state_t)
deriving DecidableEq

/-- The behaviour of what is outside the plugins. `alive` tells whether
    `interface::find` succeeds in a state of OM, and `write_rc` gives the result
    of each `OM::write` in the order in which they are made. -/
structure Env where
  text : AddressText
  alive : Om → String → Bool
  write_rc : Nat → rc_t
  little_endian : Bool

/-- The state shared by the callbacks, with the calls they have made, the values
    they have received from sysrepo and what they have released. `instances` holds the
    attributes of every interface instance; whether an instance exists is up to
    `Env.alive`. -/
structure World where
  om : Om
  instances : String → interface_attrs
  static_mapping_table : nat_table_t
  writes : Nat := 0
  calls : List vom_call := []
  received : Nat := 0
  frees : List free_t := []

/-- Publishing an interface brings its shared instance to the attributes
    written. The other objects have no state of their own. -/
def object.publish (obj : object) (instances : String → interface_attrs) : String → interface_attrs :=
  match obj with
  | .interface name attrs => Function.update instances name attrs
  | _ => instances

def World.om_write (env : Env) (w : World) (key : String) (obj : object) : rc_t × World :=
  let logged := { w with writes := w.writes + 1, calls := w.calls ++ [.write key obj] }
  if env.write_rc w.writes = .OK then
    (.OK, { logged with
      om := w.om.write object.singular key obj
      instances := obj.publish w.instances })
  else
    (env.write_rc w.writes, logged)

def World.om_remove (w : World) (key : String) : World :=
  { w with om := w.om.remove key, calls := w.calls ++ [.remove key] }

/-- `interface::find`: whether there is an instance of that name. -/
def World.find (env : Env) (w : World) (name : String) : Bool :=
  env.alive w.om name

/-- `interface::set` on the shared instance of that name. -/
def World.set (w : World) (name : String) (state : admin_state_t) : World :=
  { w with
    instances := Function.update w.instances name { w.instances name with state }
    calls := w.calls ++ [.set name state] }

/-- The copy of a value that `sr_get_change_next` hands out, or null. -/
def World.receive (w : World) (val : Option sr_val_t) : Option sr_val_ptr × World :=
  match val with
  | some val => (some { addr := w.received, val }, { w with received := w.received + 1 })
  | none => (none, w)

/-- Releasing the null pointer does nothing. -/
def World.sr_free_val (w : World) (val : Option sr_val_ptr) : World :=
  match val with
  | some val => { w with frees := w.frees ++ [.val val.addr] }
  | none => w

def World.sr_free_change_iter (w : World) (it : iter_ptr) : World :=
  { w with frees := w.frees ++ [.change_iter it] }

/-- The state that a configuration callback can leave a trace in. -/
structure World.Same (first second : World) : Prop where
  om : first.om = second.om
  instances : first.instances = second.instances
  static_mapping_table : first.static_mapping_table = second.static_mapping_table

theorem World.Same.refl (w : World) : w.Same w := ⟨rfl, rfl, rfl⟩

theorem World.Same.trans {first second third : World} (hfirst : first.Same second)
    (hsecond : second.Same third) : first.Same third :=
  ⟨hfirst.om.trans hsecond.om, hfirst.instances.trans hsecond.instances,
    hfirst.static_mapping_table.trans hsecond.static_mapping_table⟩

theorem World.Same.symm {first second : World} (hsame : first.Same second) : second.Same first :=
  ⟨hsame.om.symm, hsame.instances.symm, hsame.static_mapping_table.symm⟩

theorem World.Same.congr {first second : World} (hsame : first.Same second) (other : World) :
    first.Same other ↔ second.Same other :=
  ⟨hsame.symm.trans, hsame.trans⟩

section frames

variable (w : World) (val : Option sr_val_ptr) (item : Option sr_val_t) (it : iter_ptr) (key name : String)
  (state : admin_state_t)

@[simp] theorem World.receive_none : w.receive none = (none, w) := rfl
@[simp] theorem World.receive_some (val : sr_val_t) :
    w.receive (some val) = (some { addr := w.received, val }, { w with received := w.received + 1 }) := rfl

@[simp] theorem World.receive_val : (w.receive item).1.map sr_val_ptr.val = item := by
  cases item <;> rfl
@[simp] theorem World.receive_om : (w.receive item).2.om = w.om := by cases item <;> rfl
@[simp] theorem World.receive_instances : (w.receive item).2.instances = w.instances := by
  cases item <;> rfl
@[simp] theorem World.receive_table :
    (w.receive item).2.static_mapping_table = w.static_mapping_table := by cases item <;> rfl
@[simp] theorem World.receive_writes : (w.receive item).2.writes = w.writes := by cases item <;> rfl
@[simp] theorem World.receive_calls : (w.receive item).2.calls = w.calls := by cases item <;> rfl

@[simp] theorem World.sr_free_val_om : (w.sr_free_val val).om = w.om := by cases val <;> rfl
@[simp] theorem World.sr_free_val_instances : (w.sr_free_val val).instances = w.instances := by
  cases val <;> rfl
@[simp] theorem World.sr_free_val_table :
    (w.sr_free_val val).static_mapping_table = w.static_mapping_table := by cases val <;> rfl
@[simp] theorem World.sr_free_val_writes : (w.sr_free_val val).writes = w.writes := by cases val <;> rfl
@[simp] theorem World.sr_free_val_calls : (w.sr_free_val val).calls = w.calls := by cases val <;> rfl

@[simp] theorem World.sr_free_change_iter_om : (w.sr_free_change_iter it).om = w.om := rfl
@[simp] theorem World.sr_free_change_iter_instances :
    (w.sr_free_change_iter it).instances = w.instances := rfl
@[simp] theorem World.sr_free_change_iter_table :
    (w.sr_free_change_iter it).static_mapping_table = w.static_mapping_table := rfl
@[simp] theorem World.sr_free_change_iter_writes : (w.sr_free_change_iter it).writes = w.writes := rfl
@[simp] theorem World.sr_free_change_iter_calls : (w.sr_free_change_iter it).calls = w.calls := rfl

@[simp] theorem World.set_om : (w.set name state).om = w.om := rfl
@[simp] theorem World.set_table : (w.set name state).static_mapping_table = w.static_mapping_table := rfl
@[simp] theorem World.set_writes : (w.set name state).writes = w.writes := rfl
@[simp] theorem World.set_calls : (w.set name state).calls = w.calls ++ [.set name state] := rfl
@[simp] theorem World.set_instances :
    (w.set name state).instances = Function.update w.instances name { w.instances name with state } := rfl

@[simp] theorem World.om_remove_om : (w.om_remove key).om = w.om.remove key := rfl
@[simp] theorem World.om_remove_instances : (w.om_remove key).instances = w.instances := rfl
@[simp] theorem World.om_remove_table :
    (w.om_remove key).static_mapping_table = w.static_mapping_table := rfl
@[simp] theorem World.om_remove_writes : (w.om_remove key).writes = w.writes := rfl
@[simp] theorem World.om_remove_calls : (w.om_remove key).calls = w.calls ++ [.remove key] := rfl

end frames

section writes

variable (env : Env) (w : World) (key : String) (obj : object)

@[simp] theorem World.om_write_rc : (w.om_write env key obj).1 = env.write_rc w.writes := by
  unfold World.om_write
  split <;> simp_all

@[simp] theorem World.om_write_writes : (w.om_write env key obj).2.writes = w.writes + 1 := by
  unfold World.om_write
  split <;> rfl

@[simp] theorem World.om_write_calls :
    (w.om_write env key obj).2.calls = w.calls ++ [.write key obj] := by
  unfold World.om_write
  split <;> rfl

@[simp] theorem World.om_write_table :
    (w.om_write env key obj).2.static_mapping_table = w.static_mapping_table := by
  unfold World.om_write
  split <;> rfl

theorem World.om_write_om : (w.om_write env key obj).2.om =
    if env.write_rc w.writes = .OK then w.om.write object.singular key obj else w.om := by
  unfold World.om_write
  split <;> rfl

theorem World.om_write_instances : (w.om_write env key obj).2.instances =
    if env.write_rc w.writes = .OK then obj.publish w.instances else w.instances := by
  unfold World.om_write
  split <;> rfl

end writes

end sweetcomb
