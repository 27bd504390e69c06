import Sweetcomb.Datastore
import Sweetcomb.Ietf.Address.Bindings

open datastore keyed_store

namespace sweetcomb.ietf_interface

/-- The values under an address entry, in the order in which sysrepo delivers
    them for an entry that is created or deleted. -/
inductive leaf_t where
  | node
  | ip (addr : address)
  | prefix_length (len : UInt8)

def address_node (itf : String) (addr : address) : xpath_t :=
  [{ name := "interfaces" }, { name := "interface", keys := [("name", itf)] },
    { name := if addr.is_v4 then "ipv4" else "ipv6" }, { name := "address" }]

def leaf_t.val (text : AddressText) (entry : String × address) : leaf_t → sr_val_t
  | .node => { xpath := address_node entry.1 entry.2, type := .SR_LIST_T }
  | .ip addr =>
    { xpath := address_node entry.1 entry.2 ++ [{ name := "ip" }], data := { string_val := text.to_string addr } }
  | .prefix_length len =>
    { xpath := address_node entry.1 entry.2 ++ [{ name := "prefix-length" }], data := { uint8_val := len } }

@[simp] theorem key_value_leaf (text : AddressText) (entry : String × address) (leaf : leaf_t) :
    sr_xpath_key_value (leaf.val text entry).xpath "interface" "name" = some entry.1 := by
  cases leaf <;> rfl

/-- What the callback remembers of the values it has read with one operation:
    the address since the last list node, and the last prefix length. -/
structure side_t where
  addr : Option address := none
  len : UInt8 := 0

def leaf_t.read (side : side_t) : leaf_t → side_t
  | .node => { side with addr := none }
  | .ip addr => { side with addr := some addr }
  | .prefix_length len => { side with len }

def side_t.text (text : AddressText) (side : side_t) : String :=
  (side.addr.map text.to_string).getD ""

theorem parse_leaf (env : Env) (addr : Nat) (entry : String × address) (leaf : leaf_t) (side : side_t) :
    parse_interface_ipv46_address env (some { addr, val := leaf.val env.text entry }) (side.text env.text) side.len =
      .ok (some ((leaf.read side).text env.text, (leaf.read side).len)) := by
  cases leaf <;>
    simp [parse_interface_ipv46_address, leaf_t.val, leaf_t.read, side_t.text, address_node,
      sr_xpath_node_name_eq]

/-- What the callback carries from change to change. -/
structure context_t where
  new : side_t := {}
  old : side_t := {}

/-- The variables hold what the context says. An address is remembered only
    with the flag of its operation. -/
structure Carries (env : Env) (ctx : context_t) (l : address_locals) : Prop where
  new_addr : l.new_addr = ctx.new.text env.text
  new_len : l.new_prefix_len = ctx.new.len
  create : ctx.new.addr.isSome → l.create = true
  old_addr : l.old_addr = ctx.old.text env.text
  old_len : l.old_prefix_len = ctx.old.len
  del : ctx.old.addr.isSome → l.del = true

theorem carries_start (env : Env) (w : World) :
    Carries env {} ({ iter := .obtained, world := w } : address_locals) :=
  ⟨rfl, rfl, by simp, rfl, rfl, by simp⟩

/-- The prefix that a side stands for. -/
def side_t.pfx (side : side_t) : Option prefix_t :=
  side.addr.map fun addr => { addr, len := side.len }

section requests

variable {env : Env} {ctx : context_t} {l : address_locals}

theorem address_del_none (hcarries : Carries env ctx l) (hnone : ctx.old.addr = none) : address_del env l = l := by
  simp [address_del, hcarries.old_addr, side_t.text, hnone]

theorem address_create_none (hcarries : Carries env ctx l) (hnone : ctx.new.addr = none) :
    address_create env l = l := by
  simp [address_create, hcarries.new_addr, side_t.text, hnone]

/-- A deletion is requested when an old address is remembered. -/
theorem address_del_eq (hcarries : Carries env ctx l) :
    address_del env l =
      match ctx.old.pfx with
      | none => l
      | some pfx =>
        if env.alive l.world.om l.if_name then
          { l with op_rc := .SR_ERR_OK, world := l.world.om_remove (KEY env.text l.if_name pfx) }
        else { l with op_rc := .SR_ERR_INVAL_ARG } := by
  cases haddr : ctx.old.addr with
  | none => simp [address_del, hcarries.old_addr, side_t.text, haddr, side_t.pfx]
  | some addr =>
    have hdel := hcarries.del (by simp [haddr])
    have hpfx := make_to_string env.text addr ctx.old.len
    cases halive : env.alive l.world.om l.if_name with
    | false =>
      simp [address_del, hcarries.old_addr, hcarries.old_len, env.text.to_string_ne_empty, haddr, side_t.pfx, hdel,
        side_t.text, config_missing _ _ _ halive]
    | true =>
      simp [address_del, hcarries.old_addr, hcarries.old_len, env.text.to_string_ne_empty, haddr, side_t.pfx, hdel,
        side_t.text, config_deleted halive hpfx]

/-- A creation is requested when a new address is remembered. -/
theorem address_create_eq (hcarries : Carries env ctx l) (hwrite : env.write_rc l.world.writes = .OK) :
    address_create env l =
      match ctx.new.pfx with
      | none => l
      | some pfx =>
        if env.alive l.world.om l.if_name then
          { l with
            op_rc := .SR_ERR_OK
            world := (l.world.om_write env (KEY env.text l.if_name pfx) (.l3_binding l.if_name pfx)).2 }
        else { l with op_rc := .SR_ERR_INVAL_ARG } := by
  cases haddr : ctx.new.addr with
  | none => simp [address_create, hcarries.new_addr, side_t.text, haddr, side_t.pfx]
  | some addr =>
    have hcreate := hcarries.create (by simp [haddr])
    have hpfx := make_to_string env.text addr ctx.new.len
    cases halive : env.alive l.world.om l.if_name with
    | false =>
      simp [address_create, hcarries.new_addr, hcarries.new_len, env.text.to_string_ne_empty, haddr, side_t.pfx,
        hcreate, side_t.text, config_missing _ _ _ halive]
    | true =>
      simp [address_create, hcarries.new_addr, hcarries.new_len, env.text.to_string_ne_empty, haddr, side_t.pfx,
        hcreate, side_t.text, config_added halive hpfx, hwrite]

theorem carries_del (hcarries : Carries env ctx l) : Carries env ctx (address_del env l) := by
  rw [address_del_eq hcarries]
  cases ctx.old.pfx with
  | none => exact hcarries
  | some pfx =>
    cases env.alive l.world.om l.if_name <;>
      exact ⟨hcarries.new_addr, hcarries.new_len, hcarries.create, hcarries.old_addr, hcarries.old_len, hcarries.del⟩

theorem carries_create (hcarries : Carries env ctx l) (hwrite : env.write_rc l.world.writes = .OK) :
    Carries env ctx (address_create env l) := by
  rw [address_create_eq hcarries hwrite]
  cases ctx.new.pfx with
  | none => exact hcarries
  | some pfx =>
    cases env.alive l.world.om l.if_name <;>
      exact ⟨hcarries.new_addr, hcarries.new_len, hcarries.create, hcarries.old_addr, hcarries.old_len, hcarries.del⟩

end requests

/-- The change that carries a leaf of an entry. -/
inductive leaf_change where
  | created (leaf : leaf_t)
  | deleted (leaf : leaf_t)
  | modified (old new : leaf_t)

def leaf_change.change (text : AddressText) (entry : String × address) : leaf_change → change_t
  | .created leaf => .created (leaf.val text entry)
  | .deleted leaf => .deleted (leaf.val text entry)
  | .modified old new => .modified (old.val text entry) (new.val text entry)

def leaf_change.read (ctx : context_t) : leaf_change → context_t
  | .created leaf => { ctx with new := leaf.read ctx.new }
  | .deleted leaf => { ctx with old := leaf.read ctx.old }
  | .modified old new => { new := new.read ctx.new, old := old.read ctx.old }

/-- A round reads its leaf, then requests a deletion and a creation for what it
    remembers, on the interface of the leaf. -/
theorem address_round_leaf {env : Env} {ctx : context_t} {l : address_locals} (hcarries : Carries env ctx l)
    {entry : String × address} (hname : entry.1 ≠ "") (leaf : leaf_change) :
    ∃ read : address_locals,
      address_round env l (leaf.change env.text entry) = .ok (address_create env (address_del env read)) ∧
      Carries env (leaf.read ctx) read ∧ read.if_name = entry.1 ∧ read.op_rc = l.op_rc ∧
      read.iter = l.iter ∧ read.world.Same l.world ∧ read.world.writes = l.world.writes ∧
      read.world.calls = l.world.calls := by
  cases leaf with
  | created leaf =>
    refine ⟨_, by simp [address_round, leaf_change.change, hname, address_switch, address_locals.parse_new,
      hcarries.new_addr, hcarries.new_len, parse_leaf, Except.map]; rfl, ?_⟩
    exact ⟨⟨rfl, rfl, fun _ => rfl, hcarries.old_addr, hcarries.old_len, hcarries.del⟩, rfl, rfl, rfl,
      ⟨by simp, by simp, by simp⟩, by simp, by simp⟩
  | deleted leaf =>
    refine ⟨_, by simp [address_round, leaf_change.change, hname, address_switch, address_locals.parse_old,
      hcarries.old_addr, hcarries.old_len, parse_leaf, Except.map]; rfl, ?_⟩
    exact ⟨⟨hcarries.new_addr, hcarries.new_len, hcarries.create, rfl, rfl, fun _ => rfl⟩, rfl, rfl, rfl,
      ⟨by simp, by simp, by simp⟩, by simp, by simp⟩
  | modified old new =>
    refine ⟨_, by simp [address_round, leaf_change.change, hname, address_switch, address_locals.parse_old,
      address_locals.parse_new, hcarries.new_addr, hcarries.new_len, hcarries.old_addr, hcarries.old_len,
      parse_leaf, Except.map]; rfl, ?_⟩
    exact ⟨⟨rfl, rfl, fun _ => rfl, rfl, rfl, fun _ => rfl⟩, rfl, rfl, rfl,
      ⟨by simp, by simp, by simp⟩, by simp, by simp⟩

end sweetcomb.ietf_interface
