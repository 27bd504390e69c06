import Sweetcomb.Ietf.Address
import Sweetcomb.KeyedStore.Replay

open keyed_store

namespace sweetcomb.ietf_interface

/-- What the loop remembers of the changes that it has read. -/
structure memory_t where
  new_addr : String := ""
  old_addr : String := ""
  new_prefix_len : UInt8 := 0
  old_prefix_len : UInt8 := 0
  create : Bool := false
  del : Bool := false

def address_locals.memory (l : address_locals) : memory_t where
  new_addr := l.new_addr
  old_addr := l.old_addr
  new_prefix_len := l.new_prefix_len
  old_prefix_len := l.old_prefix_len
  create := l.create
  del := l.del

section reading

variable (env : Env) (m : memory_t) (val : sr_val_t)

/-- Reading a value overflows the stack, which an IPv6 netmask does. -/
def floods : Bool :=
  match parse_interface_ipv46_address env (some { addr := 0, val }) "" 0 with
  | .error _ => true
  | .ok _ => false

/-- `parse_interface_ipv46_address` throws on a value. -/
def throws : Bool :=
  match parse_interface_ipv46_address env (some { addr := 0, val }) "" 0 with
  | .ok none => true
  | _ => false

/-- What a value leaves in the variable of the address, if it assigns it. -/
def assigned_addr : Option String :=
  if val.type = .SR_LIST_T then some ""
  else if sr_xpath_node_name_eq val.xpath "ip" then some val.data.string_val
  else none

/-- Whether a value can be read does not depend on what was read before nor on
    where its copy lies, and what it assigns is read from it alone. -/
theorem parse_cases (ptr : Nat) (addr : String) (len : UInt8) :
    (floods env val = true ∧ assigned_addr val = none) ∧
        parse_interface_ipv46_address env (some { addr := ptr, val }) addr len = .error .stack_overflow ∨
      (floods env val = false ∧ throws env val = true ∧ assigned_addr val = none) ∧
        parse_interface_ipv46_address env (some { addr := ptr, val }) addr len = .ok none ∨
      (floods env val = false ∧ throws env val = false) ∧
        ∃ len', parse_interface_ipv46_address env (some { addr := ptr, val }) addr len =
          .ok (some ((assigned_addr val).getD addr, len')) := by
  by_cases hlist : val.type = .SR_LIST_T
  · simp [parse_interface_ipv46_address, floods, throws, assigned_addr, hlist]
  · by_cases hip : sr_xpath_node_name_eq val.xpath "ip" = true
    · simp [parse_interface_ipv46_address, floods, throws, assigned_addr, hlist, hip]
    · by_cases hprefix : sr_xpath_node_name_eq val.xpath "prefix-length" = true
      · simp [parse_interface_ipv46_address, floods, throws, assigned_addr, hlist, hip, hprefix]
      · by_cases hnetmask : sr_xpath_node_name_eq val.xpath "netmask" = true
        · cases hread : env.text.from_string val.data.string_val with
          | none =>
            simp [parse_interface_ipv46_address, floods, throws, assigned_addr, hlist, hip, hprefix, hnetmask, hread]
          | some netmask =>
            cases netmask <;>
              simp [parse_interface_ipv46_address, floods, throws, assigned_addr, hlist, hip, hprefix, hnetmask, hread,
                netmask_to_plen, Except.map]
        · simp [parse_interface_ipv46_address, floods, throws, assigned_addr, hlist, hip, hprefix, hnetmask]

/-- The memory after a value that can be read. -/
def memory_t.read_old : Option memory_t :=
  match parse_interface_ipv46_address env (some { addr := 0, val }) m.old_addr m.old_prefix_len with
  | .ok (some (old_addr, old_prefix_len)) => some { m with old_addr, old_prefix_len }
  | _ => none

def memory_t.read_new : Option memory_t :=
  match parse_interface_ipv46_address env (some { addr := 0, val }) m.new_addr m.new_prefix_len with
  | .ok (some (new_addr, new_prefix_len)) => some { m with new_addr, new_prefix_len }
  | _ => none

/-- The memory after a change. Nothing is remembered of a value that cannot be
    read, nor of what comes after it in the same change. -/
def memory_t.read : change_t → memory_t
  | .created new_val =>
    let m := { m with create := true }
    (m.read_new env new_val).getD m
  | .modified old_val new_val =>
    let m := { m with create := true, del := true }
    match m.read_old env old_val with
    | none => m
    | some m => (m.read_new env new_val).getD m
  | .deleted old_val =>
    let m := { m with del := true }
    (m.read_old env old_val).getD m
  | .moved _ _ => m

/-- A change with a value that overflows the stack. A new value is not read when
    the old one throws. -/
def overflows : change_t → Bool
  | .created new_val => floods env new_val
  | .modified old_val new_val => floods env old_val || (!throws env old_val && floods env new_val)
  | .deleted old_val => floods env old_val
  | .moved _ _ => false

end reading

/-- A call of `ipv46_config_add_remove`. -/
structure request_t where
  if_name : String
  addr : String
  pfx_len : UInt8
  add : Bool
deriving DecidableEq

section requests

variable (m : memory_t) (if_name : String)

/-- The call that deletes at the end of a round, if it is made. -/
def memory_t.del_requests : List request_t :=
  if m.del && !m.old_addr.isEmpty then
    [{ if_name, addr := m.old_addr, pfx_len := m.old_prefix_len, add := false }]
  else []

def memory_t.create_requests : List request_t :=
  if m.create && !m.new_addr.isEmpty then
    [{ if_name, addr := m.new_addr, pfx_len := m.new_prefix_len, add := true }]
  else []

def memory_t.requests : List request_t :=
  m.del_requests if_name ++ m.create_requests if_name

end requests

/-- The interface that a change is about. -/
def if_name_of (change : change_t) : Option String :=
  (change.new_val <|> change.old_val).bind fun val => sr_xpath_key_value val.xpath "interface" "name"

/-- The loop goes on at a change with the name of an interface and without an
    IPv6 netmask. -/
def proceeds (env : Env) (change : change_t) : Bool :=
  (if_name_of change).any (fun if_name => !if_name.isEmpty) && !overflows env change

/-- How the callback ends at another change. -/
def stopped (change : change_t) : Except fault_t sr_error_t :=
  match if_name_of change with
  | none => .error .absent_key
  | some if_name => if if_name.isEmpty then .ok .SR_ERR_OPERATION_FAILED else .error .stack_overflow

theorem proceeds_iff {env : Env} {change : change_t} : proceeds env change = true ↔
    ∃ if_name, if_name_of change = some if_name ∧ if_name ≠ "" ∧ overflows env change = false := by
  cases hname : if_name_of change <;> simp [proceeds, hname]

/-- The calls of the whole loop, which ends early at a change at which it does
    not go on. -/
def requests (env : Env) : memory_t → List change_t → List request_t
  | _, [] => []
  | m, change :: changes =>
    match if_name_of change with
    | none => []
    | some if_name =>
      if if_name.isEmpty || overflows env change then []
      else (m.read env change).requests if_name ++ requests env (m.read env change) changes

theorem requests_of_proceeds {env : Env} {change : change_t} {if_name : String}
    (hname : if_name_of change = some if_name) (hproceeds : proceeds env change = true) (m : memory_t)
    (changes : List change_t) :
    requests env m (change :: changes) =
      (m.read env change).requests if_name ++ requests env (m.read env change) changes := by
  obtain ⟨other, hother, hnonempty, hover⟩ := proceeds_iff.mp hproceeds
  obtain rfl : if_name = other := Option.some.inj (hname.symm.trans hother)
  simp [requests, hname, hnonempty, hover]

theorem requests_of_stopped {env : Env} {change : change_t} (hstopped : proceeds env change = false) (m : memory_t)
    (changes : List change_t) : requests env m (change :: changes) = [] := by
  cases hname : if_name_of change with
  | none => simp [requests, hname]
  | some if_name =>
    have hends : (if_name.isEmpty || overflows env change) = true := by
      simpa [proceeds, hname, ← Bool.not_eq_true, Decidable.or_iff_not_imp_left] using hstopped
    simp only [requests, hname, hends, if_true]

section serving

variable (env : Env) (state : Om × Nat) (request : request_t)

/-- The prefix of a request on an interface that VOM finds. -/
def request_t.reaches : Option prefix_t :=
  if env.alive state.1 request.if_name then prefix_t.make env.text request.addr request.pfx_len else none

/-- What a request does to OM, if anything. The state is OM with the number of
    writes made. -/
def request_t.operation : Option (Operation String object) :=
  match request.reaches env state with
  | none => none
  | some pfx =>
    if request.add then
      if env.write_rc state.2 = .OK then
        some (.write (KEY env.text request.if_name pfx) (.l3_binding request.if_name pfx))
      else none
    else some (.remove (KEY env.text request.if_name pfx))

def request_t.serve : Om × Nat :=
  ((request.operation env state).elim state.1 (Operation.apply object.singular state.1),
    if request.add && (request.reaches env state).isSome then state.2 + 1 else state.2)

end serving

/-- The operations of the requests that are carried out: their interface is
    found, their address can be read and, if they write, the write succeeds. -/
def carried_out (env : Env) : Om × Nat → List request_t → List (Operation String object)
  | _, [] => []
  | state, request :: rest =>
    (request.operation env state).toList ++ carried_out env (request.serve env state) rest

theorem foldl_serve (env : Env) (state : Om × Nat) (rs : List request_t) :
    (rs.foldl (request_t.serve env) state).1 = state.1.replay object.singular (carried_out env state rs) := by
  induction rs generalizing state with
  | nil => rfl
  | cons request rs ih =>
    rw [List.foldl_cons, ih, carried_out, Store.replay, Store.replay, List.foldl_append]
    congr 1
    cases hoperation : request.operation env state <;> simp [request_t.serve, hoperation]

/-- Bindings are all that is written. -/
theorem rigid_of_carried_out {env : Env} {state : Om × Nat} {rs : List request_t} {key : String} {obj : object}
    (hmem : .write key obj ∈ carried_out env state rs) : Rigid object.singular obj := by
  induction rs generalizing state with
  | nil => simp [carried_out] at hmem
  | cons request rs ih =>
    rw [carried_out, List.mem_append] at hmem
    rcases hmem with hfirst | hrest
    · rw [Option.mem_toList, request_t.operation] at hfirst
      cases hreaches : request.reaches env state with
      | none => simp [hreaches] at hfirst
      | some pfx =>
        simp only [hreaches] at hfirst
        split at hfirst
        · simp only [Option.ite_none_right_eq_some, Option.some.injEq,
            Operation.write.injEq] at hfirst
          obtain ⟨_, _, rfl⟩ := hfirst
          exact rigid_l3_binding _ _
        · simp at hfirst
    · exact ih hrest

/-- The world is as before but for OM and the writes, which are as in the
    state. -/
structure Served (before : World) (state : Om × Nat) (after : World) : Prop where
  om : after.om = state.1
  writes : after.writes = state.2
  instances : after.instances = before.instances
  table : after.static_mapping_table = before.static_mapping_table

theorem config_served (env : Env) (request : request_t) (w : World) :
    Served w (request.serve env (w.om, w.writes))
      (ipv46_config_add_remove env request.if_name request.addr request.pfx_len request.add w).2 := by
  cases halive : env.alive w.om request.if_name with
  | false =>
    rw [config_missing request.addr request.pfx_len request.add halive]
    constructor <;> simp [request_t.serve, request_t.operation, request_t.reaches, halive]
  | true =>
    cases hpfx : prefix_t.make env.text request.addr request.pfx_len with
    | none =>
      rw [config_unparsed request.add halive hpfx]
      constructor <;> simp [request_t.serve, request_t.operation, request_t.reaches, halive, hpfx]
    | some pfx =>
      cases hadd : request.add with
      | false =>
        rw [config_deleted halive hpfx]
        constructor <;>
          simp [request_t.serve, request_t.operation, request_t.reaches, halive, hpfx, hadd, Operation.apply]
      | true =>
        rw [config_added halive hpfx]
        by_cases hwrite : env.write_rc w.writes = .OK <;> constructor <;>
          simp [request_t.serve, request_t.operation, request_t.reaches, halive, hpfx, hadd, hwrite, Operation.apply,
            World.om_write_om, World.om_write_instances, object.publish]

/-- What follows goes on from what is left. -/
theorem Served.andThen (next : Om × Nat → Om × Nat) {before middle after : World} {state : Om × Nat}
    (hfirst : Served before state middle) (hsecond : Served middle (next (middle.om, middle.writes)) after) :
    Served before (next state) after := by
  obtain rfl : state = (middle.om, middle.writes) := Prod.ext hfirst.om.symm hfirst.writes.symm
  exact ⟨hsecond.om, hsecond.writes, hsecond.instances.trans hfirst.instances,
    hsecond.table.trans hfirst.table⟩

theorem Served.refl (w : World) : Served w (w.om, w.writes) w := ⟨rfl, rfl, rfl, rfl⟩

section rounds

variable (env : Env) (l : address_locals)

theorem address_del_served :
    (address_del env l).memory = l.memory ∧ (address_del env l).if_name = l.if_name ∧
      Served l.world ((l.memory.del_requests l.if_name).foldl (request_t.serve env) (l.world.om, l.world.writes))
        (address_del env l).world := by
  by_cases hdel : (l.del && !l.old_addr.isEmpty) = true
  · have hserved := config_served env
      { if_name := l.if_name, addr := l.old_addr, pfx_len := l.old_prefix_len, add := false } l.world
    simp only [address_del, memory_t.del_requests, address_locals.memory, hdel, if_true]
    exact ⟨trivial, trivial, hserved⟩
  · have hnothing : address_del env l = l := if_neg hdel
    have hnone : l.memory.del_requests l.if_name = [] := if_neg hdel
    rw [hnothing, hnone]
    exact ⟨rfl, rfl, .refl l.world⟩

theorem address_create_served :
    (address_create env l).memory = l.memory ∧
      Served l.world ((l.memory.create_requests l.if_name).foldl (request_t.serve env) (l.world.om, l.world.writes))
        (address_create env l).world := by
  by_cases hcreate : (l.create && !l.new_addr.isEmpty) = true
  · have hserved := config_served env
      { if_name := l.if_name, addr := l.new_addr, pfx_len := l.new_prefix_len, add := true } l.world
    simp only [address_create, memory_t.create_requests, address_locals.memory, hcreate, if_true]
    exact ⟨trivial, hserved⟩
  · have hnothing : address_create env l = l := if_neg hcreate
    have hnone : l.memory.create_requests l.if_name = [] := if_neg hcreate
    rw [hnothing, hnone]
    exact ⟨rfl, .refl l.world⟩

/-- The two calls at the end of a round, for what is remembered. -/
theorem address_requests_served :
    (address_create env (address_del env l)).memory = l.memory ∧
      Served l.world ((l.memory.requests l.if_name).foldl (request_t.serve env) (l.world.om, l.world.writes))
        (address_create env (address_del env l)).world := by
  obtain ⟨hdel_memory, hname, hdel⟩ := address_del_served env l
  obtain ⟨hcreate_memory, hcreate⟩ := address_create_served env (address_del env l)
  rw [hdel_memory, hname] at hcreate
  rw [memory_t.requests, List.foldl_append]
  exact ⟨hcreate_memory.trans hdel_memory, hdel.andThen (List.foldl _ · _) hcreate⟩

/-- The variables with what is remembered. -/
def address_locals.remembers (l : address_locals) (m : memory_t) : address_locals :=
  { l with
    new_addr := m.new_addr
    old_addr := m.old_addr
    new_prefix_len := m.new_prefix_len
    old_prefix_len := m.old_prefix_len
    create := m.create
    del := m.del }

theorem parse_copy {val : sr_val_t} {addr : String} {len : UInt8} {outcome : Except fault_t (Option (String × UInt8))}
    {ptr : Nat} (hparse : parse_interface_ipv46_address env (some { addr := ptr, val }) addr len = outcome) :
    parse_interface_ipv46_address env (some { addr := 0, val }) addr len = outcome := hparse

/-- The `switch` remembers what the values say and assigns nothing else, unless
    one of them overflows the stack. -/
theorem address_switch_eq (change : change_t)
    (hold : l.old_val.map sr_val_ptr.val = change.old_val) (hnew : l.new_val.map sr_val_ptr.val = change.new_val) :
    address_switch env l change.op =
      if overflows env change then .error .stack_overflow else .ok (l.remembers (l.memory.read env change)) := by
  cases change with
  | moved old_val new_val => rfl
  | created new_val =>
    obtain ⟨⟨ptr, val⟩, hval, rfl⟩ := Option.map_eq_some_iff.mp hnew
    obtain ⟨⟨hfloods, -⟩, hparse⟩ | ⟨⟨hfloods, -⟩, hparse⟩ | ⟨⟨hfloods, -⟩, len, hparse⟩ :=
      parse_cases env val ptr l.new_addr l.new_prefix_len <;>
    simp [address_switch, address_locals.parse_new, hval, hparse, parse_copy env hparse, overflows, hfloods, Except.map,
      memory_t.read, memory_t.read_new, address_locals.remembers, address_locals.memory]
  | deleted old_val =>
    obtain ⟨⟨ptr, val⟩, hval, rfl⟩ := Option.map_eq_some_iff.mp hold
    obtain ⟨⟨hfloods, -⟩, hparse⟩ | ⟨⟨hfloods, -⟩, hparse⟩ | ⟨⟨hfloods, -⟩, len, hparse⟩ :=
      parse_cases env val ptr l.old_addr l.old_prefix_len <;>
    simp [address_switch, address_locals.parse_old, hval, hparse, parse_copy env hparse, overflows, hfloods, Except.map,
      memory_t.read, memory_t.read_old, address_locals.remembers, address_locals.memory]
  | modified old_val new_val =>
    obtain ⟨⟨old_ptr, old⟩, hval_old, rfl⟩ := Option.map_eq_some_iff.mp hold
    obtain ⟨⟨new_ptr, new⟩, hval_new, rfl⟩ := Option.map_eq_some_iff.mp hnew
    obtain ⟨⟨hfloods, -⟩, hparse⟩ | ⟨⟨hfloods, hthrows, -⟩, hparse⟩ | ⟨⟨hfloods, hthrows⟩, len, hparse⟩ :=
      parse_cases env old old_ptr l.old_addr l.old_prefix_len
    · simp [address_switch, address_locals.parse_old, hval_old, hparse, overflows, hfloods, Except.map]
    · simp [address_switch, address_locals.parse_old, hval_old, hparse, parse_copy env hparse, overflows, hfloods,
        hthrows, Except.map, memory_t.read, memory_t.read_old, address_locals.remembers, address_locals.memory]
    · obtain ⟨⟨hfloods_new, -⟩, hparse_new⟩ | ⟨⟨hfloods_new, -⟩, hparse_new⟩ |
          ⟨⟨hfloods_new, -⟩, len_new, hparse_new⟩ :=
        parse_cases env new new_ptr l.new_addr l.new_prefix_len <;>
      simp [address_switch, address_locals.parse_old, address_locals.parse_new, hval_old, hval_new, hparse, hparse_new,
        parse_copy env hparse, parse_copy env hparse_new, overflows, hfloods, hfloods_new, hthrows, Except.map,
        memory_t.read, memory_t.read_old, memory_t.read_new, address_locals.remembers, address_locals.memory]

/-- The variables when the `switch` is entered. -/
def address_locals.entered (l : address_locals) (change : change_t) (if_name : String) : address_locals :=
  let (old_val, w) := l.world.receive change.old_val
  let (new_val, w) := w.receive change.new_val
  { l with old_val, new_val, world := w, if_name }

/-- The variables once the values of a round are released. -/
def address_locals.released (l : address_locals) : address_locals :=
  { l with world := (l.world.sr_free_val l.old_val).sr_free_val l.new_val }

theorem entered_served (change : change_t) (if_name : String) :
    Served l.world (l.world.om, l.world.writes) (l.entered change if_name).world := by
  constructor <;> simp [address_locals.entered, -change_t.old_val, -change_t.new_val]

theorem released_served : Served l.world (l.world.om, l.world.writes) l.released.world := by
  constructor <;> simp [address_locals.released]

/-- The name of the interface decides a round: a missing one is read through the
    null pointer, an empty one ends the loop. An overflow leaves it in the
    `switch`. -/
theorem address_round_eq (change : change_t) : address_round env l change =
    match if_name_of change with
    | none => .error (.fault .absent_key (l.entered change l.if_name))
    | some if_name =>
      if if_name.isEmpty then
        .error (.goto_error { l.entered change if_name with rc := .SR_ERR_OPERATION_FAILED })
      else
        match address_switch env (l.entered change if_name) change.op with
        | .error fault => .error (.fault fault (l.entered change if_name))
        | .ok l' => .ok (address_create env (address_del env l'.released)) := by
  cases change with
  | created new_val =>
    cases hkey : sr_xpath_key_value new_val.xpath "interface" "name" <;>
      simp [address_round, if_name_of, hkey] <;> rfl
  | deleted old_val =>
    cases hkey : sr_xpath_key_value old_val.xpath "interface" "name" <;>
      simp [address_round, if_name_of, hkey] <;> rfl
  | modified old_val new_val =>
    cases hkey : sr_xpath_key_value new_val.xpath "interface" "name" <;>
      simp [address_round, if_name_of, hkey] <;> rfl
  | moved old_val new_val =>
    cases old_val <;> cases hkey : sr_xpath_key_value new_val.xpath "interface" "name" <;>
      simp [address_round, if_name_of, hkey] <;> rfl

/-- The variables after the `switch`, with the values of the round released. -/
def address_locals.after (l : address_locals) (change : change_t) (if_name : String) : address_locals :=
  ((l.entered change if_name).remembers (l.memory.read env change)).released

theorem entered_switch (change : change_t) (if_name : String) :
    address_switch env (l.entered change if_name) change.op =
      if overflows env change then .error .stack_overflow
      else .ok ((l.entered change if_name).remembers (l.memory.read env change)) :=
  address_switch_eq env (l.entered change if_name) change (World.receive_val l.world change.old_val)
    (World.receive_val _ change.new_val)

/-- A round that proceeds goes through the `switch` and the two calls. -/
theorem address_round_proceeds {change : change_t} {if_name : String} (hname : if_name_of change = some if_name)
    (hproceeds : proceeds env change = true) :
    address_round env l change = .ok (address_create env (address_del env (l.after env change if_name))) := by
  obtain ⟨other, hother, hnonempty, hover⟩ := proceeds_iff.mp hproceeds
  obtain rfl : if_name = other := Option.some.inj (hname.symm.trans hother)
  simp only [address_round_eq, hname, String.isEmpty_iff, hnonempty, if_false, entered_switch, hover,
    Bool.false_eq_true]
  rfl

/-- Such a round reads its change and serves what it then requests. -/
theorem address_round_served {change : change_t} {if_name : String} (hname : if_name_of change = some if_name)
    (hproceeds : proceeds env change = true) :
    ∃ l', address_round env l change = .ok l' ∧ l'.memory = l.memory.read env change ∧
      Served l.world
        (((l.memory.read env change).requests if_name).foldl (request_t.serve env) (l.world.om, l.world.writes))
        l'.world := by
  obtain ⟨hkept, hserved⟩ := address_requests_served env (l.after env change if_name)
  have hreleased := released_served ((l.entered change if_name).remembers (l.memory.read env change))
  have hentered := (entered_served l change if_name).andThen id hreleased
  exact ⟨_, address_round_proceeds env l hname hproceeds, hkept, hentered.andThen (List.foldl _ · _) hserved⟩

theorem address_round_keyless {change : change_t} (hname : if_name_of change = none) :
    address_round env l change = .error (.fault .absent_key (l.entered change l.if_name)) := by
  rw [address_round_eq, hname]

theorem address_round_empty {change : change_t} (hname : if_name_of change = some "") :
    address_round env l change =
      .error (.goto_error { l.entered change "" with rc := .SR_ERR_OPERATION_FAILED }) := by
  rw [address_round_eq, hname]
  rfl

theorem address_round_overflows {change : change_t} {if_name : String} (hname : if_name_of change = some if_name)
    (hnonempty : if_name ≠ "") (hover : overflows env change = true) :
    address_round env l change = .error (.fault .stack_overflow (l.entered change if_name)) := by
  simp only [address_round_eq, hname, String.isEmpty_iff, hnonempty, if_false, entered_switch, hover, if_true]

/-- A change at which the loop does not go on ends the callback. -/
theorem address_round_stops {change : change_t} (hstopped : proceeds env change = false) :
    ∃ exit, address_round env l change = .error exit ∧ (address_leave (.error exit)).outcome = stopped change ∧
      Served l.world (l.world.om, l.world.writes) (address_leave (.error exit)).world := by
  cases hname : if_name_of change with
  | none =>
    exact ⟨_, address_round_keyless env l hname, by simp [stopped, hname]; rfl, entered_served l change l.if_name⟩
  | some if_name =>
    by_cases hempty : if_name = ""
    · subst hempty
      refine ⟨_, address_round_empty env l hname, by simp [stopped, hname]; rfl, ?_⟩
      constructor <;> simp [address_leave, address_locals.entered, -change_t.old_val, -change_t.new_val]
    · have hover : overflows env change = true := by
        simpa [proceeds, hname, hempty] using hstopped
      exact ⟨_, address_round_overflows env l hname hempty hover, by simp [stopped, hname, hempty]; rfl,
        entered_served l change if_name⟩

end rounds

/-- The whole loop serves the requests of its changes. -/
theorem foldlM_served (env : Env) (l : address_locals) (changes : List change_t) :
    Served l.world ((requests env l.memory changes).foldl (request_t.serve env) (l.world.om, l.world.writes))
      (address_leave (changes.foldlM (address_round env) l)).world := by
  induction changes generalizing l with
  | nil => exact ⟨rfl, rfl, rfl, rfl⟩
  | cons change changes ih =>
    rw [List.foldlM_cons]
    cases hproceeds : proceeds env change with
    | false =>
      obtain ⟨exit, hround, _, hserved⟩ := address_round_stops env l hproceeds
      rw [hround, error_bind, requests_of_stopped hproceeds]
      exact hserved
    | true =>
      obtain ⟨if_name, hname, _⟩ := proceeds_iff.mp hproceeds
      obtain ⟨l', hround, hmemory, hserved⟩ := address_round_served env l hname hproceeds
      have hrest := ih l'
      rw [hmemory] at hrest
      rw [hround, ok_bind, requests_of_proceeds hname hproceeds, List.foldl_append]
      exact hserved.andThen (List.foldl _ · _) hrest

/-- The operations that a change list has the callback carry out in a state. -/
def operations (env : Env) (w : World) (changes : List change_t) : List (Operation String object) :=
  carried_out env (w.om, w.writes) (requests env {} changes)

/-- The callback replays its operations on OM, and touches nothing else. -/
theorem address_cb_replays (env : Env) (changes : List change_t) (w : World) :
    let result := ietf_interface_ipv46_address_change_cb env (verify changes) w
    result.world.om = w.om.replay object.singular (operations env w changes) ∧
      result.world.instances = w.instances ∧
      result.world.static_mapping_table = w.static_mapping_table := by
  have hserved := foldlM_served env { iter := .obtained, world := w } changes
  have hcb : ietf_interface_ipv46_address_change_cb env (verify changes) w =
      address_leave (changes.foldlM (address_round env) { iter := .obtained, world := w }) := by
    simp [ietf_interface_ipv46_address_change_cb]
  rw [hcb]
  exact ⟨hserved.om.trans (foldl_serve env _ _), hserved.instances, hserved.table⟩

theorem address_cb_same_iff (env : Env) (changes : List change_t) (w : World) :
    (ietf_interface_ipv46_address_change_cb env (verify changes) w).world.Same w ↔
      Neutral w.om (operations env w changes) := by
  obtain ⟨hom, hinstances, htable⟩ := address_cb_replays env changes w
  have hrigid : ∀ key obj, .write key obj ∈ operations env w changes → Rigid object.singular obj :=
    fun key obj hmem => rigid_of_carried_out hmem
  rw [← Store.replay_eq_self_iff hrigid, ← hom]
  exact ⟨fun hsame => hsame.om, fun heq => ⟨heq, hinstances, htable⟩⟩

end sweetcomb.ietf_interface
