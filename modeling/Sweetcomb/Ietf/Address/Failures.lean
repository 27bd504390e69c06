import Sweetcomb.Ietf.Address.Entry
import Sweetcomb.Ietf.Address.Requests
import Sweetcomb.Refcount

open datastore keyed_store loop

namespace sweetcomb.ietf_interface

section reading

variable (env : Env)

/-- The leaf of a change that fails to parse. A new value is not read when the old
    one throws. -/
def failed_leaf : change_t → Option sr_val_t
  | .created new_val => if throws env new_val then some new_val else none
  | .modified old_val new_val =>
    if throws env old_val then some old_val else if throws env new_val then some new_val else none
  | .deleted old_val => if throws env old_val then some old_val else none
  | .moved _ _ => none

/-- What a change leaves in the variable of the new address, if it assigns it. -/
def assigned_new_addr : change_t → Option String
  | .created new_val => assigned_addr new_val
  | .modified old_val new_val => if floods env old_val || throws env old_val then none else assigned_addr new_val
  | _ => none

theorem read_new_addr (m : memory_t) (val : sr_val_t) : ((m.read_new env val).getD m).create = m.create ∧
    ((m.read_new env val).getD m).new_addr = (assigned_addr val).getD m.new_addr := by
  obtain ⟨⟨-, hnone⟩, hparse⟩ | ⟨⟨-, -, hnone⟩, hparse⟩ | ⟨-, len, hparse⟩ :=
    parse_cases env val 0 m.new_addr m.new_prefix_len
  · simp [memory_t.read_new, hparse, hnone]
  · simp [memory_t.read_new, hparse, hnone]
  · simp [memory_t.read_new, hparse]

theorem read_create (m : memory_t) (change : change_t) :
    (m.read env change).new_addr = (assigned_new_addr env change).getD m.new_addr ∧
      ((m.read env change).create = true ∨
        (m.read env change).create = m.create ∧ assigned_new_addr env change = none) := by
  cases change with
  | created new_val =>
    obtain ⟨hcreate, haddr⟩ := read_new_addr env { m with create := true } new_val
    exact ⟨haddr, .inl hcreate⟩
  | modified old_val new_val =>
    obtain ⟨⟨hfloods, -⟩, hparse⟩ | ⟨⟨hfloods, hthrows, -⟩, hparse⟩ | ⟨⟨hfloods, hthrows⟩, len, hparse⟩ :=
      parse_cases env old_val 0 m.old_addr m.old_prefix_len
    · simp [memory_t.read, memory_t.read_old, hparse, assigned_new_addr, hfloods]
    · simp [memory_t.read, memory_t.read_old, hparse, assigned_new_addr, hthrows]
    · simp only [memory_t.read, memory_t.read_old, hparse, assigned_new_addr, hfloods, hthrows, Bool.or_self,
        Bool.false_eq_true, if_false]
      obtain ⟨hcreate, haddr⟩ := read_new_addr env
        { m with
          create := true, del := true, old_addr := (assigned_addr old_val).getD m.old_addr, old_prefix_len := len }
        new_val
      exact ⟨haddr, .inl hcreate⟩
  | deleted old_val =>
    obtain ⟨-, hparse⟩ | ⟨-, hparse⟩ | ⟨-, len, hparse⟩ := parse_cases env old_val 0 m.old_addr m.old_prefix_len <;>
      simp [memory_t.read, memory_t.read_old, hparse, assigned_new_addr]
  | moved old_val new_val => exact ⟨rfl, .inr ⟨rfl, rfl⟩⟩

/-- What has been read of a list of changes. -/
def memory_after (changes : List change_t) : memory_t := changes.foldl (memory_t.read env) {}

/-- The address remembered after a list of changes is the last one assigned, and
    one is remembered only with the flag to create it. -/
theorem memory_after_new_addr (changes : List change_t) :
    (memory_after env changes).new_addr = latest (assigned_new_addr env) "" changes ∧
      ((memory_after env changes).new_addr ≠ "" → (memory_after env changes).create = true) := by
  suffices hall : ∀ m : memory_t, (m.new_addr ≠ "" → m.create = true) →
      (changes.foldl (memory_t.read env) m).new_addr = latest (assigned_new_addr env) m.new_addr changes ∧
        ((changes.foldl (memory_t.read env) m).new_addr ≠ "" → (changes.foldl (memory_t.read env) m).create = true) from
    hall {} fun hne => absurd rfl hne
  induction changes with
  | nil => exact fun m hflag => ⟨rfl, hflag⟩
  | cons change changes ih =>
    intro m hflag
    obtain ⟨haddr, hcreate⟩ := read_create env m change
    rw [List.foldl_cons, latest_cons, ← haddr]
    refine ih (m.read env change) fun hne => ?_
    rcases hcreate with hcreate | ⟨hcreate, hnone⟩
    · exact hcreate
    · rw [hcreate]
      rw [haddr, hnone, Option.getD_none] at hne
      exact hflag hne

end reading

section positions

variable {env : Env} {state : Om × Nat} {key itf : String} {pfx : prefix_t}

theorem carried_out_append (env : Env) (state : Om × Nat) (first second : List request_t) :
    carried_out env state (first ++ second) =
      carried_out env state first ++ carried_out env (first.foldl (request_t.serve env) state) second := by
  induction first generalizing state with
  | nil => rfl
  | cons request rest ih => rw [List.cons_append, carried_out, carried_out, ih, List.append_assoc, List.foldl_cons]

/-- A request to delete writes nothing. -/
theorem not_mem_del_requests (m : memory_t) (if_name : String) (obj : object) :
    .write key obj ∉ carried_out env state (m.del_requests if_name) := by
  unfold memory_t.del_requests
  split
  · cases hreaches : request_t.reaches env state
      { if_name, addr := m.old_addr, pfx_len := m.old_prefix_len, add := false } <;>
      simp [carried_out, request_t.operation, hreaches]
  · simp [carried_out]

/-- What a request to create writes. -/
theorem mem_create_requests (m : memory_t) (if_name : String) :
    .write key (.l3_binding itf pfx) ∈ carried_out env state (m.create_requests if_name) ↔
      (if_name = itf ∧ env.alive state.1 itf = true ∧ env.write_rc state.2 = .OK) ∧
        (m.create = true ∧ env.text.from_string m.new_addr = some pfx.addr) ∧
        m.new_prefix_len = pfx.len ∧ KEY env.text itf pfx = key := by
  by_cases hcreate : (m.create && !m.new_addr.isEmpty) = true
  · have hflag : m.create = true := (Bool.and_eq_true_iff.mp hcreate).1
    rw [memory_t.create_requests, if_pos hcreate]
    simp only [carried_out, List.append_nil, Option.mem_toList, request_t.operation, request_t.reaches, prefix_t.make,
      hflag]
    cases halive : env.alive state.1 if_name with
    | false =>
      refine iff_of_false (by simp) ?_
      rintro ⟨⟨rfl, hfound, -⟩, -⟩
      rw [halive] at hfound
      cases hfound
    | true =>
      cases haddr : env.text.from_string m.new_addr with
      | none => simp
      | some addr =>
        by_cases hwrite : env.write_rc state.2 = .OK
        · obtain ⟨pfxAddr, pfxLen⟩ := pfx
          simp only [Option.map_some, hwrite, if_true, Option.some.injEq, Operation.write.injEq,
            object.l3_binding.injEq, prefix_t.mk.injEq]
          constructor
          · rintro ⟨rfl, rfl, rfl, rfl⟩
            exact ⟨⟨rfl, halive, trivial⟩, ⟨trivial, rfl⟩, rfl, rfl⟩
          · rintro ⟨⟨rfl, -, -⟩, ⟨-, rfl⟩, rfl, rfl⟩
            exact ⟨rfl, rfl, rfl, rfl⟩
        · simp [hwrite]
  · rw [memory_t.create_requests, if_neg hcreate]
    refine iff_of_false (by simp [carried_out]) ?_
    rintro ⟨-, ⟨hflag, haddr⟩, -, -⟩
    rw [hflag, Bool.true_and, Bool.not_eq_true', Bool.not_eq_false, String.isEmpty_iff] at hcreate
    rw [hcreate, env.text.from_string_empty] at haddr
    cases haddr

/-- A write of the loop is made at one of the changes gone through. The induction
    is on the changes, with what has been remembered and served before them. -/
theorem mem_requests (m : memory_t) (changes : List change_t) :
    .write key (.l3_binding itf pfx) ∈ carried_out env state (requests env m changes) ↔
      ∃ before change after, changes.takeWhile (proceeds env) = before ++ change :: after ∧
        ∃ if_name, if_name_of change = some if_name ∧
          let m' := (before ++ [change]).foldl (memory_t.read env) m
          .write key (.l3_binding itf pfx) ∈ carried_out env
            ((requests env m before ++ m'.del_requests if_name).foldl (request_t.serve env) state)
            (m'.create_requests if_name) := by
  induction changes generalizing m state with
  | nil => simp [requests, carried_out]
  | cons change changes ih =>
    cases hproceeds : proceeds env change with
    | false =>
      rw [List.takeWhile_cons_of_neg (by simp [hproceeds]), requests_of_stopped hproceeds]
      exact iff_of_false (by simp [carried_out]) (by simp)
    | true =>
      obtain ⟨if_name, hname, _⟩ := proceeds_iff.mp hproceeds
      rw [List.takeWhile_cons_of_pos hproceeds, requests_of_proceeds hname hproceeds, memory_t.requests,
        carried_out_append, carried_out_append, List.mem_append, List.mem_append, ih]
      constructor
      · rintro ((hdel | hcreate) | ⟨before, later, after, htaken, other, hother, hwritten⟩)
        · exact absurd hdel (not_mem_del_requests _ _ _)
        · exact ⟨[], change, changes.takeWhile (proceeds env), rfl, if_name, hname, hcreate⟩
        · refine ⟨change :: before, later, after, by rw [htaken]; rfl, other, hother, ?_⟩
          simp only [List.cons_append, List.foldl_cons, requests_of_proceeds hname hproceeds,
            List.append_assoc, List.foldl_append, memory_t.requests] at hwritten ⊢
          exact hwritten
      · rintro ⟨before, later, after, htaken, other, hother, hwritten⟩
        cases before with
        | nil =>
          obtain ⟨rfl, rfl⟩ := List.cons.inj htaken
          obtain rfl : if_name = other := Option.some.inj (hname.symm.trans hother)
          exact .inl (.inr hwritten)
        | cons first before =>
          obtain ⟨rfl, hrest⟩ := List.cons.inj htaken
          refine .inr ⟨before, later, after, hrest, other, hother, ?_⟩
          simp only [List.cons_append, List.foldl_cons, requests_of_proceeds hname hproceeds,
            List.append_assoc, List.foldl_append, memory_t.requests] at hwritten ⊢
          exact hwritten

end positions

/-- A call that the loop makes. -/
def request_t.call (env : Env) (request : request_t) (w : World) : sr_error_t × World :=
  ipv46_config_add_remove env request.if_name request.addr request.pfx_len request.add w

/-- The codes that the calls return, one after the other. -/
def codes (env : Env) : World → List request_t → List sr_error_t
  | _, [] => []
  | w, request :: rest => (request.call env w).1 :: codes env (request.call env w).2 rest

/-- Whether the requests are carried out, one after the other. -/
def carried (env : Env) : Om × Nat → List request_t → List Bool
  | _, [] => []
  | state, request :: rest => (request.operation env state).isSome :: carried env (request.serve env state) rest

section codes

variable {env : Env} {w w' : World} {l : address_locals} {change : change_t}

/-- A call succeeds when its request is carried out, and its code tells a missing
    interface from the other failures. -/
theorem call_code (request : request_t) (w : World) : (request.call env w).1 =
    if (request.operation env (w.om, w.writes)).isSome then .SR_ERR_OK
    else if env.alive w.om request.if_name then .SR_ERR_OPERATION_FAILED else .SR_ERR_INVAL_ARG := by
  cases halive : env.alive w.om request.if_name with
  | false =>
    rw [request_t.call, config_missing request.addr request.pfx_len request.add halive]
    simp [request_t.operation, request_t.reaches, halive]
  | true =>
    cases hpfx : prefix_t.make env.text request.addr request.pfx_len with
    | none =>
      rw [request_t.call, config_unparsed request.add halive hpfx]
      simp [request_t.operation, request_t.reaches, halive, hpfx]
    | some pfx =>
      cases hadd : request.add with
      | false =>
        rw [request_t.call, hadd, config_deleted halive hpfx]
        simp [request_t.operation, request_t.reaches, halive, hpfx, hadd]
      | true =>
        rw [request_t.call, hadd, config_added halive hpfx]
        by_cases hwrite : env.write_rc w.writes = .OK <;>
          simp [request_t.operation, request_t.reaches, halive, hpfx, hadd, hwrite]

theorem codes_carried (env : Env) (w : World) (requests : List request_t) :
    (codes env w requests).map (fun code => decide (code = .SR_ERR_OK)) = carried env (w.om, w.writes) requests := by
  induction requests generalizing w with
  | nil => rfl
  | cons request rest ih =>
    have hserved := config_served env request w
    have hcode : decide ((request.call env w).1 = .SR_ERR_OK) = (request.operation env (w.om, w.writes)).isSome := by
      rw [call_code]
      cases (request.operation env (w.om, w.writes)).isSome with
      | true => rfl
      | false => cases env.alive w.om request.if_name <;> rfl
    rw [codes, carried, List.map_cons, ih, hcode, request_t.call, hserved.om, hserved.writes]

/-- OM and the writes made are all that the codes depend on. -/
theorem codes_congr (hom : w.om = w'.om) (hwrites : w.writes = w'.writes) (requests : List request_t) :
    codes env w requests = codes env w' requests := by
  induction requests generalizing w w' with
  | nil => rfl
  | cons request rest ih =>
    have hserved := config_served env request w
    have hserved' := config_served env request w'
    rw [codes, codes]
    congr 1
    · rw [call_code, call_code, hom, hwrites]
    · exact ih (by rw [request_t.call, request_t.call, hserved.om, hserved'.om, hom, hwrites])
        (by rw [request_t.call, request_t.call, hserved.writes, hserved'.writes, hom, hwrites])

theorem codes_append {first : List request_t}
    (hafter : (w'.om, w'.writes) = first.foldl (request_t.serve env) (w.om, w.writes)) (second : List request_t) :
    codes env w (first ++ second) = codes env w first ++ codes env w' second := by
  induction first generalizing w with
  | nil => exact codes_congr (congrArg Prod.fst hafter).symm (congrArg Prod.snd hafter).symm second
  | cons request rest ih =>
    have hserved := config_served env request w
    rw [List.cons_append, codes, codes, List.cons_append]
    congr 1
    refine ih ?_
    rw [hafter, List.foldl_cons, request_t.call, hserved.om, hserved.writes]

theorem address_del_op_rc (l : address_locals) : (address_del env l).op_rc =
    (codes env l.world (l.memory.del_requests l.if_name)).getLast?.getD l.op_rc := by
  by_cases hdel : (l.del && !l.old_addr.isEmpty) = true
  · simp only [address_del, memory_t.del_requests, address_locals.memory, hdel, if_true]
    rfl
  · have hnothing : address_del env l = l := if_neg hdel
    have hnone : l.memory.del_requests l.if_name = [] := if_neg hdel
    rw [hnothing, hnone]
    rfl

theorem address_create_op_rc (l : address_locals) : (address_create env l).op_rc =
    (codes env l.world (l.memory.create_requests l.if_name)).getLast?.getD l.op_rc := by
  by_cases hcreate : (l.create && !l.new_addr.isEmpty) = true
  · simp only [address_create, memory_t.create_requests, address_locals.memory, hcreate, if_true]
    rfl
  · have hnothing : address_create env l = l := if_neg hcreate
    have hnone : l.memory.create_requests l.if_name = [] := if_neg hcreate
    rw [hnothing, hnone]
    rfl

/-- The two calls at the end of a round leave the code of the last one made. -/
theorem address_requests_op_rc (l : address_locals) : (address_create env (address_del env l)).op_rc =
    (codes env l.world (l.memory.requests l.if_name)).getLast?.getD l.op_rc := by
  obtain ⟨hmemory, hname, hserved⟩ := address_del_served env l
  rw [address_create_op_rc, address_del_op_rc, hmemory, hname, memory_t.requests,
    codes_append (Prod.ext hserved.om hserved.writes), List.getLast?_append]
  cases (codes env (address_del env l).world (l.memory.create_requests l.if_name)).getLast? <;> rfl

theorem address_round_op_rc (env : Env) (l : address_locals) {if_name : String}
    (hname : if_name_of change = some if_name) (hproceeds : proceeds env change = true) :
    ∃ l', address_round env l change = .ok l' ∧ l'.memory = l.memory.read env change ∧
      (l'.world.om, l'.world.writes) =
        ((l.memory.read env change).requests if_name).foldl (request_t.serve env) (l.world.om, l.world.writes) ∧
      l'.op_rc = (codes env l.world ((l.memory.read env change).requests if_name)).getLast?.getD l.op_rc := by
  obtain ⟨l', hround, hmemory, hserved⟩ := address_round_served env l hname hproceeds
  refine ⟨l', hround, hmemory, Prod.ext hserved.om hserved.writes, ?_⟩
  obtain rfl := Except.ok.inj (hround.symm.trans (address_round_proceeds env l hname hproceeds))
  have hentered := entered_served l change if_name
  have hreleased := released_served ((l.entered change if_name).remembers (l.memory.read env change))
  rw [address_requests_op_rc]
  exact congrArg (fun made => made.getLast?.getD l.op_rc)
    (codes_congr (hreleased.om.trans hentered.om) (hreleased.writes.trans hentered.writes) _)

/-- The code that the loop ends with. -/
theorem address_run_outcome (l : address_locals) (changes : List change_t) :
    (address_leave (changes.foldlM (address_round env) l)).outcome =
      match changes.find? fun change => !proceeds env change with
      | some last => stopped last
      | none => .ok ((codes env l.world (requests env l.memory changes)).getLast?.getD l.op_rc) := by
  induction changes generalizing l with
  | nil => rfl
  | cons change changes ih =>
    rw [List.foldlM_cons]
    cases hproceeds : proceeds env change with
    | true =>
      obtain ⟨if_name, hname, _⟩ := proceeds_iff.mp hproceeds
      obtain ⟨l', hround, hmemory, hworld, hop_rc⟩ := address_round_op_rc env l hname hproceeds
      rw [hround, ok_bind, ih, List.find?_cons_of_neg (by simp [hproceeds]), requests_of_proceeds hname hproceeds,
        hmemory, codes_append hworld, List.getLast?_append, hop_rc]
      cases (codes env l'.world (requests env (l.memory.read env change) changes)).getLast? <;> rfl
    | false =>
      obtain ⟨exit, hround, hends, _⟩ := address_round_stops env l hproceeds
      rw [hround, error_bind, List.find?_cons_of_pos (by simp [hproceeds])]
      exact hends

end codes

/-- The address entry that a leaf is below: its interface and its address. -/
def address_entry_of (text : AddressText) (leaf : sr_val_t) : Option (String × address) := do
  let itf ← sr_xpath_key_value leaf.xpath "interface" "name"
  let ip ← sr_xpath_key_value leaf.xpath "address" "ip"
  let addr ← text.from_string ip
  some (itf, addr)

section claims

variable (env : Env) (w : World) (changes : List change_t) (entry : String × address)

/-- A binding is written for an entry. -/
def Binds : Prop :=
  ∃ key len, .write key (.l3_binding entry.1 { addr := entry.2, len }) ∈ operations env w changes

/-- A change that fails to parse or a call that fails makes the callback return
    another code than `SR_ERR_OK`, and an entry with a leaf that fails to parse is
    not bound. The loop gets as far as the first change at which it does not go on. -/
def Reports : Prop :=
  ((∃ change ∈ changes.takeWhile (proceeds env), (failed_leaf env change).isSome = true) ∨
      (∃ code ∈ codes env w (requests env {} changes), code ≠ .SR_ERR_OK) →
    ∃ rc, (ietf_interface_ipv46_address_change_cb env (verify changes) w).outcome = .ok rc ∧ rc ≠ .SR_ERR_OK) ∧
  ∀ change ∈ changes.takeWhile (proceeds env), ∀ leaf, failed_leaf env change = some leaf →
    ∀ entry, address_entry_of env.text leaf = some entry → ¬ Binds env w changes entry

/-- Every change is parsed and every request carried out. -/
def AllDone : Prop :=
  (∀ change ∈ changes.takeWhile (proceeds env), failed_leaf env change = none) ∧
    ∀ done ∈ carried env (w.om, w.writes) (requests env {} changes), done = true

/-- The loop ends at an empty name, or else its last request is not carried out. -/
def EndsInFailure : Prop :=
  match changes.find? fun change => !proceeds env change with
  | some last => if_name_of last = some ""
  | none => (carried env (w.om, w.writes) (requests env {} changes)).getLast? = some false

/-- At each change of the entry's interface after which the address assigned last
    is that of the entry, the interface is missing or the write fails. -/
def Spared : Prop :=
  ∀ before change after, changes.takeWhile (proceeds env) = before ++ change :: after →
    if_name_of change = some entry.1 →
    env.text.from_string (latest (assigned_new_addr env) "" (before ++ [change])) = some entry.2 →
    let state := (requests env {} before ++ (memory_after env (before ++ [change])).del_requests entry.1).foldl
      (request_t.serve env) (w.om, w.writes)
    env.alive state.1 entry.1 = false ∨ env.write_rc state.2 ≠ .OK

variable {env w changes entry}

theorem not_binds_iff : ¬ Binds env w changes entry ↔ Spared env w changes entry := by
  constructor
  · intro hfree before change after htaken hname haddr
    by_contra hreaches
    simp only [not_or, Bool.not_eq_false, ne_eq, not_not] at hreaches
    obtain ⟨hlatest, hflag⟩ := memory_after_new_addr env (before ++ [change])
    rw [← hlatest] at haddr
    have hcreate := hflag fun hempty => by
      rw [hempty, env.text.from_string_empty] at haddr
      cases haddr
    let bound : prefix_t := { addr := entry.2, len := (memory_after env (before ++ [change])).new_prefix_len }
    have hmade := (@mem_create_requests env _ _ entry.1 bound _ entry.1).mpr
      ⟨⟨rfl, hreaches⟩, ⟨hcreate, haddr⟩, rfl, rfl⟩
    exact hfree ⟨_, bound.len, (mem_requests {} changes).mpr ⟨before, change, after, htaken, entry.1, hname, hmade⟩⟩
  · rintro hspared ⟨key, len, hwritten⟩
    obtain ⟨before, change, after, htaken, if_name, hname, hmade⟩ := (mem_requests {} changes).mp hwritten
    obtain ⟨⟨rfl, halive, hwrite⟩, ⟨_, haddr⟩, _⟩ := (mem_create_requests _ if_name).mp hmade
    have haddr : env.text.from_string (memory_after env (before ++ [change])).new_addr = some entry.2 := haddr
    rw [(memory_after_new_addr env (before ++ [change])).1] at haddr
    rcases hspared before change after htaken hname haddr with hmissing | hfails
    · exact absurd (halive.symm.trans hmissing) (by decide)
    · exact hfails hwrite

theorem fails_iff_not_allDone :
    ((∃ change ∈ changes.takeWhile (proceeds env), (failed_leaf env change).isSome = true) ∨
      ∃ code ∈ codes env w (requests env {} changes), code ≠ .SR_ERR_OK) ↔ ¬ AllDone env w changes := by
  rw [AllDone, ← codes_carried, not_and_or]
  refine or_congr ?_ ?_
  · simp [Option.ne_none_iff_isSome]
  · simp

theorem address_cb_fails_iff :
    (∃ rc, (ietf_interface_ipv46_address_change_cb env (verify changes) w).outcome = .ok rc ∧ rc ≠ .SR_ERR_OK) ↔
      EndsInFailure env w changes := by
  have hcb : ietf_interface_ipv46_address_change_cb env (verify changes) w =
      address_leave (changes.foldlM (address_round env) { iter := .obtained, world := w }) := by
    simp [ietf_interface_ipv46_address_change_cb]
  rw [hcb, address_run_outcome, EndsInFailure]
  cases changes.find? fun change => !proceeds env change with
  | some last =>
    cases hname : if_name_of last with
    | none => simp [stopped, hname]
    | some if_name => by_cases hempty : if_name = "" <;> simp [stopped, hname, hempty]
  | none =>
    simp only [← codes_carried, List.getLast?_map]
    have hmemory : ({ iter := .obtained, world := w } : address_locals).memory = {} := rfl
    rw [hmemory]
    cases (codes env w (requests env {} changes)).getLast? <;> simp

/-- Failures are reported exactly when there are none or the last one ends the
    loop, and an entry that fails to parse is not bound exactly when its address
    is not the one remembered where its interface can be written. -/
theorem address_cb_reports_iff (env : Env) (w : World) (changes : List change_t) :
    Reports env w changes ↔
      (AllDone env w changes ∨ EndsInFailure env w changes) ∧
        ∀ change ∈ changes.takeWhile (proceeds env), ∀ leaf, failed_leaf env change = some leaf →
          ∀ entry, address_entry_of env.text leaf = some entry → Spared env w changes entry := by
  rw [Reports, fails_iff_not_allDone, address_cb_fails_iff, ← or_iff_not_imp_left]
  simp only [not_binds_iff]

end claims

/-- The failure of an address on a missing interface is covered up by the next
    address, on an interface that is there. -/
theorem missing_interface_not_reported :
    let w : World := { World.empty with
      om := {("host-vpp1", .interface "host-vpp1" { type := "ETHERNET", state := .UP })} }
    ¬ Reports counting w (address_changes plainText (.created ("host-vpp2", .v4 0xC0A80001) 24) ++
      address_changes plainText (.created ("host-vpp1", .v4 0xC0A80101) 24)) := by
  rintro w ⟨hreports, _⟩
  obtain ⟨rc, houtcome, hrc⟩ := hreports (.inr (by decide))
  have hok : (ietf_interface_ipv46_address_change_cb counting
      (verify (address_changes plainText (.created ("host-vpp2", .v4 0xC0A80001) 24) ++
        address_changes plainText (.created ("host-vpp1", .v4 0xC0A80101) 24))) w).outcome = .ok .SR_ERR_OK := by decide
  exact hrc (Except.ok.inj (houtcome.symm.trans hok))

end sweetcomb.ietf_interface
