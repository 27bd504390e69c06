import Sweetcomb.LinkedList
import Sweetcomb.Sysrepo

open linked_list

namespace sweetcomb.sc_init

/-- A registration in memory, of an init or an exit function. -/
structure function_list_elt_t (ι : Type) where
  next : Option ι
  func : ι
  is_called : Bool

/-- A list of registrations. `elt` holds the static variables of the constructors:
    there is one for each function, and a pointer to it is known by that function. -/
structure registrations_t (ι : Type) where
  head : Option ι
  elt : ι → function_list_elt_t ι

/-- Why a routine does not return: it reads through the head of an empty list, or
    it goes on for longer than it is given. -/
inductive fault_t where
  | null_head
  | unbounded
deriving DecidableEq

variable {ι ρ : Type} [DecidableEq ι]

def registrations_t.next (r : registrations_t ι) (p : ι) : Option ι := (r.elt p).next

def registrations_t.is_called (r : registrations_t ι) (p : ι) : Bool := (r.elt p).is_called

def registrations_t.set (r : registrations_t ι) (p : ι) (elt : function_list_elt_t ι) : registrations_t ι :=
  { r with elt := Function.update r.elt p elt }

/-- The constructor of a function. -/
def sc_add_function (f : ι) (r : registrations_t ι) : registrations_t ι :=
  { r.set f { next := r.head, func := f, is_called := false } with head := some f }

/-- The loop of the destructor, which looks one element ahead. -/
def sc_rm_function_from (f : ι) : Nat → ι → registrations_t ι → Except fault_t (registrations_t ι)
  | 0, _, _ => .error .unbounded
  | steps + 1, p, r =>
    match r.next p with
    | none => .ok r
    | some second =>
      if (r.elt second).func = f then .ok (r.set p { r.elt p with next := r.next second })
      else sc_rm_function_from f steps second r

/-- The destructor of a function. It reads the head without a check. -/
def sc_rm_function (steps : Nat) (f : ι) (r : registrations_t ι) : Except fault_t (registrations_t ι) :=
  match r.head with
  | none => .error .null_head
  | some first =>
    if (r.elt first).func = f then .ok { r with head := r.next first }
    else sc_rm_function_from f steps first r

/-- What the body of a function does with the list: it returns, or it calls
    another function by the macro and goes on with what the macro yields. -/
inductive body_t (ι ρ : Type) where
  | ret (code : ρ)
  | call (func : ι) (next : ρ → body_t ι ρ)

/-- Something that happens to the functions of a list. -/
inductive event_t (ι ρ : Type) where
  | entered (func : ι)
  | returned (func : ι) (code : ρ)
  | requested (caller func : ι)
  | resumed (caller func : ι) (code : ρ)

/-- The registrations and what has happened so far. -/
structure state_t (ι ρ : Type) where
  registrations : registrations_t ι
  trace : List (event_t ι ρ) := []

def state_t.log (s : state_t ι ρ) (event : event_t ι ρ) : state_t ι ρ :=
  { s with trace := s.trace ++ [event] }

def state_t.mark (s : state_t ι ρ) (p : ι) : state_t ι ρ :=
  { s with registrations := s.registrations.set p { s.registrations.elt p with is_called := true } }

section fields

variable (r : registrations_t ι) (s : state_t ι ρ) (p : ι) (element : function_list_elt_t ι) (event : event_t ι ρ)

@[simp] theorem registrations_t.set_head : (r.set p element).head = r.head := rfl
@[simp] theorem registrations_t.set_self : (r.set p element).elt p = element := by
  simp [registrations_t.set]
theorem registrations_t.set_other {q : ι} (hq : q ≠ p) : (r.set p element).elt q = r.elt q := by
  simp [registrations_t.set, hq]

omit [DecidableEq ι] in
@[simp] theorem state_t.log_registrations : (s.log event).registrations = s.registrations := rfl
omit [DecidableEq ι] in
@[simp] theorem state_t.log_trace : (s.log event).trace = s.trace ++ [event] := rfl
@[simp] theorem state_t.mark_trace : (s.mark p).trace = s.trace := rfl
@[simp] theorem state_t.mark_head : (s.mark p).registrations.head = s.registrations.head := rfl

theorem registrations_t.set_next : (r.set p element).next = Function.update r.next p element.next := by
  funext q
  by_cases hq : q = p
  · subst hq
    simp [registrations_t.next]
  · simp [registrations_t.next, registrations_t.set_other r p element hq, Function.update_of_ne hq]

end fields

/-- The loop of the macro: the first element of a function that is not marked. -/
def uncalled_from (f : ι) (r : registrations_t ι) : Nat → Option ι → Except fault_t (Option ι)
  | _, none => .ok none
  | 0, some _ => .error .unbounded
  | steps + 1, some p =>
    if (r.elt p).func = f ∧ r.is_called p = false then .ok (some p)
    else uncalled_from f r steps (r.next p)

section calls

variable (body : ι → body_t ι ρ) (ok : ρ) (steps : Nat)

omit [DecidableEq ι] in
/-- The rest of a body, where `call` is what the macro does. -/
def run_body (call : ι → state_t ι ρ → Except fault_t (ρ × state_t ι ρ)) (caller : ι) :
    body_t ι ρ → state_t ι ρ → Except fault_t (ρ × state_t ι ρ)
  | .ret code, s => .ok (code, s)
  | .call func next, s => do
    let (code, s) ← call func (s.log (.requested caller func))
    run_body call caller (next code) (s.log (.resumed caller func code))

/-- An element is marked and its function is run. -/
def call_element (call : ι → state_t ι ρ → Except fault_t (ρ × state_t ι ρ)) (p : ι) (s : state_t ι ρ) :
    Except fault_t (ρ × state_t ι ρ) := do
  let s := s.mark p
  let func := (s.registrations.elt p).func
  let (code, s) ← run_body call func (body func) (s.log (.entered func))
  .ok (code, s.log (.returned func code))

/-- `sc_call_init_function` and `sc_call_exit_function`. The last argument but two
    bounds how deep calls are nested, `steps` how long the loops are. -/
def sc_call_function : Nat → ι → state_t ι ρ → Except fault_t (ρ × state_t ι ρ)
  | 0, _, _ => .error .unbounded
  | depth + 1, f, s => do
    match ← uncalled_from f s.registrations steps s.registrations.head with
    | none => .ok (ok, s)
    | some p => call_element body (sc_call_function depth) p s

/-- What a pass over the list comes to: the code returned, the functions called by
    the pass itself, each with the code it returned, and the state left behind. -/
structure pass_t (ι ρ : Type) where
  ret : ρ
  called : List (ι × ρ)
  state : state_t ι ρ

/-- The loop of a pass, which may end at a function. -/
def call_all_from (goes_on : ρ → Bool) (depth : Nat) :
    Nat → ρ → Option ι → state_t ι ρ → Except fault_t (pass_t ι ρ)
  | _, ret, none, s => .ok { ret, called := [], state := s }
  | 0, _, some _, _ => .error .unbounded
  | left + 1, ret, some p, s =>
    if s.registrations.is_called p = false then do
      let func := (s.registrations.elt p).func
      let (ret, s) ← call_element body (sc_call_function body ok steps depth) p s
      if goes_on ret then
        let rest ← call_all_from goes_on depth left ret (s.registrations.next p) s
        .ok { rest with called := (func, ret) :: rest.called }
      else .ok { ret, called := [(func, ret)], state := s }
    else call_all_from goes_on depth left ret (s.registrations.next p) s

def call_all (goes_on : ρ → Bool) (fuel : Nat) (r : registrations_t ι) : Except fault_t (pass_t ι ρ) :=
  call_all_from body ok fuel goes_on fuel fuel ok r.head { registrations := r }

end calls

def sc_call_init_function (body : ι → body_t ι sr_error_t) (steps depth : Nat) (f : ι) (s : state_t ι sr_error_t) :
    Except fault_t (sr_error_t × state_t ι sr_error_t) :=
  sc_call_function body .SR_ERR_OK steps depth f s

/-- The loop ends at the first function that fails. -/
def sc_call_all_init_function (body : ι → body_t ι sr_error_t) (fuel : Nat) (r : registrations_t ι) :
    Except fault_t (pass_t ι sr_error_t) :=
  call_all body .SR_ERR_OK (· = .SR_ERR_OK) fuel r

/-- Exit functions return nothing. -/
def sc_call_exit_function (body : ι → body_t ι Unit) (steps depth : Nat) (f : ι) (s : state_t ι Unit) :
    Except fault_t (Unit × state_t ι Unit) :=
  sc_call_function body () steps depth f s

def sc_call_all_exit_function (body : ι → body_t ι Unit) (fuel : Nat) (r : registrations_t ι) :
    Except fault_t (pass_t ι Unit) :=
  call_all body () (fun _ => true) fuel r

/-- Init and exit functions have a list each. -/
inductive tag_t where
  | init
  | exit
deriving DecidableEq

/-- The lists that hang on `sc_plugin_main_t`. -/
structure sc_plugin_main_t (ι : Type) where
  init_function_registrations : registrations_t ι
  exit_function_registrations : registrations_t ι

def sc_plugin_main_t.registrations (pm : sc_plugin_main_t ι) : tag_t → registrations_t ι
  | .init => pm.init_function_registrations
  | .exit => pm.exit_function_registrations

def sc_plugin_main_t.set (pm : sc_plugin_main_t ι) (tag : tag_t) (r : registrations_t ι) : sc_plugin_main_t ι :=
  match tag with
  | .init => { pm with init_function_registrations := r }
  | .exit => { pm with exit_function_registrations := r }

/-- What works on the lists: the constructor and the destructor of each function,
    and the passes, with what the bodies do in them. -/
inductive routine_t (ι : Type) where
  | add (tag : tag_t) (f : ι)
  | rm (tag : tag_t) (f : ι)
  | call_all_init (body : ι → body_t ι sr_error_t)
  | call_all_exit (body : ι → body_t ι Unit)

def routine_t.step (fuel : Nat) (pm : sc_plugin_main_t ι) : routine_t ι → Except fault_t (sc_plugin_main_t ι)
  | .add tag f => .ok (pm.set tag (sc_add_function f (pm.registrations tag)))
  | .rm tag f => do
    let r ← sc_rm_function fuel f (pm.registrations tag)
    .ok (pm.set tag r)
  | .call_all_init body => do
    let pass ← sc_call_all_init_function body fuel (pm.registrations .init)
    .ok (pm.set .init pass.state.registrations)
  | .call_all_exit body => do
    let pass ← sc_call_all_exit_function body fuel (pm.registrations .exit)
    .ok (pm.set .exit pass.state.registrations)

def run (fuel : Nat) (pm : sc_plugin_main_t ι) (routines : List (routine_t ι)) :
    Except fault_t (sc_plugin_main_t ι) :=
  routines.foldlM (routine_t.step fuel) pm

section main

variable (pm : sc_plugin_main_t ι) (tag : tag_t) (r : registrations_t ι)

omit [DecidableEq ι]

@[simp] theorem sc_plugin_main_t.set_same : (pm.set tag r).registrations tag = r := by cases tag <;> rfl

theorem sc_plugin_main_t.set_other {tag other : tag_t} (hother : other ≠ tag) :
    (pm.set tag r).registrations other = pm.registrations other := by
  cases tag <;> cases other <;> first | rfl | exact absurd rfl hother

end main

end sweetcomb.sc_init
