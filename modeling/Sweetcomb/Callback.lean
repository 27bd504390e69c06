import Sweetcomb.Vom

namespace sweetcomb

/-- How a call of a callback ends, and the state it leaves. -/
structure cb_result where
  outcome : Except fault_t sr_error_t
  world : World

/-- Calls that end alike, after the same calls to VOM and in the same state. -/
structure cb_result.Same (first second : cb_result) : Prop where
  outcome : first.outcome = second.outcome
  calls : first.world.calls = second.world.calls
  world : first.world.Same second.world

/-- What the variables that no callback initialises hold at entry. -/
structure Uninit where
  create : Bool
  remove : Bool
  modify : Bool
  rc : sr_error_t
  xindex : UInt32
  m_state : Bool
  m_prefix_len : UInt16

/-- Ways out of the main path of a callback, with its variables at that
    point. -/
inductive Exit (locals : Type) where
  | goto_error (state : locals)
  | return_now (rc : sr_error_t) (state : locals)
  | fault (fault : fault_t) (state : locals)

/-- Reading through a pointer that may be null. -/
def deref {locals α : Type} (state : locals) (fault : fault_t) (pointer : Option α) :
    Except (Exit locals) α :=
  match pointer with
  | some value => .ok value
  | none => .error (.fault fault state)

@[simp]
theorem ok_bind {ε α β : Type} (value : α) (rest : α → Except ε β) :
    (Except.ok value >>= rest) = rest value := rfl

@[simp]
theorem error_bind {ε α β : Type} (exit : ε) (rest : α → Except ε β) :
    ((Except.error exit : Except ε α) >>= rest) = Except.error exit := rfl

@[simp]
theorem deref_some {locals α : Type} (state : locals) (fault : fault_t) (value : α) :
    deref state fault (some value) = .ok value := rfl

@[simp]
theorem deref_none {locals α : Type} (state : locals) (fault : fault_t) :
    deref state fault (none : Option α) = .error (.fault fault state) := rfl

end sweetcomb
