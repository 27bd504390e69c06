import Sweetcomb.Plugin.Registrations

namespace sweetcomb.sc_init

variable {ι ρ : Type}

/-- How many bodies are running, and the functions called while none was, each
    with the code it returned. -/
structure calls_t (ι ρ : Type) where
  running : Nat := 0
  direct : List (ι × ρ) := []

def calls_t.after (calls : calls_t ι ρ) : event_t ι ρ → calls_t ι ρ
  | .entered _ => { calls with running := calls.running + 1 }
  | .returned func code =>
    if calls.running = 1 then { running := 0, direct := calls.direct ++ [(func, code)] }
    else { calls with running := calls.running - 1 }
  | .requested _ _ | .resumed _ _ _ => calls

def calls_of (trace : List (event_t ι ρ)) : calls_t ι ρ :=
  trace.foldl calls_t.after {}

@[simp]
theorem calls_of_append (trace : List (event_t ι ρ)) (event : event_t ι ρ) :
    calls_of (trace ++ [event]) = (calls_of trace).after event :=
  List.foldl_append

section nested

variable {call : ι → state_t ι ρ → Except fault_t (ρ × state_t ι ρ)} {s after : state_t ι ρ} {code : ρ}

variable [DecidableEq ι] (body : ι → body_t ι ρ)

end nested

end sweetcomb.sc_init
