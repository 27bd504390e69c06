import Sweetcomb.Plugin
import Sweetcomb.Plugin.Registrations.Bounds
import Sweetcomb.Plugin.Registrations.Calls
import Sweetcomb.Plugin.Registrations.Direct
import Sweetcomb.Separator

open linked_list separator

namespace sweetcomb.sc_init

variable {ι ρ : Type}

/-- The body of a function has been entered and has not returned. -/
def Running (trace : List (event_t ι ρ)) (func : ι) : Prop :=
  func ∈ entries trace ∧ func ∉ returns trace

/-- Whatever a caller has asked for was running when it asked or has returned. -/
def Awaited (trace : List (event_t ι ρ)) (caller : ι) : Prop :=
  ∀ before func after, trace = before ++ .requested caller func :: after → Running before func ∨ func ∈ returns trace

/-- A caller goes on only when what it has asked for is awaited. -/
def Awaits (trace : List (event_t ι ρ)) : Prop :=
  ∀ before caller func code after, trace = before ++ .resumed caller func code :: after → Awaited before caller

section traces

variable {trace : List (event_t ι ρ)} {event : event_t ι ρ}

theorem Awaits.log (hawaits : Awaits trace)
    (hevent : ∀ caller func code, event = .resumed caller func code → Awaited trace caller) :
    Awaits (trace ++ [event]) := by
  intro before caller func code after htrace
  rcases occurrence_append htrace with ⟨rest, hbefore, _⟩ | ⟨start, hlast, hbefore⟩
  · exact hawaits before caller func code rest hbefore
  · cases start with
    | nil =>
      rw [List.append_nil] at hbefore
      rw [hbefore]
      exact hevent caller func code (List.cons.inj hlast).1
    | cons other start => simp at hlast

/-- What is added without a request of the caller does not concern it. -/
theorem Awaited.append {caller : ι} {added : List (event_t ι ρ)} (hawaited : Awaited trace caller)
    (hadded : ∀ func, .requested caller func ∉ added) : Awaited (trace ++ added) caller := by
  intro before func after htrace
  rcases occurrence_append htrace with ⟨rest, hbefore, _⟩ | ⟨start, hlast, _⟩
  · refine (hawaited before func rest hbefore).imp_right fun hreturned => ?_
    rw [returns_append, List.mem_append]
    exact .inl hreturned
  · exact absurd (by rw [hlast]; simp) (hadded func)

end traces

/-- The functions entered are the marked ones, whoever asks for another has been
    entered, and what is asked for is awaited. -/
structure Orderly (fs : List ι) (s : state_t ι ρ) : Prop where
  marked : ∀ f ∈ fs, s.registrations.is_called f = true ↔ f ∈ entries s.trace
  callers : ∀ caller func, .requested caller func ∈ s.trace → caller ∈ entries s.trace
  awaits : Awaits s.trace

section orderly

variable {fs : List ι} {s : state_t ι ρ}

theorem Orderly.requested (horderly : Orderly fs s) {caller : ι} (hcaller : caller ∈ entries s.trace) (func : ι) :
    Orderly fs (s.log (.requested caller func)) where
  marked := by simpa using horderly.marked
  callers := by
    intro other asked hmem
    simp only [state_t.log_trace, List.mem_append, List.mem_singleton, event_t.requested.injEq] at hmem
    rw [state_t.log_trace, entries_append, List.mem_append]
    rcases hmem with hmem | ⟨rfl, _⟩
    · exact .inl (horderly.callers other asked hmem)
    · exact .inl hcaller
  awaits := horderly.awaits.log fun _ _ _ hevent => by cases hevent

theorem Orderly.resumed (horderly : Orderly fs s) {caller : ι} (hawaited : Awaited s.trace caller) (func : ι)
    (code : ρ) : Orderly fs (s.log (.resumed caller func code)) where
  marked := by simpa using horderly.marked
  callers := by simpa using horderly.callers
  awaits := by
    refine horderly.awaits.log fun other asked result hevent => ?_
    cases hevent
    exact hawaited

theorem Orderly.returned (horderly : Orderly fs s) (func : ι) (code : ρ) :
    Orderly fs (s.log (.returned func code)) where
  marked := by simpa using horderly.marked
  callers := by simpa using horderly.callers
  awaits := horderly.awaits.log fun _ _ _ hevent => by cases hevent

theorem Orderly.entered [DecidableEq ι] (horderly : Orderly fs s) (p : ι) :
    Orderly fs ((s.mark p).log (.entered p)) where
  marked := by
    intro f hf
    simp [mark_called, horderly.marked f hf]
  callers := by
    intro caller func hmem
    have hmem : .requested caller func ∈ s.trace := by simpa using hmem
    simp [horderly.callers caller func hmem]
  awaits := horderly.awaits.log fun _ _ _ hevent => by cases hevent

end orderly

variable [DecidableEq ι]

section orderly_calls

variable (body : ι → body_t ι ρ) {fs : List ι} {bound : Nat}
  {call : ι → state_t ι ρ → Except fault_t (ρ × state_t ι ρ)} {s after : state_t ι ρ} {code : ρ}

end orderly_calls

end sweetcomb.sc_init
