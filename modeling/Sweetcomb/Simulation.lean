import Sweetcomb.Runs

open runs

namespace simulation

variable {σ τ ι κ ο : Type}

/-- A machine that answers each of its inputs. -/
structure Machine (σ ι ο : Type) where
  step : σ → ι → σ
  answer : σ → ι → ο

def Machine.run (machine : Machine σ ι ο) : σ → List ι → σ :=
  List.foldl machine.step

/-- The answers to the inputs that stand for something in a view, one after the
    other. -/
def Machine.answers (machine : Machine σ ι ο) (view : ι → Option κ) : σ → List ι → List ο
  | _, [] => []
  | state, input :: inputs =>
    if (view input).isSome then machine.answer state input :: machine.answers view (machine.step state input) inputs
    else machine.answers view (machine.step state input) inputs

/-- Every input that stands for one of the specification is answered alike by
    related states, and takes them to related states. The others leave a state
    related to what it was related to. -/
structure Simulates (spec : Machine τ κ ο) (machine : Machine σ ι ο) (view : ι → Option κ)
    (related : τ → σ → Prop) (admits : σ → ι → Prop) : Prop where
  answer : ∀ abstract state input seen, related abstract state → admits state input → view input = some seen →
    machine.answer state input = spec.answer abstract seen
  step : ∀ abstract state input seen, related abstract state → admits state input → view input = some seen →
    related (spec.step abstract seen) (machine.step state input)
  stutter : ∀ abstract state input, related abstract state → admits state input → view input = none →
    related abstract (machine.step state input)

variable {spec : Machine τ κ ο} {machine : Machine σ ι ο} {view : ι → Option κ} {related : τ → σ → Prop}
  {admits : σ → ι → Prop}

/-- A simulation carries over to runs: a run answers what it sees, and ends, as
    the specification does on what is seen of the inputs. -/
theorem Simulates.run (hsimulates : Simulates spec machine view related admits) {abstract : τ} {state : σ}
    (hrelated : related abstract state) {inputs : List ι} (hadmits : Along machine.step admits state inputs) :
    machine.answers view state inputs = spec.answers some abstract (inputs.filterMap view) ∧
      related (spec.run abstract (inputs.filterMap view)) (machine.run state inputs) := by
  induction inputs generalizing abstract state with
  | nil => exact ⟨rfl, hrelated⟩
  | cons input inputs ih =>
    obtain ⟨hfirst, hrest⟩ := hadmits
    cases hview : view input with
    | none =>
      have hnext := hsimulates.stutter abstract state input hrelated hfirst hview
      simpa [Machine.answers, Machine.run, hview] using ih hnext hrest
    | some seen =>
      have hanswer := hsimulates.answer abstract state input seen hrelated hfirst hview
      have hnext := hsimulates.step abstract state input seen hrelated hfirst hview
      simpa [Machine.answers, Machine.run, hview, hanswer] using ih hnext hrest

end simulation
