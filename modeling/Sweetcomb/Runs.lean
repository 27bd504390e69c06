import Mathlib.Data.List.Basic
import Mathlib.Tactic.Tauto

namespace runs

variable {σ ι : Type}

/-- A relation between the state before a step and its input holds at every
    step of the run. -/
def Along (step : σ → ι → σ) (holds : σ → ι → Prop) : σ → List ι → Prop
  | _, [] => True
  | state, input :: inputs => holds state input ∧ Along step holds (step state input) inputs

@[simp]
theorem along_nil (step : σ → ι → σ) (holds : σ → ι → Prop) (state : σ) : Along step holds state [] :=
  trivial

@[simp]
theorem along_cons (step : σ → ι → σ) (holds : σ → ι → Prop) (state : σ) (input : ι) (inputs : List ι) :
    Along step holds state (input :: inputs) ↔
      holds state input ∧ Along step holds (step state input) inputs :=
  Iff.rfl

/-- A relation that ignores the state holds along a run when it holds of every
    input. -/
theorem along_forall {step : σ → ι → σ} {holds : ι → Prop} {state : σ} {inputs : List ι} :
    Along step (fun _ input => holds input) state inputs ↔ ∀ input ∈ inputs, holds input := by
  induction inputs generalizing state with
  | nil => simp
  | cons input inputs ih => simp [ih]

/-- Relations that agree at every step hold along the same runs. -/
theorem along_congr {step : σ → ι → σ} {first second : σ → ι → Prop}
    (hagree : ∀ state input, first state input ↔ second state input) {state : σ} {inputs : List ι} :
    Along step first state inputs ↔ Along step second state inputs := by
  induction inputs generalizing state with
  | nil => simp
  | cons input inputs ih => rw [along_cons, along_cons, hagree, ih]

theorem along_and {step : σ → ι → σ} {first second : σ → ι → Prop} {state : σ} {inputs : List ι} :
    Along step (fun state input => first state input ∧ second state input) state inputs ↔
      Along step first state inputs ∧ Along step second state inputs := by
  induction inputs generalizing state with
  | nil => simp
  | cons input inputs ih =>
    simp only [along_cons, ih]
    tauto

/-- Run rule: a step lemma that needs the invariant before the step and gives
    it back after the step carries its conclusion along the whole run. -/
theorem along_of_step {step : σ → ι → σ} {inv : σ → Prop} {admits holds : σ → ι → Prop}
    (hstep : ∀ state input, inv state → admits state input → holds state input ∧ inv (step state input))
    {state : σ} (hinv : inv state) {inputs : List ι} (hadmits : Along step admits state inputs) :
    Along step holds state inputs := by
  induction inputs generalizing state with
  | nil => trivial
  | cons input inputs ih =>
    obtain ⟨hfirst, hrest⟩ := hadmits
    obtain ⟨hholds, hnext⟩ := hstep state input hinv hfirst
    exact ⟨hholds, ih hnext hrest⟩

/-- What every step of a run keeps holds at its end. -/
theorem foldl_of_step {step : σ → ι → σ} {inv : σ → Prop} {admits : σ → ι → Prop}
    (hstep : ∀ state input, inv state → admits state input → inv (step state input)) {state : σ} (hinv : inv state)
    {inputs : List ι} (hadmits : Along step admits state inputs) : inv (inputs.foldl step state) := by
  induction inputs generalizing state with
  | nil => exact hinv
  | cons input inputs ih => exact ih (hstep state input hinv hadmits.1) hadmits.2

/-- Exact run rule: when, from a state under the invariant, a step is good
    exactly if its input meets a condition, and a good step keeps the invariant,
    a run is good throughout exactly if every step meets the condition. -/
theorem along_iff_of_step {step : σ → ι → σ} (inv : σ → Prop) {admits good condition : σ → ι → Prop}
    (hexact : ∀ state input, inv state → admits state input → (good state input ↔ condition state input))
    (hkeeps : ∀ state input, inv state → admits state input → good state input → inv (step state input))
    {state : σ} (hinv : inv state) {inputs : List ι} (hadmits : Along step admits state inputs) :
    Along step good state inputs ↔ Along step condition state inputs := by
  induction inputs generalizing state with
  | nil => simp
  | cons input inputs ih =>
    obtain ⟨hfirst, hrest⟩ := hadmits
    rw [along_cons, along_cons, hexact state input hinv hfirst]
    refine and_congr_right fun hcondition => ?_
    have hgood := (hexact state input hinv hfirst).mpr hcondition
    exact ih (hkeeps state input hinv hfirst hgood) hrest

end runs
