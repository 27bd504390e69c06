import Mathlib.Logic.Function.Basic

namespace keyed_store

variable {κ ν : Type}

/-- What two owners hold together. -/
def joint (first second : κ → Option ν) : κ → Option ν :=
  fun key => (first key).or (second key)

/-- No key is held differently by the two. -/
def Compatible (first second : κ → Option ν) : Prop :=
  ∀ key one other, first key = some one → second key = some other → one = other

section joint

variable {first second : κ → Option ν}

theorem Compatible.symm (hcompatible : Compatible first second) : Compatible second first :=
  fun key one other hone hother => (hcompatible key other one hother hone).symm

theorem joint_comm (hcompatible : Compatible first second) : joint first second = joint second first := by
  funext key
  cases hfirst : first key with
  | none => simp [joint, hfirst]
  | some one =>
    cases hsecond : second key with
    | none => simp [joint, hfirst, hsecond]
    | some other => simp [joint, hfirst, hsecond, hcompatible key one other hfirst hsecond]

theorem joint_of_held {key : κ} {value : ν} (hheld : first key = some value) :
    joint first second key = some value := by
  simp [joint, hheld]

variable [DecidableEq κ] {key : κ} {value : Option ν}

/-- A write by one owner is a write to both together exactly when the other does not
    hold the key, or holds what is written. -/
theorem joint_update_iff (hcompatible : Compatible first second) :
    Compatible (Function.update first key value) second ∧
        joint (Function.update first key value) second = Function.update (joint first second) key value ↔
      second key = none ∨ second key = value := by
  constructor
  · rintro ⟨hafter, hjoint⟩
    cases hsecond : second key with
    | none => exact .inl rfl
    | some other =>
      have hwritten := congrFun hjoint key
      rw [joint, Function.update_self, Function.update_self, hsecond] at hwritten
      cases value with
      | none => simp at hwritten
      | some new => exact .inr (congrArg some (hafter key new other (Function.update_self ..) hsecond).symm)
  · intro hother
    constructor
    · intro at_key one other hone hsecond
      by_cases hkey : at_key = key
      · subst hkey
        rw [Function.update_self] at hone
        rcases hother with hnone | hsame
        · simp [hnone] at hsecond
        · exact Option.some.inj (hone.symm.trans (hsame.symm.trans hsecond))
      · rw [Function.update_of_ne hkey] at hone
        exact hcompatible at_key one other hone hsecond
    · funext at_key
      by_cases hkey : at_key = key
      · subst hkey
        rw [joint, Function.update_self, Function.update_self]
        rcases hother with hnone | hsame
        · rw [hnone, Option.or_none]
        · rw [hsame, Option.or_self]
      · simp only [joint, Function.update_of_ne hkey]

end joint

end keyed_store
