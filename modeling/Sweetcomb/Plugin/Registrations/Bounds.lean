import Sweetcomb.Plugin.Registrations

namespace sweetcomb.sc_init

variable {ι ρ α β : Type}

/-- What the first computation returns, the second returns. -/
def Keeps (first second : Except fault_t α) : Prop :=
  ∀ value, first = .ok value → second = .ok value

theorem Keeps.refl (result : Except fault_t α) : Keeps result result :=
  fun _ hresult => hresult

theorem Keeps.bind {first second : Except fault_t α} {next other : α → Except fault_t β} (hkeeps : Keeps first second)
    (hnext : ∀ value, Keeps (next value) (other value)) : Keeps (first >>= next) (second >>= other) := by
  intro result hresult
  cases hfirst : first with
  | error fault =>
    rw [hfirst] at hresult
    cases hresult
  | ok value =>
    rw [hfirst] at hresult
    rw [hkeeps value hfirst]
    exact hnext value result hresult

variable [DecidableEq ι]

section calls

variable {call other : ι → state_t ι ρ → Except fault_t (ρ × state_t ι ρ)}

variable (body : ι → body_t ι ρ) (ok : ρ) {steps more depth deeper : Nat}

end calls

end sweetcomb.sc_init
