import Sweetcomb.Sysrepo

namespace sweetcomb

variable {ι : Type}

/-- A registration of an init or an exit function, both generated by one macro.
    A registration is known by its function. -/
structure sc_function_list_elt_t (ι : Type) where
  func : ι
  is_called : Bool := false
deriving DecidableEq

/-- What a pass over the init functions comes to: the code returned, the list as
    it is left, and the functions run, each with the code it returned. -/
structure init_pass_t (ι : Type) where
  ret : sr_error_t
  registrations : List (sc_function_list_elt_t ι)
  ran : List (ι × sr_error_t)
deriving DecidableEq

/-- The loop of `sc_call_all_init_function`. `func_rc` gives what each function
    returns if it is run in this pass. -/
def init_functions_from (func_rc : ι → sr_error_t) (ret : sr_error_t) :
    List (sc_function_list_elt_t ι) → init_pass_t ι
  | [] => { ret, registrations := [], ran := [] }
  | p :: next =>
    if p.is_called = false then
      -- marked before its result is known
      let called := { p with is_called := true }
      let ret := func_rc p.func
      if ret ≠ .SR_ERR_OK then
        { ret, registrations := called :: next, ran := [(p.func, ret)] }
      else
        let rest := init_functions_from func_rc ret next
        { rest with registrations := called :: rest.registrations, ran := (p.func, ret) :: rest.ran }
    else
      let rest := init_functions_from func_rc ret next
      { rest with registrations := p :: rest.registrations }

def sc_call_all_init_function (func_rc : ι → sr_error_t)
    (registrations : List (sc_function_list_elt_t ι)) : init_pass_t ι :=
  init_functions_from func_rc .SR_ERR_OK registrations

/-- The list as the pass leaves it, and the functions run. -/
def sc_call_all_exit_function :
    List (sc_function_list_elt_t ι) → List (sc_function_list_elt_t ι) × List ι
  | [] => ([], [])
  | p :: next =>
    let rest := sc_call_all_exit_function next
    if p.is_called = false then
      ({ p with is_called := true } :: rest.1, p.func :: rest.2)
    else
      (p :: rest.1, rest.2)

section passes

variable (func_rc : ι → sr_error_t) (p : sc_function_list_elt_t ι)
  (next registrations : List (sc_function_list_elt_t ι))

@[simp]
theorem sc_call_all_init_function_nil :
    sc_call_all_init_function func_rc [] = { ret := .SR_ERR_OK, registrations := [], ran := [] } :=
  rfl

variable {p}

theorem sc_call_all_init_function_called (hcalled : p.is_called = true) :
    sc_call_all_init_function func_rc (p :: next) =
      { sc_call_all_init_function func_rc next with
        registrations := p :: (sc_call_all_init_function func_rc next).registrations } := by
  simp [sc_call_all_init_function, init_functions_from, hcalled]

variable {func_rc}

theorem sc_call_all_init_function_succeeds (hcalled : p.is_called = false)
    (hrc : func_rc p.func = .SR_ERR_OK) :
    sc_call_all_init_function func_rc (p :: next) =
      { ret := (sc_call_all_init_function func_rc next).ret
        registrations := { p with is_called := true } ::
          (sc_call_all_init_function func_rc next).registrations
        ran := (p.func, .SR_ERR_OK) :: (sc_call_all_init_function func_rc next).ran } := by
  simp [sc_call_all_init_function, init_functions_from, hcalled, hrc]

theorem sc_call_all_init_function_fails (hcalled : p.is_called = false)
    (hrc : func_rc p.func ≠ .SR_ERR_OK) :
    sc_call_all_init_function func_rc (p :: next) =
      { ret := func_rc p.func
        registrations := { p with is_called := true } :: next
        ran := [(p.func, func_rc p.func)] } := by
  simp [sc_call_all_init_function, init_functions_from, hcalled, hrc]

variable (func_rc)

/-- The pass succeeds exactly when every function that it is left to run does. -/
theorem sc_call_all_init_function_ok_iff :
    (sc_call_all_init_function func_rc registrations).ret = .SR_ERR_OK ↔
      ∀ p ∈ registrations, p.is_called = false → func_rc p.func = .SR_ERR_OK := by
  induction registrations with
  | nil => simp
  | cons p next ih =>
    cases hcalled : p.is_called with
    | true => simp [sc_call_all_init_function_called, hcalled, ih]
    | false =>
      by_cases hrc : func_rc p.func = .SR_ERR_OK
      · simp [sc_call_all_init_function_succeeds next hcalled hrc, hcalled, hrc, ih]
      · simp [sc_call_all_init_function_fails next hcalled hrc, hcalled, hrc]

/-- A successful pass has run what was not marked as called, and nothing else. -/
theorem mem_ran_iff_of_ok {registrations : List (sc_function_list_elt_t ι)}
    (hok : (sc_call_all_init_function func_rc registrations).ret = .SR_ERR_OK) (func : ι) :
    (func, sr_error_t.SR_ERR_OK) ∈ (sc_call_all_init_function func_rc registrations).ran ↔
      ∃ p ∈ registrations, p.func = func ∧ p.is_called = false := by
  induction registrations with
  | nil => simp
  | cons p next ih =>
    rw [sc_call_all_init_function_ok_iff] at hok
    have hnext : (sc_call_all_init_function func_rc next).ret = .SR_ERR_OK :=
      (sc_call_all_init_function_ok_iff func_rc next).mpr fun q hq => hok q (List.mem_cons_of_mem p hq)
    cases hcalled : p.is_called with
    | true => simp [sc_call_all_init_function_called, hcalled, ih hnext]
    | false =>
      have hrc := hok p List.mem_cons_self hcalled
      simp [sc_call_all_init_function_succeeds next hcalled hrc, hcalled, ih hnext, eq_comm (a := func)]

/-- Whatever the pass comes to, it runs only what is not marked as called. -/
theorem uncalled_of_mem_ran {registrations : List (sc_function_list_elt_t ι)} {func : ι} {rc : sr_error_t}
    (hran : (func, rc) ∈ (sc_call_all_init_function func_rc registrations).ran) :
    ∃ p ∈ registrations, p.func = func ∧ p.is_called = false := by
  induction registrations with
  | nil => simp at hran
  | cons p next ih =>
    cases hcalled : p.is_called with
    | true =>
      rw [sc_call_all_init_function_called func_rc next hcalled] at hran
      obtain ⟨q, hq, hfound⟩ := ih hran
      exact ⟨q, List.mem_cons_of_mem p hq, hfound⟩
    | false =>
      by_cases hrc : func_rc p.func = .SR_ERR_OK
      · rw [sc_call_all_init_function_succeeds next hcalled hrc, List.mem_cons] at hran
        cases hran with
        | inl hp =>
          cases hp
          exact ⟨p, List.mem_cons_self, rfl, hcalled⟩
        | inr hnext =>
          obtain ⟨q, hq, hfound⟩ := ih hnext
          exact ⟨q, List.mem_cons_of_mem p hq, hfound⟩
      · rw [sc_call_all_init_function_fails next hcalled hrc, List.mem_singleton] at hran
        cases hran
        exact ⟨p, List.mem_cons_self, rfl, hcalled⟩

/-- A pass changes a registration only by marking it. -/
theorem called_or_mem_of_mem {registrations : List (sc_function_list_elt_t ι)} {p : sc_function_list_elt_t ι}
    (hp : p ∈ (sc_call_all_init_function func_rc registrations).registrations) :
    p.is_called = true ∨ p ∈ registrations := by
  induction registrations with
  | nil => simp at hp
  | cons q next ih =>
    cases hcalled : q.is_called with
    | true =>
      rw [sc_call_all_init_function_called func_rc next hcalled, List.mem_cons] at hp
      cases hp with
      | inl hq => exact .inl (hq ▸ hcalled)
      | inr hnext => exact (ih hnext).imp_right (List.mem_cons_of_mem q)
    | false =>
      by_cases hrc : func_rc q.func = .SR_ERR_OK
      · rw [sc_call_all_init_function_succeeds next hcalled hrc, List.mem_cons] at hp
        cases hp with
        | inl hq => exact .inl (hq ▸ rfl)
        | inr hnext => exact (ih hnext).imp_right (List.mem_cons_of_mem q)
      · rw [sc_call_all_init_function_fails next hcalled hrc, List.mem_cons] at hp
        cases hp with
        | inl hq => exact .inl (hq ▸ rfl)
        | inr hnext => exact .inr (List.mem_cons_of_mem q hnext)

/-- A pass registers and removes nothing. -/
@[simp]
theorem sc_call_all_init_function_funcs :
    (sc_call_all_init_function func_rc registrations).registrations.map (·.func) =
      registrations.map (·.func) := by
  induction registrations with
  | nil => simp
  | cons p next ih =>
    cases hcalled : p.is_called with
    | true => simp [sc_call_all_init_function_called, hcalled, ih]
    | false =>
      by_cases hrc : func_rc p.func = .SR_ERR_OK
      · simp [sc_call_all_init_function_succeeds next hcalled hrc, ih]
      · simp [sc_call_all_init_function_fails next hcalled hrc]

/-- A successful pass leaves every registration marked as called. -/
theorem called_of_ok {registrations : List (sc_function_list_elt_t ι)}
    (hok : (sc_call_all_init_function func_rc registrations).ret = .SR_ERR_OK) :
    ∀ p ∈ (sc_call_all_init_function func_rc registrations).registrations, p.is_called = true := by
  induction registrations with
  | nil => simp
  | cons p next ih =>
    rw [sc_call_all_init_function_ok_iff] at hok
    have hnext : (sc_call_all_init_function func_rc next).ret = .SR_ERR_OK :=
      (sc_call_all_init_function_ok_iff func_rc next).mpr fun q hq => hok q (List.mem_cons_of_mem p hq)
    cases hcalled : p.is_called with
    | true => simpa [sc_call_all_init_function_called, hcalled] using ih hnext
    | false =>
      have hrc := hok p List.mem_cons_self hcalled
      simpa [sc_call_all_init_function_succeeds next hcalled hrc] using ih hnext

/-- Once every registration is marked, a pass runs nothing and succeeds, whatever
    the functions would return. -/
theorem sc_call_all_init_function_of_called {registrations : List (sc_function_list_elt_t ι)}
    (hcalled : ∀ p ∈ registrations, p.is_called = true) :
    sc_call_all_init_function func_rc registrations = { ret := .SR_ERR_OK, registrations, ran := [] } := by
  induction registrations with
  | nil => simp
  | cons p next ih =>
    obtain ⟨hp, hnext⟩ := List.forall_mem_cons.mp hcalled
    rw [sc_call_all_init_function_called func_rc next hp, ih hnext]

end passes

end sweetcomb
