import Sweetcomb.Plugin.Registrations.Live

open linked_list

namespace sweetcomb.sc_init

variable {ι ρ : Type} [DecidableEq ι]

/-- The functions whose bodies a pass enters, itself or through what other bodies
    ask for. -/
def pass_entries : Except fault_t (pass_t ι ρ) → List ι
  | .ok pass => entries pass.state.trace
  | .error _ => []

/-- What a routine enters of one list. -/
def routine_t.enters (fuel : Nat) (pm : sc_plugin_main_t ι) (tag : tag_t) : routine_t ι → List ι
  | .add _ _ => []
  | .rm _ _ => []
  | .call_all_init body =>
    if tag = .init then pass_entries (sc_call_all_init_function body fuel (pm.registrations .init)) else []
  | .call_all_exit body =>
    if tag = .exit then pass_entries (sc_call_all_exit_function body fuel (pm.registrations .exit)) else []

/-- The functions entered along a run. -/
def entered (fuel : Nat) (tag : tag_t) : sc_plugin_main_t ι → List (routine_t ι) → List ι
  | _, [] => []
  | pm, routine :: rest =>
    routine.enters fuel pm tag ++
      match routine.step fuel pm with
      | .ok next => entered fuel tag next rest
      | .error _ => []

/-- A pass that goes through to the end of its list. -/
def routine_t.Completes (fuel : Nat) (pm : sc_plugin_main_t ι) (tag : tag_t) : routine_t ι → Prop
  | .call_all_init body => tag = .init ∧
    ∃ pass, sc_call_all_init_function body fuel (pm.registrations .init) = .ok pass ∧ pass.ret = .SR_ERR_OK
  | .call_all_exit _ => tag = .exit
  | _ => False

section runs

variable {fuel : Nat} {tag : tag_t} {pm middle : sc_plugin_main_t ι} {routines : List (routine_t ι)}

end runs

/-- The marks of a list are those of before and of what has been entered meanwhile,
    which was live and had no mark. -/
structure Enters (r after : registrations_t ι) (live entered : List ι) : Prop where
  called : ∀ f, after.is_called f = true ↔ r.is_called f = true ∨ f ∈ entered
  fresh : ∀ f ∈ entered, f ∈ live ∧ r.is_called f = false
  once : entered.Nodup

omit [DecidableEq ι] in
theorem Enters.none (r : registrations_t ι) (live : List ι) : Enters r r live [] :=
  ⟨by simp, by simp, List.nodup_nil⟩

omit [DecidableEq ι] in
theorem Served.enters {fs : List ι} {r : registrations_t ι} {after : state_t ι ρ} {added : List (event_t ι ρ)}
    (hserved : Served fs { registrations := r } after added) :
    Enters r after.registrations fs (entries after.trace) := by
  have htrace : after.trace = added := hserved.trace
  rw [htrace]
  exact ⟨hserved.called, hserved.fresh, hserved.once⟩

/-- What a routine does to one of the lists: its function is registered there or
    unregistered, or bodies are entered, none when it works on the other list. -/
inductive Effect (fuel : Nat) (pm after : sc_plugin_main_t ι) (tag : tag_t) (before : List (routine_t ι)) :
    routine_t ι → Prop where
  | add (f : ι) (hadded : after.registrations tag = sc_add_function f (pm.registrations tag)) :
    Effect fuel pm after tag before (.add tag f)
  | rm (f : ι) (hremoved : Removed (pm.registrations tag) (after.registrations tag)) :
    Effect fuel pm after tag before (.rm tag f)
  | pass {routine : routine_t ι} (hregistered : registered tag [routine] = [])
    (hunregistered : unregistered tag [routine] = [])
    (henters : Enters (pm.registrations tag) (after.registrations tag) (live tag before) (routine.enters fuel pm tag))
    (hcompletes : routine.Completes fuel pm tag →
      ∀ f ∈ live tag before, (after.registrations tag).is_called f = true) :
    Effect fuel pm after tag before routine

section steps

variable {fuel : Nat} {tag : tag_t} {pm after : sc_plugin_main_t ι} {before : List (routine_t ι)}
  {routine : routine_t ι}

/-- A routine leaves the list that it does not work on. -/
theorem Effect.other (hsame : after.registrations tag = pm.registrations tag)
    (hregistered : registered tag [routine] = []) (hunregistered : unregistered tag [routine] = [])
    (henters : routine.enters fuel pm tag = []) (hcompletes : ¬ routine.Completes fuel pm tag) :
    Effect fuel pm after tag before routine := by
  refine .pass hregistered hunregistered ?_ fun hcompleted => absurd hcompleted hcompletes
  rw [henters, hsame]
  exact .none _ _

end steps

/-- Of one list, nothing has been entered twice, only what has been registered has
    been, and the marks of what is live tell what has. -/
structure Ledger (r : registrations_t ι) (tag : tag_t) (routines : List (routine_t ι)) (entered : List ι) : Prop where
  once : entered.Nodup
  known : ∀ f ∈ entered, f ∈ registered tag routines
  marked : ∀ f ∈ live tag routines, r.is_called f = true ↔ f ∈ entered

section ledger

variable {fuel : Nat} {tag : tag_t} {pm after : sc_plugin_main_t ι} {routines : List (routine_t ι)}
  {routine : routine_t ι} {past : List ι}

theorem Ledger.registered_append (hledger : Ledger (pm.registrations tag) tag routines past) {f : ι} (hf : f ∈ past) :
    f ∈ registered tag (routines ++ [routine]) := by
  rw [sc_init.registered_append]
  exact List.mem_append_left _ (hledger.known f hf)

theorem Ledger.step (hledger : Ledger (pm.registrations tag) tag routines past)
    (hlisted : Listed (pm.registrations tag) (live tag routines)) (hadmissible : Admissible routines)
    (hadmits : Admits routines routine) (heffect : Effect fuel pm after tag routines routine) :
    Ledger (after.registrations tag) tag (routines ++ [routine]) (past ++ routine.enters fuel pm tag) := by
  cases heffect with
  | add f hadded =>
    have hregistered : f ∉ registered tag routines := hadmits
    have hunregistered : f ∉ unregistered tag routines :=
      fun hf => hregistered (hadmissible.registered_of_unregistered hf)
    rw [routine_t.enters, List.append_nil, hadded]
    refine ⟨hledger.once, fun g hg => hledger.registered_append hg, fun g hg => ?_⟩
    by_cases hsame : g = f
    · subst hsame
      have hfresh : g ∉ past := fun hmem => hregistered (hledger.known g hmem)
      simp [sc_add_function, registrations_t.is_called, hfresh]
    · rw [live_add hunregistered, List.mem_cons, or_iff_right hsame] at hg
      rw [add_called hsame]
      exact hledger.marked g hg
  | rm f hremoved =>
    rw [routine_t.enters, List.append_nil]
    refine ⟨hledger.once, fun g hg => hledger.registered_append hg, fun g hg => ?_⟩
    rw [live_rm hlisted.chain.nodup] at hg
    rw [hremoved.called]
    exact hledger.marked g (List.mem_of_mem_erase hg)
  | pass hregistered hunregistered henters hcompletes =>
    refine ⟨List.nodup_append'.mpr ⟨hledger.once, henters.once, fun f hf hagain => ?_⟩, fun f hf => ?_, fun f hf => ?_⟩
    · -- what is live and has been entered has its mark
      obtain ⟨hlive, huncalled⟩ := henters.fresh f hagain
      have hmarked := (hledger.marked f hlive).mpr hf
      rw [huncalled] at hmarked
      cases hmarked
    · rcases List.mem_append.mp hf with hf | hf
      · exact hledger.registered_append hf
      · have hlive : f ∈ live tag routines := (henters.fresh f hf).1
        rw [sc_init.registered_append]
        exact List.mem_append_left _ (List.mem_reverse.mp (List.mem_of_mem_filter hlive))
    · rw [live_other hregistered hunregistered] at hf
      rw [henters.called, List.mem_append]
      exact or_congr_left (hledger.marked f hf)

end ledger

end sweetcomb.sc_init
