import Sweetcomb.Plugin
import Sweetcomb.Plugin.Registrations.Calls
import Sweetcomb.Separator

open linked_list separator

namespace sweetcomb.sc_init

variable {ι : Type} [DecidableEq ι]

section routines

variable {r : registrations_t ι} {fs : List ι} {f : ι}

theorem add_listed (hlisted : Listed r fs) (hfresh : f ∉ fs) : Listed (sc_add_function f r) (f :: fs) where
  chain := by
    have hnext : (sc_add_function f r).next = Function.update r.next f r.head := registrations_t.set_next r f _
    rw [hnext]
    exact hlisted.chain.push hfresh
  func := by
    refine List.forall_mem_cons.mpr ⟨by simp [sc_add_function], fun g hg => ?_⟩
    have hother : g ≠ f := ne_of_mem_of_not_mem hg hfresh
    simp [sc_add_function, registrations_t.set_other r f _ hother, hlisted.func g hg]

theorem add_called {g : ι} (hother : g ≠ f) : (sc_add_function f r).is_called g = r.is_called g := by
  simp [sc_add_function, registrations_t.is_called, registrations_t.set_other r f _ hother]

/-- What a destructor leaves: the list without its function, and the marks. -/
structure Removed (r after : registrations_t ι) : Prop where
  func : ∀ g, (after.elt g).func = (r.elt g).func
  called : ∀ g, after.is_called g = r.is_called g

omit [DecidableEq ι] in
theorem Listed.removed {after : registrations_t ι} (hlisted : Listed r fs) (hremoved : Removed r after)
    {left : List ι} (hchain : Chain after.next after.head left) (hleft : ∀ g ∈ left, g ∈ fs) : Listed after left :=
  ⟨hchain, fun g hg => (hremoved.func g).trans (hlisted.func g (hleft g hg))⟩

theorem set_link_removed (p : ι) (next : Option ι) : Removed r (r.set p { r.elt p with next }) where
  func := by
    intro g
    by_cases hg : g = p
    · subst hg
      simp
    · simp [registrations_t.set_other r p _ hg]
  called := by
    intro g
    by_cases hg : g = p
    · subst hg
      simp [registrations_t.is_called]
    · simp [registrations_t.is_called, registrations_t.set_other r p _ hg]

/-- The loop of a destructor, from an element of another function on. It touches
    no element before that. -/
theorem sc_rm_function_from_listed {p : ι} {nodes : List ι} (hchain : Chain r.next (r.next p) nodes)
    (hp : p ∉ nodes) (hfunc : ∀ g ∈ nodes, (r.elt g).func = g) {steps : Nat} (hsteps : nodes.length < steps) :
    ∃ after, sc_rm_function_from f steps p r = .ok after ∧ after.head = r.head ∧ Removed r after ∧
      (∀ g, g ≠ p → g ∉ nodes → after.next g = r.next g) ∧ Chain after.next (after.next p) (nodes.erase f) := by
  induction nodes generalizing p steps with
  | nil =>
    obtain ⟨steps, rfl⟩ := Nat.exists_eq_add_one.mpr hsteps
    have hlast : r.next p = none := hchain
    refine ⟨r, ?_, rfl, ⟨fun _ => rfl, fun _ => rfl⟩, fun _ _ _ => rfl, ?_⟩
    · simp [sc_rm_function_from, hlast]
    · simpa using hchain
  | cons node nodes ih =>
    obtain ⟨steps, rfl⟩ := Nat.exists_eq_add_one.mpr (Nat.lt_of_le_of_lt (Nat.zero_le _) hsteps)
    have hnodup := hchain.nodup
    obtain ⟨hnext, hrest⟩ := hchain
    obtain ⟨hnode, hfunc⟩ := List.forall_mem_cons.mp hfunc
    rw [List.mem_cons, not_or] at hp
    obtain ⟨hfirst, hnotin⟩ := hp
    by_cases hfound : node = f
    · subst hfound
      have hlink := registrations_t.set_next r p { r.elt p with next := r.next node }
      refine ⟨r.set p { r.elt p with next := r.next node }, ?_, rfl, set_link_removed p _, fun g hg _ => ?_, ?_⟩
      · simp [sc_rm_function_from, hnext, hnode]
      · rw [hlink, Function.update_of_ne hg]
      · have hlinked : Chain r.next (some p) (p :: node :: nodes) := ⟨rfl, hnext, hrest⟩
        rw [hlink, List.erase_cons_head]
        exact hlinked.unlink.2
    · obtain ⟨after, hrm, hhead, hremoved, hkept, hafter⟩ :=
        ih hrest (List.nodup_cons.mp hnodup).1 hfunc (Nat.lt_of_succ_lt_succ hsteps)
      refine ⟨after, ?_, hhead, hremoved, fun g _ hg => ?_, ?_⟩
      · simpa [sc_rm_function_from, hnext, hnode, hfound] using hrm
      · exact hkept g (List.ne_of_not_mem_cons hg) (List.not_mem_of_not_mem_cons hg)
      · rw [List.erase_cons_tail (by simpa using hfound)]
        exact ⟨(hkept p hfirst hnotin).trans hnext, hafter⟩

/-- A destructor takes its function out of a list that is not empty. -/
theorem rm_listed (f : ι) (hlisted : Listed r fs) (hnonempty : fs ≠ []) {steps : Nat} (hsteps : fs.length ≤ steps) :
    ∃ after, sc_rm_function steps f r = .ok after ∧ Listed after (fs.erase f) ∧ Removed r after := by
  obtain ⟨first, nodes, rfl⟩ := List.exists_cons_of_ne_nil hnonempty
  obtain ⟨hhead, hchain⟩ := hlisted.chain
  obtain ⟨hfirst, hfunc⟩ := List.forall_mem_cons.mp hlisted.func
  by_cases hfound : first = f
  · subst hfound
    have hremoved : Removed r { r with head := r.next first } := ⟨fun _ => rfl, fun _ => rfl⟩
    refine ⟨{ r with head := r.next first }, ?_, ?_, hremoved⟩
    · simp [sc_rm_function, hhead, hfirst]
    · rw [List.erase_cons_head]
      exact hlisted.removed hremoved hchain fun g hg => List.mem_cons_of_mem _ hg
  · obtain ⟨after, hrm, hsame, hremoved, _, hafter⟩ := sc_rm_function_from_listed hchain
      (List.nodup_cons.mp hlisted.chain.nodup).1 hfunc hsteps
    refine ⟨after, ?_, ?_, hremoved⟩
    · simpa [sc_rm_function, hhead, hfirst, hfound] using hrm
    · refine hlisted.removed hremoved ?_ fun g hg => List.mem_of_mem_erase hg
      rw [List.erase_cons_tail (by simpa using hfound)]
      exact ⟨hsame.trans hhead, hafter⟩

/-- A destructor faults on an empty list, whatever its function, and on no other. -/
theorem rm_null_head_iff (f : ι) (hlisted : Listed r fs) {steps : Nat} (hsteps : fs.length ≤ steps) :
    sc_rm_function steps f r = .error .null_head ↔ fs = [] := by
  constructor
  · intro hfault
    by_contra hnonempty
    obtain ⟨after, hrm, _⟩ := rm_listed f hlisted hnonempty hsteps
    rw [hrm] at hfault
    cases hfault
  · rintro rfl
    have hhead : r.head = none := hlisted.chain
    simp [sc_rm_function, hhead]

end routines

section live

variable (tag : tag_t) (routines : List (routine_t ι))

def registered : List ι :=
  routines.filterMap fun
    | .add other f => if other = tag then some f else none
    | _ => none

def unregistered : List ι :=
  routines.filterMap fun
    | .rm other f => if other = tag then some f else none
    | _ => none

/-- The functions registered and not yet unregistered, the last one first. -/
def live : List ι :=
  (registered tag routines).reverse.filter fun f => f ∉ unregistered tag routines

variable {tag routines} {f : ι}

omit [DecidableEq ι] in
theorem registered_append (first second : List (routine_t ι)) :
    registered tag (first ++ second) = registered tag first ++ registered tag second :=
  List.filterMap_append

omit [DecidableEq ι] in
theorem unregistered_append (first second : List (routine_t ι)) :
    unregistered tag (first ++ second) = unregistered tag first ++ unregistered tag second :=
  List.filterMap_append

theorem live_add (hfresh : f ∉ unregistered tag routines) :
    live tag (routines ++ [.add tag f]) = f :: live tag routines := by
  have hadded : registered tag [.add tag f] = [f] := by simp [registered]
  rw [live, registered_append, unregistered_append, hadded, List.reverse_append, List.reverse_singleton,
    List.singleton_append]
  change List.filter (fun g => decide (g ∉ unregistered tag routines ++ [])) _ = _
  rw [List.append_nil, List.filter_cons_of_pos (by simpa using hfresh)]
  rfl

theorem live_rm (hnodup : (live tag routines).Nodup) :
    live tag (routines ++ [.rm tag f]) = (live tag routines).erase f := by
  have hremoved : unregistered tag [.rm tag f] = [f] := by simp [unregistered]
  have hadded : registered tag [.rm tag f] = [] := rfl
  rw [hnodup.erase_eq_filter, live, live, registered_append, unregistered_append, hremoved, hadded, List.append_nil,
    List.filter_filter]
  refine List.filter_congr fun g _ => ?_
  simp [bne, beq_eq_decide, Bool.and_comm]

theorem live_other {routine : routine_t ι} (hregistered : registered tag [routine] = [])
    (hunregistered : unregistered tag [routine] = []) : live tag (routines ++ [routine]) = live tag routines := by
  rw [live, registered_append, unregistered_append, hregistered, hunregistered, List.append_nil, List.append_nil]
  rfl

theorem live_length_le : (live tag routines).length ≤ routines.length := by
  refine (List.length_filter_le _ _).trans ?_
  rw [List.length_reverse]
  exact List.length_filterMap_le _ _

end live

/-- When a routine runs: a constructor once, and a destructor after it. A
    destructor that runs again finds nothing to remove, and must not find an empty
    list. -/
def Admits (before : List (routine_t ι)) : routine_t ι → Prop
  | .add tag f => f ∉ registered tag before
  | .rm tag f => f ∈ registered tag before ∧ (f ∈ unregistered tag before → live tag before ≠ [])
  | _ => True

def Admissible (routines : List (routine_t ι)) : Prop :=
  ∀ before routine after, routines = before ++ routine :: after → Admits before routine

section admissible

variable {routines : List (routine_t ι)} {routine : routine_t ι}

theorem admissible_nil : Admissible ([] : List (routine_t ι)) := by
  intro before routine after hparts
  simp at hparts

theorem admissible_append : Admissible (routines ++ [routine]) ↔ Admissible routines ∧ Admits routines routine := by
  constructor
  · intro hadmissible
    refine ⟨fun before other after hparts => ?_, hadmissible routines routine [] rfl⟩
    exact hadmissible before other (after ++ [routine]) (by simp [hparts])
  · rintro ⟨hadmissible, hadmits⟩ before other after hparts
    rcases occurrence_append hparts with ⟨rest, hbefore, _⟩ | ⟨first, hlast, hbefore⟩
    · exact hadmissible before other rest hbefore
    · cases first with
      | nil =>
        cases hlast
        rw [hbefore, List.append_nil]
        exact hadmits
      | cons second first => simp at hlast

theorem Admissible.start {before after : List (routine_t ι)} (hadmissible : Admissible (before ++ after)) :
    Admissible before := by
  induction after using List.reverseRecOn with
  | nil => simpa using hadmissible
  | append_singleton after routine ih =>
    rw [← List.append_assoc] at hadmissible
    exact ih (admissible_append.mp hadmissible).1

theorem Admissible.registered_of_unregistered (hadmissible : Admissible routines) {tag : tag_t} {f : ι}
    (hf : f ∈ unregistered tag routines) : f ∈ registered tag routines := by
  obtain ⟨routine, hmem, hroutine⟩ := List.mem_filterMap.mp hf
  obtain ⟨before, after, rfl⟩ := List.append_of_mem hmem
  cases routine with
  | rm other g =>
    obtain ⟨rfl, rfl⟩ : other = tag ∧ g = f := by simpa using hroutine
    rw [registered_append, List.mem_append]
    exact .inl (hadmissible before (.rm other g) after rfl).1
  | add other g => cases hroutine
  | call_all_init body => cases hroutine
  | call_all_exit body => cases hroutine

/-- A destructor that may run finds a list that is not empty. -/
theorem live_ne_nil {tag : tag_t} {f : ι} (hadmits : Admits routines (.rm tag f)) : live tag routines ≠ [] := by
  by_cases hagain : f ∈ unregistered tag routines
  · exact hadmits.2 hagain
  · refine List.ne_nil_of_mem (a := f) ?_
    simp [live, hadmits.1, hagain]

end admissible

/-- Registering or unregistering a function leaves the marks of the others. -/
def Untouched (before after : sc_plugin_main_t ι) : routine_t ι → Prop
  | .add tag f => ∀ other g, (other, g) ≠ (tag, f) →
    (after.registrations other).is_called g = (before.registrations other).is_called g
  | .rm tag f => ∀ other g, (other, g) ≠ (tag, f) →
    (after.registrations other).is_called g = (before.registrations other).is_called g
  | _ => True

/-- The lists are those of the live functions. -/
def HoldsLive (pm : sc_plugin_main_t ι) (routines : List (routine_t ι)) : Prop :=
  ∀ tag, Listed (pm.registrations tag) (live tag routines)

section steps

variable {pm : sc_plugin_main_t ι} {routines : List (routine_t ι)} {fuel : Nat}

/-- What one routine does to its own list decides what both lists hold. -/
theorem HoldsLive.set (hholds : HoldsLive pm routines) {tag : tag_t} {routine : routine_t ι} {after : registrations_t ι}
    (hafter : Listed after (live tag (routines ++ [routine])))
    (hother : ∀ other, other ≠ tag → registered other [routine] = [] ∧ unregistered other [routine] = []) :
    HoldsLive (pm.set tag after) (routines ++ [routine]) := by
  intro other
  by_cases hsame : other = tag
  · subst hsame
    rw [sc_plugin_main_t.set_same]
    exact hafter
  · rw [sc_plugin_main_t.set_other pm after hsame, live_other (hother other hsame).1 (hother other hsame).2]
    exact hholds other

omit [DecidableEq ι] in
theorem called_set_other {tag other : tag_t} {after : registrations_t ι} {f g : ι} (hdistinct : (other, g) ≠ (tag, f))
    (hcalled : g ≠ f → after.is_called g = (pm.registrations tag).is_called g) :
    ((pm.set tag after).registrations other).is_called g = (pm.registrations other).is_called g := by
  by_cases hsame : other = tag
  · subst hsame
    rw [sc_plugin_main_t.set_same]
    exact hcalled fun hg => hdistinct (by rw [hg])
  · rw [sc_plugin_main_t.set_other pm after hsame]

theorem step_holds (hholds : HoldsLive pm routines) {routine : routine_t ι}
    (hadmissible : Admissible routines) (hadmits : Admits routines routine) (hfuel : routines.length ≤ fuel) :
    ∃ after, routine.step fuel pm = .ok after ∧ HoldsLive after (routines ++ [routine]) ∧
      Untouched pm after routine := by
  have hlength (tag : tag_t) : (live tag routines).length ≤ fuel := live_length_le.trans hfuel
  cases routine with
  | add tag f =>
    have hregistered : f ∉ registered tag routines := hadmits
    have hunregistered : f ∉ unregistered tag routines :=
      fun hf => hregistered (hadmissible.registered_of_unregistered hf)
    have hfresh : f ∉ live tag routines := by simp [live, hregistered]
    refine ⟨_, rfl, hholds.set ?_ ?_, fun other g hdistinct => called_set_other hdistinct add_called⟩
    · rw [live_add hunregistered]
      exact add_listed (hholds tag) hfresh
    · exact fun other hother => ⟨by simp [registered, Ne.symm hother], rfl⟩
  | rm tag f =>
    obtain ⟨after, hrm, hafter, hremoved⟩ := rm_listed f (hholds tag) (live_ne_nil hadmits) (hlength tag)
    refine ⟨pm.set tag after, ?_, hholds.set ?_ ?_, fun other g hdistinct => ?_⟩
    · simp only [routine_t.step, hrm]
      rfl
    · rw [live_rm (hholds tag).chain.nodup]
      exact hafter
    · exact fun other hother => ⟨rfl, by simp [unregistered, Ne.symm hother]⟩
    · exact called_set_other hdistinct fun _ => hremoved.called g
  | call_all_init body =>
    obtain ⟨pass, added, hpass, hserved, _⟩ :=
      call_all_served body .SR_ERR_OK (· = .SR_ERR_OK) (by simp) (hlength .init) (hholds .init)
    refine ⟨pm.set .init pass.state.registrations, ?_, hholds.set ?_ fun _ _ => ⟨rfl, rfl⟩, trivial⟩
    · simp only [routine_t.step, sc_call_all_init_function, hpass]
      rfl
    · rw [live_other rfl rfl]
      exact (hholds .init).of_same hserved.links
  | call_all_exit body =>
    obtain ⟨pass, added, hpass, hserved, _⟩ :=
      call_all_served body () (fun _ => true) rfl (hlength .exit) (hholds .exit)
    refine ⟨pm.set .exit pass.state.registrations, ?_, hholds.set ?_ fun _ _ => ⟨rfl, rfl⟩, trivial⟩
    · simp only [routine_t.step, sc_call_all_exit_function, hpass]
      rfl
    · rw [live_other rfl rfl]
      exact (hholds .exit).of_same hserved.links

theorem run_append (routine : routine_t ι) :
    run fuel pm (routines ++ [routine]) = run fuel pm routines >>= fun after => routine.step fuel after := by
  simp [run]

theorem run_holds (hadmissible : Admissible routines) (hempty : ∀ tag, (pm.registrations tag).head = none)
    (hfuel : routines.length ≤ fuel) : ∃ after, run fuel pm routines = .ok after ∧ HoldsLive after routines := by
  induction routines using List.reverseRecOn with
  | nil => exact ⟨pm, rfl, fun tag => ⟨hempty tag, by simp [live, registered]⟩⟩
  | append_singleton routines routine ih =>
    rw [List.length_append] at hfuel
    have hbefore : routines.length ≤ fuel := (Nat.le_add_right _ _).trans hfuel
    obtain ⟨hroutines, hadmits⟩ := admissible_append.mp hadmissible
    obtain ⟨middle, hrun, hholds⟩ := ih hroutines hbefore
    obtain ⟨after, hstep, hafter, _⟩ := step_holds hholds hroutines hadmits hbefore
    refine ⟨after, ?_, hafter⟩
    rw [run_append, hrun]
    exact hstep

end steps

/-- Along every admissible sequence no routine faults, each list ends, has no
    element twice and is that of the live functions, the last registered first,
    and no function loses or gains its mark with the registration of another. -/
theorem registrations_hold_live {routines : List (routine_t ι)} (hadmissible : Admissible routines)
    {start : sc_plugin_main_t ι} (hempty : ∀ tag, (start.registrations tag).head = none) {fuel : Nat}
    (hfuel : routines.length ≤ fuel) :
    (∃ pm, run fuel start routines = .ok pm ∧
      ∀ tag, Listed (pm.registrations tag) (live tag routines) ∧ (live tag routines).Nodup) ∧
    ∀ before routine after, routines = before ++ routine :: after →
      ∃ pm next, run fuel start before = .ok pm ∧ routine.step fuel pm = .ok next ∧ Untouched pm next routine := by
  constructor
  · obtain ⟨pm, hrun, hholds⟩ := run_holds hadmissible hempty hfuel
    exact ⟨pm, hrun, fun tag => ⟨hholds tag, (hholds tag).chain.nodup⟩⟩
  · rintro before routine after rfl
    have hbefore : before.length ≤ fuel := by
      rw [List.length_append] at hfuel
      omega
    obtain ⟨pm, hrun, hholds⟩ := run_holds hadmissible.start hempty hbefore
    obtain ⟨next, hnext, _, huntouched⟩ :=
      step_holds hholds hadmissible.start (hadmissible before routine after rfl) hbefore
    exact ⟨pm, next, hrun, hnext, huntouched⟩

/-- The lists before any constructor has run. -/
def sc_plugin_main_t.unloaded : sc_plugin_main_t model_t where
  init_function_registrations := { head := none, elt f := { next := none, func := f, is_called := false } }
  exit_function_registrations := { head := none, elt f := { next := none, func := f, is_called := false } }

/-- A function in the middle of the list goes, after a pass. -/
def middleRemoved : List (routine_t model_t) :=
  [.add .init .ietf_nat, .add .exit .ietf_nat, .add .init .openconfig_interface,
    .call_all_init fun _ => .ret .SR_ERR_OK, .add .init .ietf_interface, .rm .init .openconfig_interface]

theorem registrations_hold_live_middleRemoved :
    ∃ pm, run 6 .unloaded middleRemoved = .ok pm ∧ Listed (pm.registrations .init) [.ietf_interface, .ietf_nat] ∧
      Listed (pm.registrations .exit) [.ietf_nat] := by
  have hadmissible : Admissible middleRemoved := by
    have hparts : middleRemoved = (((((([] : List (routine_t model_t)).concat (.add .init .ietf_nat)).concat
        (.add .exit .ietf_nat)).concat (.add .init .openconfig_interface)).concat
        (.call_all_init fun _ => .ret .SR_ERR_OK)).concat (.add .init .ietf_interface)).concat
        (.rm .init .openconfig_interface) := rfl
    rw [hparts]
    simp only [List.concat_eq_append, admissible_append, admissible_nil, Admits, true_and, and_true]
    decide
  have hempty : ∀ tag, (sc_plugin_main_t.unloaded.registrations tag).head = none := by
    intro tag
    cases tag <;> rfl
  obtain ⟨⟨pm, hrun, hlists⟩, _⟩ := registrations_hold_live hadmissible hempty (Nat.le_refl 6)
  exact ⟨pm, hrun, (hlists .init).1, (hlists .exit).1⟩

end sweetcomb.sc_init
