import Sweetcomb.Ietf.Interface.Determined
import Sweetcomb.Ietf.Interface.Entry
import Sweetcomb.Refcount

open loop

namespace sweetcomb.ietf_interface

/-- The node that a change is about. -/
def path_of : change_t → xpath_t
  | .created new_val => new_val.xpath
  | .modified _ new_val => new_val.xpath
  | .deleted old_val => old_val.xpath
  | .moved _ new_val => new_val.xpath

/-- A change at or below one of the containers of an interface's IP
    configuration. -/
def ip_level (change : change_t) : Bool :=
  match (path_of change)[2]? with
  | some node => node.name == "ipv4" || node.name == "ipv6"
  | none => false

/-- The changes of the interfaces themselves. -/
def own (changes : List change_t) : List change_t := changes.filter fun change => !ip_level change

/-- A write or a removal. -/
def om_call : vom_call → Bool
  | .write _ _ => true
  | .remove _ => true
  | .set _ _ => false

/-- Calls that end alike, with the same writes and removals and the same admin
    states. -/
structure Controls (first second : cb_result) : Prop where
  outcome : first.outcome = second.outcome
  calls : first.world.calls.filter om_call = second.world.calls.filter om_call
  states : ∀ name, (first.world.instances name).state = (second.world.instances name).state

/-- The name that is removed when nothing is written. -/
def discarded (uninit : Uninit) (changes : List change_t) : Option String :=
  if uninit.remove || changes.any removes then some (latest named "" changes) else none

/-- Two lists that are gone through ask for the same: what they create makes the
    same interface, or what one creates is the interface that the other sets last,
    or none creates and both set the same interface last or remove the same. -/
def SameRequest (uninit : Uninit) (w : World) (changes own : List change_t) : Prop :=
  if uninit.create || own.any creates then creation uninit.m_state changes = creation uninit.m_state own
  else if changes.any creates then
    ∃ name state, lastSet own = some (name, state) ∧
      creation uninit.m_state changes = some (name, { w.instances name with state })
  else
    lastSet changes = lastSet own ∧
      (lastSet changes = none → uninit.modify = false → discarded uninit changes = discarded uninit own)

/-- Two lists last set an interface to the same state. -/
def SameState (w : World) (changes own : List change_t) (name : String) : Prop :=
  latest (setsOf name) (w.instances name).state changes = latest (setsOf name) (w.instances name).state own

/-- The changes below the containers do not interfere. Where the whole list is
    gone through, its own changes ask for the same, and every interface but one
    that is written is last set to the same state. Otherwise the own changes end the
    loop as well and alike, and what is set before is the same. -/
def Undisturbed (env : Env) (uninit : Uninit) (w : World) (changes : List change_t) : Prop :=
  match changes.find? (fun change => !accepts env w.om change),
    (own changes).find? (fun change => !accepts env w.om change) with
  | none, _ =>
    SameRequest uninit w changes (own changes) ∧
      ∀ name, (∀ attrs, written uninit w changes = some (name, attrs) → env.write_rc w.writes ≠ .OK) →
        SameState w changes (own changes) name
  | some _, none => False
  | some refused, some other =>
    refusal refused = refusal other ∧
      ∀ name, SameState w (changes.takeWhile (accepts env w.om)) ((own changes).takeWhile (accepts env w.om)) name

variable {env : Env} {uninit : Uninit} {w : World} {changes : List change_t}

/-- The writes and removals of the code after the loop. -/
def made (l : create_locals) : List vom_call :=
  match pending l with
  | some (key, attrs) => [.write key (.interface key attrs)]
  | none => (dropped l).toList.map .remove

theorem filter_foldl_calls (start : create_locals) (changes : List change_t) :
    (changes.foldl advance start).world.calls.filter om_call = start.world.calls.filter om_call := by
  have hnone : ((changes.filterMap sets).map fun set => vom_call.set set.1 set.2).filter om_call = [] := by
    refine List.filter_eq_nil_iff.mpr fun call hmem => ?_
    obtain ⟨set, _, rfl⟩ := List.mem_map.mp hmem
    simp [om_call]
  rw [foldl_advance_calls, List.filter_append, hnone, List.append_nil]

theorem filter_commit_calls (env : Env) (l : create_locals) :
    (create_leave (create_commit env l)).world.calls.filter om_call = l.world.calls.filter om_call ++ made l := by
  have hkept : (made l).filter om_call = made l := by
    rw [made]
    split
    · rfl
    · cases dropped l <;> rfl
  rw [(create_commit_calls env l).2, List.filter_append]
  exact congrArg _ hkept

/-- The loop leaves the same to do: to write, or where there is nothing to write
    the same end and the same to remove. -/
def SameLeft (first second : create_locals) : Prop :=
  pending first = pending second ∧
    (pending first = none → unwritten first = unwritten second ∧ dropped first = dropped second)

/-- The ends and the calls of the code after the loop tell what it had to do. -/
theorem commit_alike_iff (env : Env) {first second : create_locals}
    (hwrites : first.world.writes = second.world.writes) :
    ((create_leave (create_commit env first)).outcome = (create_leave (create_commit env second)).outcome ∧
        made first = made second) ↔ SameLeft first second := by
  rw [(create_commit_calls env first).1, (create_commit_calls env second).1, made, made, hwrites, SameLeft]
  cases hfirst : pending first with
  | some written =>
    obtain ⟨key, attrs⟩ := written
    cases hsecond : pending second with
    | some other =>
      obtain ⟨key', attrs'⟩ := other
      simp only [List.cons.injEq, vom_call.write.injEq, object.interface.injEq, and_true, true_and,
        Option.some.injEq, Prod.mk.injEq, reduceCtorEq, false_implies]
      exact ⟨fun h => ⟨h.1, h.2.2⟩, fun h => ⟨h.1, h.1, h.2⟩⟩
    | none =>
      refine iff_of_false (fun h => ?_) (fun h => by cases h.1)
      cases hdropped : dropped second <;> simp [hdropped] at h
  | none =>
    cases hsecond : pending second with
    | some other =>
      refine iff_of_false (fun h => ?_) (fun h => by cases h.1)
      cases hdropped : dropped first <;> simp [hdropped] at h
    | none =>
      have hremove : (dropped first).toList.map vom_call.remove = (dropped second).toList.map .remove ↔
          dropped first = dropped second := by
        cases dropped first <;> cases dropped second <;> simp
      simp only [true_and, forall_const, hremove]
      exact Iff.rfl

theorem foldl_create {flag : Bool} (hcreate : (uninit.create || changes.any creates) = flag) :
    (changes.foldl advance (create_start uninit w)).create = flag := by
  rw [foldl_advance_create]
  exact hcreate

theorem foldl_modify (hlast : lastSet changes = none) :
    (changes.foldl advance (create_start uninit w)).modify = uninit.modify := by
  rw [foldl_advance_modify, quiet_of_lastSet hlast, Bool.or_false]
  rfl

theorem foldl_writes : (changes.foldl advance (create_start uninit w)).world.writes = w.writes := by
  rw [foldl_advance_writes]
  rfl

/-- Without anything to write the name to remove is the one discarded. -/
theorem dropped_foldl (hcreate : (uninit.create || changes.any creates) = false) (hlast : lastSet changes = none) :
    dropped (changes.foldl advance (create_start uninit w)) =
      if uninit.modify then none else discarded uninit changes := by
  have hname : (changes.foldl advance (create_start uninit w)).builder.m_name = latest named "" changes := by
    rw [builder_of_foldl (starts_create uninit w)]
  have hremove : (changes.foldl advance (create_start uninit w)).remove = (uninit.remove || changes.any removes) := by
    rw [foldl_advance_remove]
    rfl
  rw [dropped, foldl_create hcreate, foldl_modify hlast, hname, hremove, discarded]
  cases uninit.modify <;> cases (uninit.remove || changes.any removes) <;> rfl

theorem unwritten_of_create (hcreate : (uninit.create || changes.any creates) = true) :
    unwritten (changes.foldl advance (create_start uninit w)) = .ok .SR_ERR_INVAL_ARG ∧
      dropped (changes.foldl advance (create_start uninit w)) = none := by
  simp [unwritten, dropped, foldl_create hcreate]

theorem unwritten_of_not_create (hcreate : (uninit.create || changes.any creates) = false) :
    unwritten (changes.foldl advance (create_start uninit w)) ≠ .ok .SR_ERR_INVAL_ARG := by
  rw [unwritten, foldl_create hcreate]
  simp only [Bool.false_eq_true, if_false]
  split <;> simp

theorem unwritten_of_lastSet (hcreate : (uninit.create || changes.any creates) = false)
    (hlast : lastSet changes = none) :
    unwritten (changes.foldl advance (create_start uninit w)) =
      if uninit.modify then .error .null_interface else .ok .SR_ERR_OK := by
  rw [unwritten, foldl_create hcreate, foldl_modify hlast]
  rfl

section left

variable {part : List change_t}

theorem sameLeft_of_create (hcreate : (uninit.create || changes.any creates) = true)
    (hcreate_part : (uninit.create || part.any creates) = true) :
    SameLeft (changes.foldl advance (create_start uninit w)) (part.foldl advance (create_start uninit w)) ↔
      creation uninit.m_state changes = creation uninit.m_state part := by
  rw [SameLeft, pending_eq_written (starts_create uninit w), pending_eq_written (starts_create uninit w),
    written_of_create hcreate, written_of_create hcreate_part]
  refine and_iff_left_of_imp fun _ _ => ?_
  obtain ⟨hends, hdropped⟩ := unwritten_of_create (w := w) hcreate
  obtain ⟨hends_part, hdropped_part⟩ := unwritten_of_create (w := w) hcreate_part
  exact ⟨hends.trans hends_part.symm, hdropped.trans hdropped_part.symm⟩

/-- A list that creates leaves what one that does not sets last. -/
theorem sameLeft_of_create_beside (hcreate : (uninit.create || changes.any creates) = true)
    (hcreate_part : (uninit.create || part.any creates) = false) :
    SameLeft (changes.foldl advance (create_start uninit w)) (part.foldl advance (create_start uninit w)) ↔
      ∃ name state, lastSet part = some (name, state) ∧
        creation uninit.m_state changes = some (name, { w.instances name with state }) := by
  rw [SameLeft, pending_eq_written (starts_create uninit w), pending_eq_written (starts_create uninit w),
    written_of_create hcreate, written_of_not_create hcreate_part]
  constructor
  · rintro ⟨hwritten, hnothing⟩
    cases hlast : lastSet part with
    | none =>
      rw [hlast, Option.map_none] at hwritten
      have hends := (hnothing hwritten).1
      rw [(unwritten_of_create hcreate).1] at hends
      exact absurd hends.symm (unwritten_of_not_create hcreate_part)
    | some set =>
      rw [hlast, Option.map_some] at hwritten
      exact ⟨set.1, set.2, rfl, hwritten⟩
  · rintro ⟨name, state, hlast, hcreation⟩
    rw [hlast, hcreation]
    exact ⟨rfl, fun hnone => by cases hnone⟩

theorem sameLeft_of_not_create (hcreate : (uninit.create || changes.any creates) = false)
    (hcreate_part : (uninit.create || part.any creates) = false) :
    SameLeft (changes.foldl advance (create_start uninit w)) (part.foldl advance (create_start uninit w)) ↔
      lastSet changes = lastSet part ∧
        (lastSet changes = none → uninit.modify = false → discarded uninit changes = discarded uninit part) := by
  have hinjective : Function.Injective fun set : String × admin_state_t =>
      (set.1, ({ w.instances set.1 with state := set.2 } : interface_attrs)) := by
    rintro ⟨name, state⟩ ⟨other, otherState⟩ h
    simp only [Prod.mk.injEq, interface_attrs.mk.injEq] at h
    rw [h.1, h.2.2]
  rw [SameLeft, pending_eq_written (starts_create uninit w), pending_eq_written (starts_create uninit w),
    written_of_not_create hcreate, written_of_not_create hcreate_part, (Option.map_injective hinjective).eq_iff,
    Option.map_eq_none_iff]
  refine and_congr_right fun hlast => forall_congr' fun hnone => ?_
  rw [unwritten_of_lastSet hcreate hnone, unwritten_of_lastSet hcreate_part (hlast ▸ hnone),
    dropped_foldl hcreate hnone, dropped_foldl hcreate_part (hlast ▸ hnone)]
  cases uninit.modify <;> simp

/-- When two lists, of which one is a part of the other, leave the same to do
    after the loop. -/
theorem request_iff (hpart : part.any creates = true → changes.any creates = true) :
    SameLeft (changes.foldl advance (create_start uninit w)) (part.foldl advance (create_start uninit w)) ↔
      SameRequest uninit w changes part := by
  rw [SameRequest]
  cases hcreate_part : (uninit.create || part.any creates) with
  | true =>
    have hcreate : (uninit.create || changes.any creates) = true := by
      rw [Bool.or_eq_true] at hcreate_part ⊢
      exact hcreate_part.imp_right hpart
    rw [if_pos rfl]
    exact sameLeft_of_create hcreate hcreate_part
  | false =>
    have hnot : uninit.create = false := (Bool.or_eq_false_iff.mp hcreate_part).1
    rw [if_neg Bool.false_ne_true]
    cases hcreates : changes.any creates with
    | true =>
      rw [if_pos rfl]
      exact sameLeft_of_create_beside (by rw [hcreates, Bool.or_true]) hcreate_part
    | false =>
      rw [if_neg Bool.false_ne_true]
      exact sameLeft_of_not_create (by rw [hcreates, hnot, Bool.or_false]) hcreate_part

end left

/-- The state of an interface that is not written successfully is the one that
    is set last. -/
theorem commit_state (env : Env) {name : String}
    (hname : ∀ attrs, written uninit w changes = some (name, attrs) → env.write_rc w.writes ≠ .OK) :
    ((create_leave (create_commit env (changes.foldl advance (create_start uninit w)))).world.instances name).state =
      latest (setsOf name) (w.instances name).state changes := by
  have hinstance : ((changes.foldl advance (create_start uninit w)).world.instances name).state =
      latest (setsOf name) (w.instances name).state changes := by
    rw [foldl_advance_instances]
    rfl
  rw [(create_commit_world env _).2.1, pending_eq_written (starts_create uninit w), foldl_writes, ← hinstance]
  cases hwritten : written uninit w changes with
  | none => rfl
  | some written =>
    obtain ⟨key, attrs⟩ := written
    by_cases hwrite : env.write_rc w.writes = .OK
    · have hother : name ≠ key := by
        rintro rfl
        exact hname attrs hwritten hwrite
      simp only [if_pos hwrite, Function.update_of_ne hother]
    · simp only [if_neg hwrite]

theorem commit_state_written (env : Env) {name : String} {attrs : interface_attrs}
    (hwritten : written uninit w changes = some (name, attrs)) (hwrite : env.write_rc w.writes = .OK) :
    ((create_leave (create_commit env (changes.foldl advance (create_start uninit w)))).world.instances name).state =
      attrs.state := by
  rw [(create_commit_world env _).2.1, pending_eq_written (starts_create uninit w), foldl_writes, hwritten]
  simp only [if_pos hwrite, Function.update_self]

/-- When two lists that are gone through control the same. -/
theorem commit_controls_iff {part : List change_t} (hpart : part.any creates = true → changes.any creates = true) :
    Controls (create_leave (create_commit env (changes.foldl advance (create_start uninit w))))
        (create_leave (create_commit env (part.foldl advance (create_start uninit w)))) ↔
      SameRequest uninit w changes part ∧
        ∀ name, (∀ attrs, written uninit w changes = some (name, attrs) → env.write_rc w.writes ≠ .OK) →
          SameState w changes part name := by
  have hwrites : (changes.foldl advance (create_start uninit w)).world.writes =
      (part.foldl advance (create_start uninit w)).world.writes := by
    rw [foldl_advance_writes, foldl_advance_writes]
  have hcalls :
      (create_leave (create_commit env (changes.foldl advance (create_start uninit w)))).world.calls.filter om_call =
        (create_leave (create_commit env (part.foldl advance (create_start uninit w)))).world.calls.filter om_call ↔
      made (changes.foldl advance (create_start uninit w)) = made (part.foldl advance (create_start uninit w)) := by
    rw [filter_commit_calls, filter_commit_calls, filter_foldl_calls, filter_foldl_calls, List.append_cancel_left_eq]
  have hrequest := (commit_alike_iff env hwrites).trans (request_iff hpart)
  have hsame (hasked : SameRequest uninit w changes part) : written uninit w changes = written uninit w part := by
    have hpending := ((request_iff hpart).mpr hasked).1
    rw [pending_eq_written (starts_create uninit w), pending_eq_written (starts_create uninit w)] at hpending
    exact hpending
  constructor
  · intro hcontrols
    have hasked := hrequest.mp ⟨hcontrols.outcome, hcalls.mp hcontrols.calls⟩
    refine ⟨hasked, fun name hname => ?_⟩
    have hstate := hcontrols.states name
    rwa [commit_state env hname, commit_state env (by rw [← hsame hasked]; exact hname)] at hstate
  · rintro ⟨hasked, hstates⟩
    obtain ⟨houtcome, hmade⟩ := hrequest.mpr hasked
    refine ⟨houtcome, hcalls.mpr hmade, fun name => ?_⟩
    by_cases hname : ∀ attrs, written uninit w changes = some (name, attrs) → env.write_rc w.writes ≠ .OK
    · rw [commit_state env hname, commit_state env (by rw [← hsame hasked]; exact hname)]
      exact hstates name hname
    · simp only [not_forall, not_not] at hname
      obtain ⟨attrs, hwritten, hwrite⟩ := hname
      rw [commit_state_written env hwritten hwrite,
        commit_state_written env ((hsame hasked).symm.trans hwritten) hwrite]

/-- A run that is refused makes no write and no removal, and leaves the states set
    before. -/
theorem refused_controls (uninit : Uninit) {before : List change_t} (after : List change_t) {change : change_t}
    (haccepts : ∀ earlier ∈ before, accepts env w.om earlier = true) (hrefused : accepts env w.om change = false) :
    let result := create_run env (create_start uninit w) (before ++ change :: after)
    result.outcome = refusal change ∧ result.world.calls.filter om_call = w.calls.filter om_call ∧
      ∀ name, (result.world.instances name).state = latest (setsOf name) (w.instances name).state before := by
  obtain ⟨houtcome, hsame, hcalls⟩ := create_run_refused env (create_start uninit w) after haccepts hrefused
  refine ⟨houtcome, ?_, fun name => ?_⟩
  · rw [hcalls, filter_foldl_calls]
    rfl
  · rw [hsame.instances, foldl_advance_instances]
    rfl

/-- A refused run and one that is gone through differ. -/
theorem refused_not_controls {before after part : List change_t} {change : change_t}
    (haccepts : ∀ earlier ∈ before, accepts env w.om earlier = true) (hrefused : accepts env w.om change = false) :
    ¬ Controls (create_run env (create_start uninit w) (before ++ change :: after))
      (create_leave (create_commit env (part.foldl advance (create_start uninit w)))) := by
  rintro ⟨houtcome, hcalls, _⟩
  obtain ⟨hends, hnone, _⟩ := refused_controls uninit after haccepts hrefused
  rw [hnone, filter_commit_calls, filter_foldl_calls, create_start, List.self_eq_append_right] at hcalls
  have hpending : pending (part.foldl advance (create_start uninit w)) = none := by
    rw [made] at hcalls
    split at hcalls
    · cases hcalls
    · assumption
  rw [hends, (create_commit_calls env _).1, hpending] at houtcome
  dsimp only at houtcome
  split at houtcome
  · exact refusal_ne_invalid hrefused houtcome
  · split at houtcome
    · exact refusal_ne_null hrefused houtcome
    · exact refusal_ne_ok hrefused houtcome

theorem create_run_own_iff : Controls (create_run env (create_start uninit w) changes)
    (create_run env (create_start uninit w) (own changes)) ↔ Undisturbed env uninit w changes := by
  have hpart : (own changes).any creates = true → changes.any creates = true := by
    rw [List.any_eq_true, List.any_eq_true]
    rintro ⟨change, hmem, hcreates⟩
    exact ⟨change, (List.mem_filter.mp hmem).1, hcreates⟩
  rw [Undisturbed]
  rcases accepted_or_split (accepts env w.om) changes with
    haccepts | ⟨before, change, after, hsplit, haccepts, hrefused⟩
  · have haccepts_own : ∀ change ∈ own changes, accepts env w.om change = true :=
      fun change hmem => haccepts change (List.mem_filter.mp hmem).1
    rw [create_run_accepted env (create_start uninit w) haccepts,
      create_run_accepted env (create_start uninit w) haccepts_own, find_rejected_none haccepts]
    exact commit_controls_iff hpart
  · rcases accepted_or_split (accepts env w.om) (own changes) with
      haccepts_own | ⟨before_own, change_own, after_own, hsplit_own, haccepts_own, hrefused_own⟩
    · rw [create_run_accepted env (create_start uninit w) haccepts_own, find_rejected_none haccepts_own, hsplit,
        (find_rejected_split haccepts hrefused after).1]
      exact iff_of_false (refused_not_controls haccepts hrefused) id
    · obtain ⟨hfind, htaken⟩ := find_rejected_split haccepts hrefused after
      obtain ⟨hfind_own, htaken_own⟩ := find_rejected_split haccepts_own hrefused_own after_own
      rw [hsplit_own, hsplit, hfind, hfind_own, htaken, htaken_own]
      obtain ⟨houtcome, hcalls, hstates⟩ := refused_controls uninit after haccepts hrefused
      obtain ⟨houtcome_own, hcalls_own, hstates_own⟩ :=
        refused_controls uninit after_own haccepts_own hrefused_own
      constructor
      · rintro ⟨hends, _, hsame⟩
        refine ⟨houtcome.symm.trans (hends.trans houtcome_own), fun name => ?_⟩
        exact (hstates name).symm.trans ((hsame name).trans (hstates_own name))
      · rintro ⟨hends, hsame⟩
        refine ⟨houtcome.trans (hends.trans houtcome_own.symm), hcalls.trans hcalls_own.symm, fun name => ?_⟩
        exact (hstates name).trans ((hsame name).trans (hstates_own name).symm)

/-- A change that no branch of the callback reads. -/
structure Inert (env : Env) (om : Om) (change : change_t) : Prop where
  accepts : accepts env om change = true
  named : named change = none
  typed : typed change = none
  enabled : enabled change = none
  sets : sets change = none

section inert

variable (hinert : ∀ change ∈ changes, ip_level change = true → Inert env w.om change)

include hinert

/-- What inert changes do not assign is assigned by the own changes. -/
theorem latest_own {β : Type} {assigns : change_t → Option β}
    (hnone : ∀ change, Inert env w.om change → assigns change = none) (before : β) :
    latest assigns before (own changes) = latest assigns before changes := by
  refine latest_filter (fun change hmem hdropped => hnone change (hinert change hmem ?_)) before
  simpa using hdropped

theorem any_own {flag : change_t → Bool} (hfalse : ∀ change, Inert env w.om change → flag change = false) :
    (own changes).any flag = changes.any flag := by
  refine Bool.eq_iff_iff.mpr ?_
  rw [List.any_eq_true, List.any_eq_true]
  constructor
  · rintro ⟨change, hmem, hflag⟩
    exact ⟨change, (List.mem_filter.mp hmem).1, hflag⟩
  · rintro ⟨change, hmem, hflag⟩
    refine ⟨change, List.mem_filter.mpr ⟨hmem, ?_⟩, hflag⟩
    by_contra hlevel
    rw [hfalse change (hinert change hmem (by simpa using hlevel))] at hflag
    cases hflag

theorem sameState_own (name : String) : SameState w changes (own changes) name := by
  refine (latest_own hinert (fun change h => ?_) _).symm
  rw [setsOf, h.sets]

theorem sameRequest_own (uninit : Uninit) : SameRequest uninit w changes (own changes) := by
  have hcreates : (own changes).any creates = changes.any creates := by
    refine any_own hinert fun change h => ?_
    have hnamed := h.named
    cases change with
    | created new_val => simpa [named, creates] using hnamed
    | _ => rfl
  have hremoves : (own changes).any removes = changes.any removes := by
    refine any_own hinert fun change h => ?_
    have hnamed := h.named
    cases change with
    | deleted old_val => simpa [named, removes] using hnamed
    | _ => rfl
  have hcreation : creation uninit.m_state changes = creation uninit.m_state (own changes) := by
    rw [creation, creation, latest_own hinert (fun _ h => h.named), latest_own hinert (fun _ h => h.typed),
      latest_own hinert (fun _ h => h.enabled)]
  have hlast : lastSet changes = lastSet (own changes) := by
    refine (latest_own hinert (fun change h => ?_) _).symm
    rw [h.sets, Option.map_none]
  have hdiscarded : discarded uninit changes = discarded uninit (own changes) := by
    rw [discarded, discarded, hremoves, latest_own hinert fun _ h => h.named]
  rw [SameRequest, hcreates]
  cases hflag : changes.any creates with
  | true =>
    rw [Bool.or_true, if_pos rfl]
    exact hcreation
  | false =>
    cases hcreate : uninit.create with
    | true =>
      rw [Bool.true_or, if_pos rfl]
      exact hcreation
    | false =>
      rw [Bool.or_false, if_neg Bool.false_ne_true, if_neg Bool.false_ne_true]
      exact ⟨hlast, fun _ _ => hdiscarded⟩

end inert

/-- Changes below the containers that name no leaf of the interface do not
    interfere. -/
theorem create_cb_own_of_inert (hinert : ∀ change ∈ changes, ip_level change = true → Inert env w.om change) :
    Controls (ietf_interface_create_cb env uninit (verify changes) w)
      (ietf_interface_create_cb env uninit (verify (own changes)) w) := by
  rw [create_cb_verify, create_cb_verify, create_run_own_iff, Undisturbed]
  rcases accepted_or_split (accepts env w.om) changes with haccepts | ⟨before, change, after, rfl, haccepts, hrefused⟩
  · rw [find_rejected_none haccepts]
    exact ⟨sameRequest_own hinert uninit, fun name _ => sameState_own hinert name⟩
  · have hown : ip_level change = false := by
      by_contra hlevel
      rw [(hinert change (by simp) (by simpa using hlevel)).accepts] at hrefused
      cases hrefused
    have hsplit : own (before ++ change :: after) = own before ++ change :: own after := by
      rw [own, List.filter_append, List.filter_cons_of_pos (by simp [hown])]
      rfl
    have haccepts_own : ∀ earlier ∈ own before, accepts env w.om earlier = true :=
      fun earlier hmem => haccepts earlier (List.mem_filter.mp hmem).1
    obtain ⟨hfind, htaken⟩ := find_rejected_split haccepts hrefused after
    obtain ⟨hfind_own, htaken_own⟩ := find_rejected_split haccepts_own hrefused (own after)
    rw [hsplit, hfind, hfind_own, htaken, htaken_own]
    refine ⟨rfl, sameState_own fun earlier hmem => hinert earlier (List.mem_append_left _ hmem)⟩

/-- The changes below the containers play no part exactly when they do not
    interfere. -/
theorem create_cb_own_iff (env : Env) (uninit : Uninit) (w : World) (changes : List change_t) :
    Controls (ietf_interface_create_cb env uninit (verify changes) w)
        (ietf_interface_create_cb env uninit (verify (own changes)) w) ↔ Undisturbed env uninit w changes := by
  rw [create_cb_verify, create_cb_verify]
  exact create_run_own_iff

/-- The `enabled` leaf of an interface's IPv4 configuration. -/
def ipv4_enabled_leaf (name : String) (enabled : Bool) : sr_val_t :=
  { xpath := interface_node name ++ [{ name := "ipv4" }, { name := "enabled" }], data := { bool_val := enabled } }

/-- Switching IPv4 off on an interface that is up takes the interface down. -/
theorem ipv4_disabled_takes_interface_down :
    let w : World := { World.empty with
      om := {("host-vpp1", .interface "host-vpp1" (ethernet true))}, instances := fun _ => ethernet true }
    ¬ Controls
      (ietf_interface_create_cb counting cleared
        (verify [.modified (ipv4_enabled_leaf "host-vpp1" true) (ipv4_enabled_leaf "host-vpp1" false)]) w)
      (ietf_interface_create_cb counting cleared
        (verify (own [.modified (ipv4_enabled_leaf "host-vpp1" true) (ipv4_enabled_leaf "host-vpp1" false)])) w) := by
  intro w hcontrols
  exact absurd (hcontrols.states "host-vpp1") (by decide)

end sweetcomb.ietf_interface
