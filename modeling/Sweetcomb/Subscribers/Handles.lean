import Sweetcomb.Handles
import Sweetcomb.Ietf.Interface.Determined
import Sweetcomb.Ietf.Interface.Entry
import Sweetcomb.Refcount
import Sweetcomb.Subscribers

open loop sweetcomb.ietf_interface sweetcomb.openconfig_interfaces

namespace sweetcomb

section interfaces

variable {env : Env} {uninit : Uninit} {w : World} {l start : create_locals} {changes : List change_t}
  {change : change_t}

theorem setWorld_frees (w : World) (change : change_t) : (setWorld w change).frees = w.frees := by
  unfold setWorld
  split <;> rfl

theorem setWorld_received (w : World) (change : change_t) : (setWorld w change).received = w.received := by
  unfold setWorld
  split <;> rfl

/-- An accepted round releases what it receives. -/
theorem advance_settles (h : Settles w l.world []) (change : change_t) : Settles w (advance l change).world [] := by
  refine h.exchange change.old_val change.new_val ?_ ?_ (List.Perm.of_eq (List.append_nil _).symm)
  · simp [advance, setWorld_received, -change_t.old_val, -change_t.new_val, Nat.add_assoc]
  · simp [advance, setWorld_frees, -change_t.old_val, -change_t.new_val]

theorem foldl_advance_settles (h : Settles w l.world []) (changes : List change_t) :
    Settles w (changes.foldl advance l).world [] := by
  induction changes generalizing l with
  | nil => exact h
  | cons change changes ih => exact ih (advance_settles h change)

@[simp] theorem foldl_advance_iter (l : create_locals) (changes : List change_t) :
    (changes.foldl advance l).iter = l.iter := by
  induction changes generalizing l with
  | nil => rfl
  | cons change changes ih => exact ih (advance l change)

/-- The last values that were received stay in the variables. -/
theorem foldl_advance_last (h : Settles w start.world []) (hsome : changes ≠ []) :
    ∃ addr, w.received ≤ addr ∧ addr < (changes.foldl advance start).world.received ∧
      .val addr ∈
        free_vals (changes.foldl advance start).old_val ++ free_vals (changes.foldl advance start).new_val := by
  obtain ⟨before, last, rfl⟩ := changes.eq_nil_or_concat'.resolve_left hsome
  rw [List.foldl_append, List.foldl_cons, List.foldl_nil]
  have hle := (foldl_advance_settles h before).le
  refine ⟨(before.foldl advance start).world.received, hle, ?_, ?_⟩
  · have hreceived : (advance (before.foldl advance start) last).world.received =
        (before.foldl advance start).world.received + (last.old_val.toList.length + last.new_val.toList.length) := by
      simp [advance, setWorld_received, -change_t.old_val, -change_t.new_val, Nat.add_assoc]
    rw [hreceived]
    cases last <;> simp
  · cases last with
    | moved old_val new_val => cases old_val <;> simp [advance, free_vals]
    | _ => simp [advance, free_vals]

/-- A round that is refused releases what it received, with the iterator, unless
    it faults. -/
theorem create_round_refused_settles (h : Settles w l.world []) (hrefused : accepts env l.world.om change = false) :
    ∃ exit, create_round env l change = .error exit ∧
      if (refusal change).isOk then Settles w (create_leave (.error exit)).world [.change_iter l.iter]
      else (create_leave (.error exit)).world.frees = l.world.frees := by
  rcases create_round_exit env l hrefused with ⟨intf, rc, hround, hends⟩ | ⟨fault, hround, hends⟩
  · refine ⟨_, hround, ?_⟩
    simp only [hends, Except.isOk, Except.toBool, if_true]
    refine h.exchange change.old_val change.new_val ?_ ?_ (List.Perm.refl _)
    · simp [create_leave, create_locals.receive, -change_t.old_val, -change_t.new_val, Nat.add_assoc]
    · simp [create_leave, create_locals.receive, -change_t.old_val, -change_t.new_val]
  · refine ⟨_, hround, ?_⟩
    simp [hends, Except.isOk, Except.toBool, create_leave, create_locals.receive]

/-- What the code after the loop releases. Where it fails after the loop, the last
    values are released once more. -/
theorem create_commit_frees (env : Env) (l : create_locals) :
    let result := create_leave (create_commit env l)
    result.world.received = l.world.received ∧ result.world.frees = l.world.frees ++
      match result.outcome with
      | .ok rc =>
        (if rc = .SR_ERR_OK then [] else free_vals l.old_val ++ free_vals l.new_val) ++ [.change_iter l.iter]
      | .error _ => [] := by
  cases hpending : pending l with
  | some written =>
    obtain ⟨key, attrs⟩ := written
    obtain ⟨intf, hcommit⟩ := create_commit_of_pending env hpending
    by_cases hwrite : env.write_rc l.world.writes = .OK <;> simp [hcommit, hwrite, create_leave]
  | none =>
    cases hcreate : l.create with
    | true =>
      have hbuild : l.builder.build = none := by simpa [pending, hcreate] using hpending
      simp [create_commit, hcreate, hbuild, create_leave]
    | false =>
      cases hmodify : l.modify with
      | true =>
        have hintf : l.intf = none := by simpa [pending, hcreate, hmodify] using hpending
        simp [create_commit, hcreate, hmodify, hintf, create_leave]
      | false => cases hremove : l.remove <;> simp [create_commit, hcreate, hmodify, hremove, create_leave]

/-- What follows the loop succeeds: what is to be written is written, or there
    is nothing to write and no flag that asks for it. -/
def Completes (env : Env) (uninit : Uninit) (w : World) (changes : List change_t) : Prop :=
  match written uninit w changes with
  | some _ => env.write_rc w.writes = .OK
  | none => (uninit.create || changes.any creates) = false ∧ uninit.modify = false

theorem written_nil : written uninit w [] = none := by
  cases hcreate : (uninit.create || ([] : List change_t).any creates) with
  | true =>
    rw [written_of_create hcreate]
    exact build_eq_none.mpr (.inl rfl)
  | false =>
    rw [written_of_not_create hcreate]
    rfl

theorem create_commit_disposes (hsettles : Settles w start.world []) (hiter : start.iter = .obtained)
    (hold : start.old_val = none) (hnew : start.new_val = none) :
    Disposes w (create_leave (create_commit env (changes.foldl advance start))) := by
  have hloop := foldl_advance_settles hsettles changes
  obtain ⟨hreceived, hfrees⟩ := create_commit_frees env (changes.foldl advance start)
  rw [foldl_advance_iter, hiter] at hfrees
  cases houtcome : (create_leave (create_commit env (changes.foldl advance start))).outcome with
  | error fault =>
    simp only [houtcome, List.append_nil] at hfrees
    exact .kept (by rw [houtcome]; rfl) hloop hfrees
  | ok rc =>
    have hreturns : (create_leave (create_commit env (changes.foldl advance start))).outcome.isOk = true := by
      rw [houtcome]
      rfl
    simp only [houtcome] at hfrees
    by_cases hrc : rc = .SR_ERR_OK
    · rw [if_pos hrc, List.nil_append] at hfrees
      exact .once hreturns (hloop.free hreceived hfrees)
    · rw [if_neg hrc] at hfrees
      by_cases hnone : changes = []
      · subst hnone
        rw [List.foldl_nil, hold, hnew] at hfrees
        exact .once hreturns (hloop.free hreceived hfrees)
      · obtain ⟨addr, hlow, hhigh, hmem⟩ := foldl_advance_last hsettles hnone
        exact .again ⟨_, hloop.free hreceived hfrees,
          .inr ⟨addr, hlow, by rw [hreceived]; exact hhigh, List.mem_append_left _ hmem⟩⟩

/-- A failure after the loop releases the last values a second time. -/
theorem create_commit_released (hsettles : Settles w start.world []) (hiter : start.iter = .obtained)
    (hold : start.old_val = none) (hnew : start.new_val = none) :
    Released .SR_ERR_OK w (create_leave (create_commit env (changes.foldl advance start))) ↔
      ∃ rc, (create_leave (create_commit env (changes.foldl advance start))).outcome = .ok rc ∧
        (rc = .SR_ERR_OK ∨ changes = []) := by
  have hloop := foldl_advance_settles hsettles changes
  obtain ⟨hreceived, hfrees⟩ := create_commit_frees env (changes.foldl advance start)
  rw [foldl_advance_iter, hiter] at hfrees
  cases houtcome : (create_leave (create_commit env (changes.foldl advance start))).outcome with
  | error fault =>
    simp only [houtcome, List.append_nil] at hfrees
    exact iff_of_false (not_released hloop hfrees) (by simp)
  | ok rc =>
    simp only [houtcome] at hfrees
    simp only [Except.ok.injEq, exists_eq_left']
    by_cases hrc : rc = .SR_ERR_OK
    · rw [if_pos hrc, List.nil_append] at hfrees
      exact iff_of_true (released_of_settles (hloop.free hreceived hfrees)) (.inl hrc)
    · rw [if_neg hrc] at hfrees
      by_cases hnone : changes = []
      · subst hnone
        rw [List.foldl_nil, hold, hnew] at hfrees
        exact iff_of_true (released_of_settles (hloop.free hreceived hfrees)) (.inr rfl)
      · refine iff_of_false (fun hreleased => ?_) (by simp [hrc, hnone])
        obtain ⟨addr, hlow, hhigh, hmem⟩ := foldl_advance_last hsettles hnone
        have hunreleased := ((hloop.free hreceived hfrees).released_iff.mp hreleased).2 addr hlow
          (by rw [hreceived]; exact hhigh)
        exact List.count_eq_zero.mp hunreleased (List.mem_append_left _ hmem)

/-- Each handle is released once exactly when what follows the loop succeeds, or
    fails without a value to release again. -/
theorem create_commit_released_iff (hstart : Starts uninit w start) (hiter : start.iter = .obtained)
    (hold : start.old_val = none) (hnew : start.new_val = none) :
    Released .SR_ERR_OK w (create_leave (create_commit env (changes.foldl advance start))) ↔
      Completes env uninit w changes ∨ changes = [] ∧ uninit.create = true := by
  have hsettles : Settles w start.world [] := by
    rw [hstart.world]
    exact .refl w
  have hcreate : (changes.foldl advance start).create = (uninit.create || changes.any creates) := by
    rw [foldl_advance_create, hstart.create]
  rw [create_commit_released hsettles hiter hold hnew, (create_commit_calls env (changes.foldl advance start)).1,
    pending_eq_written hstart, foldl_advance_writes, hstart.world, hcreate, Completes]
  cases hwritten : written uninit w changes with
  | some set =>
    have hsome : changes ≠ [] := by
      rintro rfl
      rw [written_nil] at hwritten
      cases hwritten
    by_cases hwrite : env.write_rc w.writes = .OK <;> simp [hwrite, hsome]
  | none =>
    cases hflag : (uninit.create || changes.any creates) with
    | true =>
      have hempty : changes = [] → uninit.create = true := by
        rintro rfl
        simpa using hflag
      simpa using hempty
    | false =>
      have hlast : lastSet changes = none := by
        rw [written_of_not_create hflag, Option.map_eq_none_iff] at hwritten
        exact hwritten
      have hmodify : (changes.foldl advance start).modify = uninit.modify := by
        rw [foldl_advance_modify, quiet_of_lastSet hlast, Bool.or_false, hstart.modify]
      have hnot : uninit.create = false := (Bool.or_eq_false_iff.mp hflag).1
      rw [hmodify]
      cases uninit.modify <;> simp [hnot]

theorem create_run_released_iff : Released .SR_ERR_OK w (create_run env (create_start uninit w) changes) ↔
    match changes.find? fun change => !accepts env w.om change with
    | some refused => (refusal refused).isOk = true
    | none => Completes env uninit w changes ∨ changes = [] ∧ uninit.create = true := by
  rcases accepted_or_split (accepts env w.om) changes with haccepts | ⟨before, change, after, rfl, haccepts, hrefused⟩
  · rw [create_run_accepted env (create_start uninit w) haccepts, find_rejected_none haccepts]
    exact create_commit_released_iff (starts_create uninit w) rfl rfl rfl
  · have hloop := foldl_advance_settles (l := create_start uninit w) (Settles.refl w) before
    obtain ⟨exit, hround, hfrees⟩ := create_round_refused_settles hloop
      (by rw [foldl_advance_om]; exact hrefused)
    have hrun := (create_accepting env w.om).foldlM_eq_error (create_start uninit w) rfl haccepts hround after
    simp only [(find_rejected_split haccepts hrefused after).1, create_run, hrun, error_bind]
    cases hreturned : (refusal change).isOk with
    | true =>
      rw [hreturned, if_pos rfl, foldl_advance_iter] at hfrees
      exact iff_of_true (released_of_settles hfrees) rfl
    | false =>
      rw [hreturned, if_neg Bool.false_ne_true] at hfrees
      exact iff_of_false (not_released hloop hfrees) Bool.false_ne_true

/-- A loop that is left gives back what it has received, or faults. -/
theorem create_round_refused_disposes (hloop : Settles w l.world []) (hiter : l.iter = .obtained)
    (hrefused : accepts env l.world.om change = false) :
    ∃ exit, create_round env l change = .error exit ∧ Disposes w (create_leave (.error exit)) ∧
      (create_leave (.error exit)).survives w = (refusal change).isOk := by
  obtain ⟨exit, hround, hfrees⟩ := create_round_refused_settles hloop hrefused
  refine ⟨exit, hround, ?_⟩
  rcases create_round_exit env l hrefused with ⟨intf, rc, hexit, hends⟩ | ⟨fault, hexit, hends⟩
  · obtain rfl := Except.error.inj (hround.symm.trans hexit)
    simp only [hends, Except.isOk, Except.toBool, if_true, hiter] at hfrees ⊢
    exact ⟨.once rfl hfrees, survives_of_settles rfl hfrees⟩
  · obtain rfl := Except.error.inj (hround.symm.trans hexit)
    simp only [hends, Except.isOk, Except.toBool, Bool.false_eq_true, if_false] at hfrees ⊢
    exact ⟨.kept rfl hloop hfrees, survives_of_kept hloop hfrees⟩

theorem create_run_disposes (env : Env) (uninit : Uninit) (w : World) (changes : List change_t) :
    Disposes w (create_run env (create_start uninit w) changes) := by
  rcases accepted_or_split (accepts env w.om) changes with haccepts | ⟨before, change, after, rfl, haccepts, hrefused⟩
  · rw [create_run_accepted env (create_start uninit w) haccepts]
    exact create_commit_disposes (.refl w) rfl rfl rfl
  · have hloop := foldl_advance_settles (l := create_start uninit w) (Settles.refl w) before
    obtain ⟨exit, hround, hdisposes, _⟩ := create_round_refused_disposes hloop (foldl_advance_iter _ before)
      (by rw [foldl_advance_om]; exact hrefused)
    have hrun := (create_accepting env w.om).foldlM_eq_error (create_start uninit w) rfl haccepts hround after
    simp only [create_run, hrun, error_bind]
    exact hdisposes

/-- A change with a key is refused with a code. -/
theorem refusal_isOk_of_common (hcommon : common change = true) : (refusal change).isOk = true := by
  cases change with
  | modified old_val new_val =>
    cases hkey : sr_xpath_key_value new_val.xpath "interface" "name" with
    | none => simp [common, keyOf, hkey] at hcommon
    | some key => simp [refusal, hkey, Except.isOk, Except.toBool]
  | _ => rfl

theorem config_run_released_iff : Released .SR_ERR_OK w (config_run env (config_start uninit w) changes) ↔
    match changes.find? fun change => !shared env w.om change with
    | some left => common left = true
    | none => Completes env uninit w changes ∨ changes = [] ∧ uninit.create = true := by
  rcases accepted_or_split (shared env w.om) changes with hshared | ⟨before, change, after, rfl, hshared, hnot⟩
  · rw [config_run_shared env (config_start uninit w) hshared, find_rejected_none hshared]
    exact create_commit_released_iff (starts_config uninit w) rfl rfl rfl
  · have hloop := foldl_advance_settles (l := config_start uninit w) (Settles.refl w) before
    simp only [(find_rejected_split hshared hnot after).1]
    by_cases hcommon : common change = true
    · have hrefused : accepts env w.om change = false := by simpa [shared, hcommon] using hnot
      obtain ⟨exit, hround, hfrees⟩ := create_round_refused_settles hloop
        (by rw [foldl_advance_om]; exact hrefused)
      rw [← config_round_common env _ hcommon] at hround
      rw [config_run_exit env (config_start uninit w) after hshared hround, config_leave_eq]
      rw [refusal_isOk_of_common hcommon, if_pos rfl, foldl_advance_iter] at hfrees
      exact iff_of_true (released_of_settles hfrees) hcommon
    · obtain ⟨exit, received, hround, _, hworld⟩ :=
        config_round_uncommon env (before.foldl advance (config_start uninit w)) hcommon
      rw [config_run_exit env (config_start uninit w) after hshared hround]
      exact iff_of_false (not_released hloop (by rw [hworld])) hcommon

/-- An empty key makes the OpenConfig callback return at once, without releasing
    anything. -/
theorem config_run_survives_iff (env : Env) (uninit : Uninit) (w : World) (changes : List change_t) :
    (config_run env (config_start uninit w) changes).survives w = true ↔
      match changes.find? fun change => !shared env w.om change with
      | some left => (config_refusal left).isOk = true
      | none => Completes env uninit w changes ∨ changes = [] ∧ uninit.create = true := by
  have hstart : Settles w (config_start uninit w).world [] := .refl w
  rcases accepted_or_split (shared env w.om) changes with hshared | ⟨before, change, after, rfl, hshared, hnot⟩
  · rw [config_run_shared env (config_start uninit w) hshared, find_rejected_none hshared,
      (create_commit_disposes hstart rfl rfl rfl).survives_iff_released]
    exact create_commit_released_iff (starts_config uninit w) rfl rfl rfl
  · have hloop := foldl_advance_settles (l := config_start uninit w) (Settles.refl w) before
    simp only [(find_rejected_split hshared hnot after).1]
    by_cases hcommon : common change = true
    · have hrefused : accepts env w.om change = false := by simpa [shared, hcommon] using hnot
      obtain ⟨exit, hround, _, hsurvives⟩ := create_round_refused_disposes hloop (foldl_advance_iter _ before)
        (by rw [foldl_advance_om]; exact hrefused)
      rw [← config_round_common env _ hcommon] at hround
      rw [config_run_exit env (config_start uninit w) after hshared hround, config_leave_eq, hsurvives,
        config_refusal_of_common hcommon]
    · obtain ⟨exit, received, hround, hends, hworld⟩ :=
        config_round_uncommon env (before.foldl advance (config_start uninit w)) hcommon
      rw [config_run_exit env (config_start uninit w) after hshared hround, survives_of_kept hloop (by rw [hworld]),
        hends]

end interfaces

section mappings

open ietf_nat

variable {env : Env} {uninit : Uninit} {w : World} {l : nat_locals} {changes : List change_t} {change : change_t}

theorem nat_advance_settles (text : AddressText) (h : Settles w l.world []) (change : change_t) :
    Settles w (ietf_nat.advance text l change).world [] := by
  refine h.exchange change.old_val change.new_val ?_ ?_
    (List.perm_append_comm.trans (List.Perm.of_eq (List.append_nil _).symm))
  · simp [ietf_nat.advance, -change_t.old_val, -change_t.new_val, Nat.add_assoc]
  · simp [ietf_nat.advance, -change_t.old_val, -change_t.new_val]

theorem nat_foldl_settles (text : AddressText) (h : Settles w l.world []) (changes : List change_t) :
    Settles w (changes.foldl (ietf_nat.advance text) l).world [] := by
  induction changes generalizing l with
  | nil => exact h
  | cons change changes ih => exact ih (nat_advance_settles text h change)

theorem nat_foldl_iter (text : AddressText) (l : nat_locals) (changes : List change_t) :
    (changes.foldl (ietf_nat.advance text) l).it = l.it := by
  induction changes generalizing l with
  | nil => rfl
  | cons change changes ih => exact ih (ietf_nat.advance text l change)

theorem nat_round_refused_settles (h : Settles w l.world []) (hrefused : ietf_nat.accepts env.text change = false) :
    ∃ exit, nat_round env l change = .error exit ∧
      if (ietf_nat.refusal change).isOk then Settles w (nat_leave (.error exit)).world [.change_iter l.it]
      else (nat_leave (.error exit)).world.frees = l.world.frees := by
  rcases nat_round_exit env l hrefused with ⟨rc, hround, hends⟩ | ⟨fault, hround, hends⟩
  · refine ⟨_, hround, ?_⟩
    simp only [hends, Except.isOk, Except.toBool, if_true]
    refine h.exchange change.old_val change.new_val ?_ ?_ (List.Perm.refl _)
    · simp [nat_leave, nat_locals.receive, -change_t.old_val, -change_t.new_val, Nat.add_assoc]
    · simp [nat_leave, nat_locals.receive, -change_t.old_val, -change_t.new_val]
  · refine ⟨_, hround, ?_⟩
    simp [hends, Except.isOk, Except.toBool, nat_leave, nat_locals.receive]

/-- The iterator is released before the mapping is built, and once more where
    that or its write fails. -/
theorem nat_commit_frees (env : Env) (l : nat_locals) :
    let result := nat_leave (nat_commit env l)
    result.world.received = l.world.received ∧ result.world.frees = l.world.frees ++
      if result.outcome = .ok .SR_ERR_OK then [.change_iter l.it]
      else .change_iter l.it :: (free_vals l.ol ++ free_vals l.ne ++ [.change_iter l.it]) := by
  cases hcreate : l.create with
  | true =>
    cases hmapping : l.builder.mapping with
    | none => simp [nat_commit, hcreate, build_of_no_mapping hmapping, nat_leave]
    | some pair =>
      by_cases hwrite : env.write_rc l.world.writes = .OK <;>
        simp [nat_commit, hcreate, build_of_mapping hmapping, nat_leave, hwrite]
  | false => cases hremove : l.remove <;> simp [nat_commit, hcreate, hremove, nat_leave]

theorem nat_commit_released (hsettles : Settles w l.world []) (hiter : l.it = .obtained) :
    Released .SR_ERR_OK w (nat_leave (nat_commit env l)) ↔
      (nat_leave (nat_commit env l)).outcome = .ok .SR_ERR_OK := by
  obtain ⟨hreceived, hfrees⟩ := nat_commit_frees env l
  rw [hiter] at hfrees
  by_cases hok : (nat_leave (nat_commit env l)).outcome = .ok .SR_ERR_OK
  · rw [if_pos hok] at hfrees
    exact iff_of_true (released_of_settles (hsettles.free hreceived hfrees)) hok
  · rw [if_neg hok] at hfrees
    refine iff_of_false (fun hreleased => ?_) hok
    have hone := ((hsettles.free hreceived hfrees).released_iff.mp hreleased).1
    rw [List.count_cons_self, List.count_append, List.count_singleton_self] at hone
    omega

theorem nat_commit_disposes (hsettles : Settles w l.world []) (hiter : l.it = .obtained) :
    Disposes w (nat_leave (nat_commit env l)) := by
  obtain ⟨hreceived, hfrees⟩ := nat_commit_frees env l
  rw [hiter] at hfrees
  by_cases hok : (nat_leave (nat_commit env l)).outcome = .ok .SR_ERR_OK
  · rw [if_pos hok] at hfrees
    exact .once (by rw [hok]; rfl) (hsettles.free hreceived hfrees)
  · rw [if_neg hok] at hfrees
    refine .again ⟨_, hsettles.free hreceived hfrees, .inl ?_⟩
    rw [List.count_cons_self, List.count_append, List.count_singleton_self]
    omega

theorem nat_cb_disposes (env : Env) (uninit : Uninit) (w : World) (changes : List change_t) :
    Disposes w (nat_mapping_table_config_cb env uninit (verify changes) w) := by
  have hstart : Settles w (loop_start uninit w).world [] := .refl w
  rcases accepted_or_split (ietf_nat.accepts env.text) changes with
    haccepts | ⟨before, change, after, rfl, haccepts, hrefused⟩
  · rw [nat_cb_accepted haccepts]
    exact nat_commit_disposes (nat_foldl_settles env.text hstart changes) (nat_foldl_iter env.text _ changes)
  · have hloop := nat_foldl_settles env.text hstart before
    obtain ⟨exit, hround, hfrees⟩ := nat_round_refused_settles hloop hrefused
    have hrun := (nat_accepting env).foldlM_eq_error (loop_start uninit w) trivial haccepts hround after
    simp only [loop_start] at hrun
    simp only [nat_mapping_table_config_cb, hrun, ne_eq, not_true_eq_false, if_false, error_bind]
    rcases nat_round_exit env (before.foldl (ietf_nat.advance env.text) (loop_start uninit w)) hrefused with
      ⟨rc, hexit, hends⟩ | ⟨fault, hexit, hends⟩
    · obtain rfl := Except.error.inj (hround.symm.trans hexit)
      simp only [hends, Except.isOk, Except.toBool, if_true, nat_foldl_iter] at hfrees
      exact .once rfl hfrees
    · obtain rfl := Except.error.inj (hround.symm.trans hexit)
      simp only [hends, Except.isOk, Except.toBool, Bool.false_eq_true, if_false] at hfrees
      exact .kept rfl hloop hfrees

theorem nat_cb_released_iff : Released .SR_ERR_OK w (nat_mapping_table_config_cb env uninit (verify changes) w) ↔
    match changes.find? fun change => !ietf_nat.accepts env.text change with
    | some refused => (ietf_nat.refusal refused).isOk = true
    | none => (uninit.create || changes.any ietf_nat.creates) = true →
        lastMapping env.text uninit changes ≠ none ∧ env.write_rc w.writes = .OK := by
  have hstart : Settles w (loop_start uninit w).world [] := .refl w
  rcases accepted_or_split (ietf_nat.accepts env.text) changes with
    haccepts | ⟨before, change, after, rfl, haccepts, hrefused⟩
  · have hloop := nat_foldl_settles env.text hstart changes
    have hiter : (ended env uninit w changes).it = .obtained := nat_foldl_iter env.text (loop_start uninit w) changes
    have hwrites : (ended env uninit w changes).world.writes = w.writes :=
      foldl_advance_writes env.text (loop_start uninit w) changes
    rw [← ended] at hloop
    rw [nat_cb_accepted haccepts, ← ended, find_rejected_none haccepts, nat_commit_released hloop hiter,
      (nat_commit_calls env (ended env uninit w changes)).1, ended_create, ended_mapping, hwrites]
    cases uninit.create || changes.any ietf_nat.creates with
    | false => simp
    | true =>
      cases lastMapping env.text uninit changes <;> simp
  · have hloop := nat_foldl_settles env.text hstart before
    obtain ⟨exit, hround, hfrees⟩ := nat_round_refused_settles hloop hrefused
    have hrun := (nat_accepting env).foldlM_eq_error (loop_start uninit w) trivial haccepts hround after
    simp only [loop_start] at hrun
    simp only [(find_rejected_split haccepts hrefused after).1, nat_mapping_table_config_cb, hrun, ne_eq,
      not_true_eq_false, if_false, error_bind]
    rw [nat_foldl_iter] at hfrees
    cases hreturned : (ietf_nat.refusal change).isOk with
    | true =>
      rw [hreturned, if_pos rfl] at hfrees
      exact iff_of_true (released_of_settles hfrees) rfl
    | false =>
      rw [hreturned, if_neg Bool.false_ne_true] at hfrees
      exact iff_of_false (not_released hloop hfrees) Bool.false_ne_true

end mappings

section addresses

variable {env : Env} {w : World} {l : address_locals} {changes : List change_t} {change : change_t}

/-- What `ipv46_config_add_remove` and the two places that call it leave alone. -/
theorem config_frees (if_name addr : String) (pfx_len : UInt8) (add : Bool) (w : World) :
    (ipv46_config_add_remove env if_name addr pfx_len add w).2.frees = w.frees ∧
      (ipv46_config_add_remove env if_name addr pfx_len add w).2.received = w.received := by
  cases hfind : w.find env if_name with
  | false => simp [config_missing addr pfx_len add hfind]
  | true =>
    cases hpfx : prefix_t.make env.text addr pfx_len with
    | none => simp [config_unparsed add hfind hpfx]
    | some pfx =>
      cases add with
      | false => simp [config_deleted hfind hpfx]
      | true => simp [config_added hfind hpfx]

theorem address_del_frees (env : Env) (l : address_locals) : (address_del env l).world.frees = l.world.frees ∧
    (address_del env l).world.received = l.world.received ∧ (address_del env l).iter = l.iter := by
  unfold address_del
  split
  · exact ⟨(config_frees _ _ _ _ _).1, (config_frees _ _ _ _ _).2, rfl⟩
  · exact ⟨rfl, rfl, rfl⟩

theorem address_create_frees (env : Env) (l : address_locals) : (address_create env l).world.frees = l.world.frees ∧
    (address_create env l).world.received = l.world.received ∧ (address_create env l).iter = l.iter := by
  unfold address_create
  split
  · exact ⟨(config_frees _ _ _ _ _).1, (config_frees _ _ _ _ _).2, rfl⟩
  · exact ⟨rfl, rfl, rfl⟩

theorem address_round_settles (env : Env) (h : Settles w l.world []) {if_name : String}
    (hname : if_name_of change = some if_name) (hproceeds : proceeds env change = true) :
    ∃ l', address_round env l change = .ok l' ∧ Settles w l'.world [] ∧ l'.iter = l.iter := by
  refine ⟨_, address_round_proceeds env l hname hproceeds, ?_, ?_⟩
  · obtain ⟨hcreate_frees, hcreate_received, _⟩ :=
      address_create_frees env (address_del env (l.after env change if_name))
    obtain ⟨hdel_frees, hdel_received, _⟩ := address_del_frees env (l.after env change if_name)
    refine h.exchange change.old_val change.new_val ?_ ?_ (List.Perm.of_eq (List.append_nil _).symm)
    · rw [hcreate_received, hdel_received]
      simp [address_locals.after, address_locals.released, address_locals.remembers, address_locals.entered,
        -change_t.old_val, -change_t.new_val, Nat.add_assoc]
    · rw [hcreate_frees, hdel_frees]
      simp [address_locals.after, address_locals.released, address_locals.remembers, address_locals.entered,
        -change_t.old_val, -change_t.new_val]
  · exact (address_create_frees env _).2.2.trans (address_del_frees env _).2.2

/-- An empty name releases everything at the label; a missing one is read
    through, and an overflow ends the process. -/
theorem address_round_stops_settles (env : Env) (h : Settles w l.world []) (hstopped : proceeds env change = false) :
    ∃ exit, address_round env l change = .error exit ∧
      if if_name_of change = some "" then Settles w (address_leave (.error exit)).world [.change_iter l.iter]
      else (address_leave (.error exit)).world.frees = l.world.frees := by
  cases hname : if_name_of change with
  | none =>
    refine ⟨_, address_round_keyless env l hname, ?_⟩
    simp [address_leave, address_locals.entered, -change_t.old_val, -change_t.new_val]
  | some if_name =>
    by_cases hempty : if_name = ""
    · subst hempty
      refine ⟨_, address_round_empty env l hname, ?_⟩
      rw [if_pos rfl]
      refine h.exchange change.old_val change.new_val ?_ ?_ (List.Perm.refl _)
      · simp [address_leave, address_locals.entered, Nat.add_assoc, -change_t.old_val, -change_t.new_val]
      · simp [address_leave, address_locals.entered, -change_t.old_val, -change_t.new_val]
    · have hover : overflows env change = true := by
        simpa [proceeds, hname, hempty] using hstopped
      refine ⟨_, address_round_overflows env l hname hempty hover, ?_⟩
      simp [hempty, address_leave, address_locals.entered, -change_t.old_val, -change_t.new_val]

/-- The address callback releases nothing again: it goes on unless it faults. -/
theorem address_run_survives (h : Settles w l.world []) (hiter : l.iter = .obtained) :
    (address_leave (changes.foldlM (address_round env) l)).survives w =
      (address_leave (changes.foldlM (address_round env) l)).outcome.isOk := by
  induction changes generalizing l with
  | nil =>
    refine survives_of_settles rfl (h.free rfl ?_)
    rw [← hiter]
    rfl
  | cons change changes ih =>
    rw [List.foldlM_cons]
    cases hproceeds : proceeds env change with
    | true =>
      obtain ⟨if_name, hname, _⟩ := proceeds_iff.mp hproceeds
      obtain ⟨l', hround, hsettles, hkept⟩ := address_round_settles env h hname hproceeds
      rw [hround, ok_bind]
      exact ih hsettles (hkept.trans hiter)
    | false =>
      obtain ⟨exit, hround, hends, _⟩ := address_round_stops env l hproceeds
      obtain ⟨exit', hround', hfrees⟩ := address_round_stops_settles env h hproceeds
      obtain rfl := Except.error.inj (hround.symm.trans hround')
      rw [hround, error_bind]
      by_cases hempty : if_name_of change = some ""
      · rw [if_pos hempty, hiter] at hfrees
        have hreturns : (address_leave (.error exit)).outcome.isOk = true := by
          rw [hends, stopped, hempty]
          rfl
        rw [survives_of_settles hreturns hfrees, hreturns]
      · rw [if_neg hempty] at hfrees
        exact survives_of_kept h hfrees

theorem address_run_released_iff (h : Settles w l.world []) (hiter : l.iter = .obtained) :
    Released .SR_ERR_OK w (address_leave (changes.foldlM (address_round env) l)) ↔
      match changes.find? fun change => !proceeds env change with
      | some last => if_name_of last = some ""
      | none => True := by
  induction changes generalizing l with
  | nil =>
    refine iff_of_true (released_of_settles (h.free rfl ?_)) trivial
    rw [← hiter]
    rfl
  | cons change changes ih =>
    rw [List.foldlM_cons]
    cases hproceeds : proceeds env change with
    | true =>
      obtain ⟨if_name, hname, _⟩ := proceeds_iff.mp hproceeds
      obtain ⟨l', hround, hsettles, hkept⟩ := address_round_settles env h hname hproceeds
      rw [hround, ok_bind, List.find?_cons_of_neg (by simp [hproceeds])]
      exact ih hsettles (hkept.trans hiter)
    | false =>
      obtain ⟨exit, hround, hfrees⟩ := address_round_stops_settles env h hproceeds
      rw [hround, error_bind, List.find?_cons_of_pos (by simp [hproceeds])]
      by_cases hempty : if_name_of change = some ""
      · rw [if_pos hempty, hiter] at hfrees
        exact iff_of_true (released_of_settles hfrees) hempty
      · rw [if_neg hempty] at hfrees
        exact iff_of_false (not_released h hfrees) hempty

end addresses

/-- What follows the loop of a callback succeeds, or fails without a handle left to
    release again. -/
def subscriber_t.Ends (subscriber : subscriber_t) (env : Env) (uninit : Uninit) (w : World)
    (changes : List change_t) : Prop :=
  match subscriber with
  | .ietf_interface_create_cb | .oc_interfaces_config_cb =>
    Completes env uninit w changes ∨ changes = [] ∧ uninit.create = true
  | .nat_mapping_table_config_cb => (uninit.create || changes.any ietf_nat.creates) = true →
    ietf_nat.lastMapping env.text uninit changes ≠ none ∧ env.write_rc w.writes = .OK
  | .ietf_interface_ipv46_address_change_cb => True

/-- When a callback releases each handle once. One that ends its loop early does
    so where it refuses the change with a code. -/
def subscriber_t.Releases (subscriber : subscriber_t) (env : Env) (uninit : Uninit) (w : World)
    (changes : List change_t) : Prop :=
  match subscriber with
  | .ietf_interface_create_cb =>
    match changes.find? fun change => !accepts env w.om change with
    | some refused => (refusal refused).isOk = true
    | none => subscriber.Ends env uninit w changes
  | .oc_interfaces_config_cb =>
    match changes.find? fun change => !shared env w.om change with
    | some left => common left = true
    | none => subscriber.Ends env uninit w changes
  | .nat_mapping_table_config_cb =>
    match changes.find? fun change => !ietf_nat.accepts env.text change with
    | some refused => (ietf_nat.refusal refused).isOk = true
    | none => subscriber.Ends env uninit w changes
  | .ietf_interface_ipv46_address_change_cb =>
    match changes.find? fun change => !proceeds env change with
    | some last => if_name_of last = some ""
    | none => subscriber.Ends env uninit w changes

/-- Without a change iterator there is nothing to release. -/
theorem subscriber_t.released_of_unread (subscriber : subscriber_t) (env : Env) (uninit : Uninit) {iter_rc : sr_error_t}
    (hiter : iter_rc ≠ .SR_ERR_OK) (changes : List change_t) (w : World) :
    Released iter_rc w (subscriber.call env uninit { event := .SR_EV_VERIFY, iter_rc, changes } w) := by
  have hreceived (it : iter_ptr) : Released iter_rc w { outcome := .ok iter_rc, world := w.sr_free_change_iter it } :=
    ⟨[.change_iter it], rfl, fun hok => absurd hok hiter, fun addr hlow hhigh => absurd hhigh (Nat.not_lt.mpr hlow)⟩
  cases subscriber with
  | ietf_interface_create_cb =>
    simp only [call, ietf_interface.ietf_interface_create_cb, ne_eq, hiter, not_true_eq_false, not_false_eq_true,
      if_true, if_false]
    exact hreceived .null
  | ietf_interface_ipv46_address_change_cb =>
    simp only [call, ietf_interface.ietf_interface_ipv46_address_change_cb, ne_eq, hiter, reduceCtorEq,
      not_false_eq_true, if_true, if_false]
    exact hreceived .null
  | nat_mapping_table_config_cb =>
    simp only [call, ietf_nat.nat_mapping_table_config_cb, ne_eq, hiter, not_true_eq_false, not_false_eq_true,
      if_true, if_false]
    exact hreceived .indeterminate
  | oc_interfaces_config_cb =>
    simp only [call, openconfig_interfaces.oc_interfaces_config_cb, ne_eq, hiter, not_true_eq_false,
      not_false_eq_true, if_true, if_false]
    exact hreceived .null

/-- The verify call of a callback releases each of its handles once exactly when
    its changes cannot be read or meet `Releases`. -/
theorem handles_released_iff (subscriber : subscriber_t) (env : Env) (uninit : Uninit) (iter_rc : sr_error_t)
    (changes : List change_t) (w : World) :
    Released iter_rc w (subscriber.call env uninit { event := .SR_EV_VERIFY, iter_rc, changes } w) ↔
      iter_rc ≠ .SR_ERR_OK ∨ subscriber.Releases env uninit w changes := by
  by_cases hiter : iter_rc = .SR_ERR_OK
  · subst hiter
    simp only [ne_eq, not_true_eq_false, false_or]
    cases subscriber with
    | ietf_interface_create_cb =>
      simp only [subscriber_t.call, create_cb_verify]
      exact create_run_released_iff
    | oc_interfaces_config_cb =>
      simp only [subscriber_t.call, config_cb_verify]
      exact config_run_released_iff
    | nat_mapping_table_config_cb => exact nat_cb_released_iff
    | ietf_interface_ipv46_address_change_cb =>
      have hcb : ietf_interface_ipv46_address_change_cb env (verify changes) w =
          address_leave (changes.foldlM (address_round env) { iter := .obtained, world := w }) := by
        simp [ietf_interface_ipv46_address_change_cb]
      simp only [subscriber_t.call, hcb]
      exact address_run_released_iff (.refl w) rfl
  · exact iff_of_true (subscriber.released_of_unread env uninit hiter changes w) (.inl hiter)

/-- An interface created without a type cannot be built, and its value, released
    in the loop, is released again at the label. -/
theorem untyped_creation_not_released :
    ¬ Released .SR_ERR_OK World.empty (subscriber_t.ietf_interface_create_cb.call counting cleared
      (verify [.created (name_leaf "host-vpp1")]) World.empty) := by
  rintro ⟨made, hmade, _, hvals⟩
  have hfrees : [.val 0, .val 0, .change_iter .obtained] = World.empty.frees ++ made := hmade
  rw [World.empty, List.nil_append] at hfrees
  have hone := hvals 0 (Nat.le_refl 0) Nat.one_pos
  rw [← hfrees] at hone
  exact absurd hone (by decide)

end sweetcomb
