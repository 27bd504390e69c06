import Mathlib.Data.List.Perm.Basic
import Sweetcomb.Callback

namespace sweetcomb

/-- Each handle of a call is released once: the iterator, if it was obtained, and
    every value received. -/
def Released (iter_rc : sr_error_t) (before : World) (result : cb_result) : Prop :=
  ∃ made, result.world.frees = before.frees ++ made ∧
    (iter_rc = .SR_ERR_OK → made.count (.change_iter .obtained) = 1) ∧
    ∀ addr, before.received ≤ addr → addr < result.world.received → made.count (.val addr) = 1

/-- The process goes on after a call: it has returned a code, and has released no
    handle twice and no iterator that was never assigned. -/
def cb_result.survives (before : World) (result : cb_result) : Bool :=
  let made := result.world.frees.drop before.frees.length
  result.outcome.isOk && decide (made.Nodup ∧ .change_iter .indeterminate ∉ made)

/-- Releasing a value, if there is one. -/
def free_vals (val : Option sr_val_ptr) : List free_t := (val.map fun val => free_t.val val.addr).toList

/-- The values received since are released once, and beside them what is
    listed. -/
def Settles (before after : World) (extra : List free_t) : Prop :=
  ∃ made n, after.received = before.received + n ∧ after.frees = before.frees ++ made ∧
    made.Perm ((List.range' before.received n).map .val ++ extra)

/-- A handle that has been released is among what is released beside. -/
def Repeats (before after : World) : Prop :=
  ∃ extra, Settles before after extra ∧
    (1 < extra.count (.change_iter .obtained) ∨
      ∃ addr, before.received ≤ addr ∧ addr < after.received ∧ .val addr ∈ extra)

/-- How a call leaves its handles: each released once, one of them again, or some
    kept by a call that faults. -/
inductive Disposes (before : World) (result : cb_result) : Prop
  | once (hreturns : result.outcome.isOk = true) (hsettles : Settles before result.world [.change_iter .obtained])
  | again (hrepeats : Repeats before result.world)
  | kept (hfaults : result.outcome.isOk = false) {middle : World} (hsettles : Settles before middle [])
    (hfrees : result.world.frees = middle.frees)

section world

variable (env : Env) (w : World) (val : Option sr_val_ptr) (item : Option sr_val_t) (it : iter_ptr) (key name : String)
  (obj : object) (state : admin_state_t)

@[simp] theorem World.sr_free_val_frees : (w.sr_free_val val).frees = w.frees ++ free_vals val := by
  cases val <;> simp [World.sr_free_val, free_vals]

@[simp] theorem World.sr_free_val_received : (w.sr_free_val val).received = w.received := by cases val <;> rfl

@[simp] theorem World.sr_free_change_iter_frees : (w.sr_free_change_iter it).frees = w.frees ++ [.change_iter it] := rfl

@[simp] theorem World.sr_free_change_iter_received : (w.sr_free_change_iter it).received = w.received := rfl

@[simp] theorem World.receive_frees : (w.receive item).2.frees = w.frees := by cases item <;> rfl

@[simp] theorem World.receive_received : (w.receive item).2.received = w.received + item.toList.length := by
  cases item <;> rfl

@[simp] theorem World.set_frees : (w.set name state).frees = w.frees := rfl

@[simp] theorem World.set_received : (w.set name state).received = w.received := rfl

@[simp] theorem World.om_remove_frees : (w.om_remove key).frees = w.frees := rfl

@[simp] theorem World.om_remove_received : (w.om_remove key).received = w.received := rfl

@[simp] theorem World.om_write_frees : (w.om_write env key obj).2.frees = w.frees := by
  unfold World.om_write
  split <;> rfl

@[simp] theorem World.om_write_received : (w.om_write env key obj).2.received = w.received := by
  unfold World.om_write
  split <;> rfl

/-- The values of one change come at the next addresses. -/
theorem World.receive_vals (old_val new_val : Option sr_val_t) :
    free_vals (w.receive old_val).1 ++ free_vals ((w.receive old_val).2.receive new_val).1 =
      (List.range' w.received (old_val.toList.length + new_val.toList.length)).map .val := by
  cases old_val <;> cases new_val <;> rfl

end world

variable {before middle after : World} {extra : List free_t}

theorem Settles.refl (w : World) : Settles w w [] := ⟨[], 0, rfl, (List.append_nil _).symm, .refl _⟩

theorem Settles.le (h : Settles before after extra) : before.received ≤ after.received := by
  obtain ⟨made, n, hreceived, _⟩ := h
  omega

/-- The values of one more change are received and released. -/
theorem Settles.exchange (h : Settles before middle []) (old_val new_val : Option sr_val_t) {freed : List free_t}
    (hreceived : after.received = middle.received + (old_val.toList.length + new_val.toList.length))
    (hfrees : after.frees = middle.frees ++ freed)
    (hfreed : freed.Perm (free_vals (middle.receive old_val).1 ++
      free_vals ((middle.receive old_val).2.receive new_val).1 ++ extra)) : Settles before after extra := by
  obtain ⟨made, n, hn, hmade, hperm⟩ := h
  refine ⟨made ++ freed, n + (old_val.toList.length + new_val.toList.length), by omega,
    by rw [hfrees, hmade, List.append_assoc], ?_⟩
  rw [World.receive_vals, hn] at hfreed
  rw [List.append_nil] at hperm
  rw [← List.range'_append_1, List.map_append, List.append_assoc]
  exact hperm.append hfreed

/-- Other releases add to the list. -/
theorem Settles.free (h : Settles before middle []) (hreceived : after.received = middle.received)
    (hfrees : after.frees = middle.frees ++ extra) : Settles before after extra := by
  obtain ⟨made, n, hn, hmade, hperm⟩ := h
  refine ⟨made ++ extra, n, hreceived.trans hn, by rw [hfrees, hmade, List.append_assoc], ?_⟩
  rw [List.append_nil] at hperm
  exact hperm.append_right extra

theorem count_vals (start n addr : Nat) :
    ((List.range' start n).map free_t.val).count (.val addr) = if start ≤ addr ∧ addr < start + n then 1 else 0 := by
  have hinjective : Function.Injective free_t.val := fun _ _ h => free_t.val.inj h
  rw [List.count_map_of_injective _ _ hinjective, (List.nodup_range' 1 Nat.one_pos).count]
  exact if_congr List.mem_range'_1 rfl rfl

theorem count_iter (start n : Nat) (it : iter_ptr) :
    ((List.range' start n).map free_t.val).count (.change_iter it) = 0 := by
  refine List.count_eq_zero.mpr fun hmem => ?_
  obtain ⟨addr, _, hsame⟩ := List.mem_map.mp hmem
  cases hsame

/-- With everything received released once, the rest decides. -/
theorem Settles.released_iff {outcome : Except fault_t sr_error_t} (h : Settles before after extra) :
    Released .SR_ERR_OK before { outcome, world := after } ↔
      extra.count (.change_iter .obtained) = 1 ∧
        ∀ addr, before.received ≤ addr → addr < after.received → extra.count (.val addr) = 0 := by
  obtain ⟨made, n, hn, hmade, hperm⟩ := h
  have hiter : made.count (.change_iter .obtained) = extra.count (.change_iter .obtained) := by
    rw [hperm.count_eq, List.count_append, count_iter, Nat.zero_add]
  have hval {addr : Nat} (hlow : before.received ≤ addr) (hhigh : addr < after.received) :
      made.count (.val addr) = 1 + extra.count (.val addr) := by
    rw [hperm.count_eq, List.count_append, count_vals, if_pos ⟨hlow, by omega⟩]
  constructor
  · rintro ⟨other, hother, hreleased, hvals⟩
    obtain rfl : made = other := List.append_cancel_left (hmade.symm.trans hother)
    refine ⟨hiter.symm.trans (hreleased rfl), fun addr hlow hhigh => ?_⟩
    have hone := hvals addr hlow hhigh
    rw [hval hlow hhigh] at hone
    omega
  · rintro ⟨hreleased, hvals⟩
    exact ⟨made, hmade, fun _ => hiter.trans hreleased, fun addr hlow hhigh => by
      rw [hval hlow hhigh, hvals addr hlow hhigh]⟩

theorem released_of_settles {outcome : Except fault_t sr_error_t} (h : Settles before after [.change_iter .obtained]) :
    Released .SR_ERR_OK before { outcome, world := after } :=
  h.released_iff.mpr ⟨rfl, fun _ _ _ => rfl⟩

/-- A call that keeps the iterator does not release it. -/
theorem not_released (h : Settles before middle []) {result : cb_result} (hfrees : result.world.frees = middle.frees) :
    ¬ Released .SR_ERR_OK before result := by
  rintro ⟨other, hother, hreleased, _⟩
  obtain ⟨made, n, _, hmade, hperm⟩ := h
  obtain rfl : made = other := List.append_cancel_left (hmade.symm.trans (hfrees.symm.trans hother))
  have hone := hreleased rfl
  rw [hperm.count_eq, List.append_nil, count_iter] at hone
  cases hone

section survival

variable {result : cb_result}

theorem survives_iff {made : List free_t} (hmade : result.world.frees = before.frees ++ made) :
    result.survives before = true ↔
      result.outcome.isOk = true ∧ made.Nodup ∧ .change_iter .indeterminate ∉ made := by
  simp [cb_result.survives, hmade]

theorem nodup_vals (start n : Nat) : ((List.range' start n).map free_t.val).Nodup :=
  (List.nodup_range' 1 Nat.one_pos).map fun _ _ h => free_t.val.inj h

theorem survives_of_settles (hreturns : result.outcome.isOk = true)
    (h : Settles before result.world [.change_iter .obtained]) : result.survives before = true := by
  obtain ⟨made, n, _, hmade, hperm⟩ := h
  refine (survives_iff hmade).mpr ⟨hreturns, hperm.nodup_iff.mpr ?_, fun hmem => ?_⟩
  · refine List.nodup_append.mpr ⟨nodup_vals _ _, List.nodup_singleton _, ?_⟩
    rintro _ hval _ hiter rfl
    obtain ⟨addr, _, hsame⟩ := List.mem_map.mp hval
    rw [List.mem_singleton.mp hiter] at hsame
    cases hsame
  · simp [hperm.mem_iff] at hmem

/-- Keeping the last handles is no harm. -/
theorem survives_of_kept (h : Settles before middle []) (hfrees : result.world.frees = middle.frees) :
    result.survives before = result.outcome.isOk := by
  obtain ⟨made, n, _, hmade, hperm⟩ := h
  rw [List.append_nil] at hperm
  have hclean : made.Nodup ∧ .change_iter .indeterminate ∉ made := by
    refine ⟨hperm.nodup_iff.mpr (nodup_vals _ _), fun hmem => ?_⟩
    simp [hperm.mem_iff] at hmem
  rw [Bool.eq_iff_iff, survives_iff (hfrees.trans hmade), and_iff_left hclean]

theorem not_survives_of_repeats (h : Repeats before result.world) : result.survives before = false := by
  obtain ⟨extra, ⟨made, n, hn, hmade, hperm⟩, hrepeats⟩ := h
  rw [← Bool.not_eq_true, survives_iff hmade]
  rintro ⟨_, hnodup, _⟩
  rw [List.nodup_iff_count_le_one] at hnodup
  rcases hrepeats with hiter | ⟨addr, hlow, hhigh, hmem⟩
  · have htwice := hnodup (.change_iter .obtained)
    rw [hperm.count_eq, List.count_append] at htwice
    omega
  · have htwice := hnodup (.val addr)
    have hagain := List.count_pos_iff.mpr hmem
    rw [hperm.count_eq, List.count_append, count_vals, if_pos ⟨hlow, by omega⟩] at htwice
    omega

theorem not_released_of_repeats (h : Repeats before result.world) : ¬ Released .SR_ERR_OK before result := by
  obtain ⟨extra, hsettles, hrepeats⟩ := h
  intro hreleased
  obtain ⟨hiter, hvals⟩ := (@Settles.released_iff _ _ _ result.outcome hsettles).mp hreleased
  rcases hrepeats with htwice | ⟨addr, hlow, hhigh, hmem⟩
  · omega
  · exact List.count_eq_zero.mp (hvals addr hlow hhigh) hmem

/-- A call that gives back all its handles goes on exactly when it gives them back
    once. -/
theorem Disposes.survives_iff_released (h : Disposes before result) :
    result.survives before = true ↔ Released .SR_ERR_OK before result := by
  cases h with
  | once hreturns hsettles =>
    exact iff_of_true (survives_of_settles hreturns hsettles) (released_of_settles hsettles)
  | again hrepeats =>
    exact iff_of_false (by simp [not_survives_of_repeats hrepeats]) (not_released_of_repeats hrepeats)
  | kept hfaults hsettles hfrees =>
    exact iff_of_false (by simp [survives_of_kept hsettles hfrees, hfaults]) (not_released hsettles hfrees)

end survival

end sweetcomb
