import Sweetcomb.Plugin.Subscriptions

namespace sweetcomb

/-- The state of a process that has made some subscriptions and released their
    context so often. -/
structure Kept (s : subscribed_t) (made : List subscription_t) (released : Nat) : Prop where
  log : s.pm.log = made.map (.subscribe 0) ++ List.replicate released (.unsubscribe 0)
  context : s.pm.subscription = if made = [] then none else some 0
  contexts : s.pm.contexts = if made = [] then 0 else 1
  models : Made made (waiting s.plugin.init_function_registrations)
  distinct : (waiting s.plugin.init_function_registrations).Nodup
  handed : s.private_ctx.isSome → s.private_ctx = s.pm.subscription ∧ waiting s.plugin.init_function_registrations = []
  release : released ≠ 0 → s.private_ctx.isSome
  cycle : ∀ model, (model, sr_error_t.SR_ERR_OK) ∈ s.plugin.cycle → model.subscriptions ⊆ made ∧ released = 0

section steps

variable {s : subscribed_t} {made : List subscription_t} {released : Nat}

theorem load_kept : Kept .load [] 0 where
  log := rfl
  context := rfl
  contexts := rfl
  models := ⟨List.nodup_nil, nofun⟩
  distinct := by decide
  handed := nofun
  release := fun hne => absurd rfl hne
  cycle := nofun

/-- What a pass runs is subscribed after all that was, and nothing is run once the
    context has been released. -/
theorem pass_kept (hkept : Kept s made released) (attempt : attempt_t) :
    let pass := sc_call_all_init_function attempt.start.func_rc s.plugin.init_function_registrations
    let pm := pass.ran.foldl (fun pm ran => (ran.1.init attempt.rc pm).2) s.pm
    ∃ added, pm.log = (made ++ added).map (.subscribe 0) ++ List.replicate released (.unsubscribe 0) ∧
      pm.subscription = (if made ++ added = [] then none else some 0) ∧
      pm.contexts = (if made ++ added = [] then 0 else 1) ∧ Made (made ++ added) (waiting pass.registrations) ∧
      (s.private_ctx.isSome → pass.ran = []) ∧
      ∀ model, (model, sr_error_t.SR_ERR_OK) ∈ pass.ran → model.subscriptions ⊆ added := by
  intro pass pm
  have hwaiting := waiting_eq_ran attempt.start.func_rc s.plugin.init_function_registrations
  have hmade := hkept.models
  have hdistinct := hkept.distinct
  rw [hwaiting] at hmade hdistinct
  have hidle (hnone : waiting s.plugin.init_function_registrations = []) : pass.ran = [] := by
    rw [hwaiting, List.append_eq_nil_iff, List.map_eq_nil_iff] at hnone
    exact hnone.1
  have hhanded : s.private_ctx.isSome → pass.ran = [] := fun hsome => hidle (hkept.handed hsome).2
  by_cases hreleased : released = 0
  · subst hreleased
    have hholding : Holding s.pm made := ⟨by simpa using hkept.log, hkept.context, hkept.contexts⟩
    have hrc : ∀ model rc, (model, rc) ∈ pass.ran → rc = (model.init attempt.rc {}).1 :=
      fun model rc hran => rc_of_mem_ran hran
    obtain ⟨added, hafter, hleft, hsucceeded⟩ := foldl_init_holding hholding hmade hdistinct hrc
    exact ⟨added, by simpa using hafter.log, hafter.context, hafter.contexts, hleft, hhanded, hsucceeded⟩
  · have hran := hhanded (hkept.release hreleased)
    have hran' : (sc_call_all_init_function attempt.start.func_rc s.plugin.init_function_registrations).ran = [] := hran
    have hpm : pm = s.pm := by simp only [pm, hran, List.foldl_nil]
    rw [hran', List.map_nil, List.nil_append] at hmade
    refine ⟨[], ?_, ?_, ?_, ?_, hhanded, ?_⟩
    · rw [hpm, List.append_nil, hkept.log]
    · rw [hpm, List.append_nil, hkept.context]
    · rw [hpm, List.append_nil, hkept.contexts]
    · rwa [List.append_nil]
    · rw [hran]
      nofun

theorem init_kept (hkept : Kept s made released) {attempt : attempt_t} {after : subscribed_t}
    (hinit : s.init attempt = some after) : ∃ added, Kept after (made ++ added) released := by
  obtain ⟨⟨rc, plugin⟩, hstart, hafter⟩ := Option.map_eq_some_iff.mp hinit
  have hstarted := sr_plugin_init_cb_started hstart
  obtain ⟨added, hlog, hcontext, hcontexts, hmade, hhanded, hsucceeded⟩ := pass_kept hkept attempt
  have hplugin : after.plugin = plugin := by rw [← hafter]
  have hprivate : after.private_ctx =
      if (sc_call_all_init_function attempt.start.func_rc s.plugin.init_function_registrations).ret = .SR_ERR_OK then
        after.pm.subscription
      else s.private_ctx := by rw [← hafter]
  have hpm : after.pm = (sc_call_all_init_function attempt.start.func_rc
      s.plugin.init_function_registrations).ran.foldl (fun pm ran => (ran.1.init attempt.rc pm).2) s.pm := by
    rw [← hafter]
  rw [← hpm] at hlog hcontext hcontexts
  have hwaiting := waiting_eq_ran attempt.start.func_rc s.plugin.init_function_registrations
  have hregistrations : after.plugin.init_function_registrations =
      (sc_call_all_init_function attempt.start.func_rc s.plugin.init_function_registrations).registrations := by
    rw [hplugin, hstarted.registrations]
  -- what has been handed over is the context of the plugin, before and after
  have hsubscription (hsome : s.private_ctx.isSome) : after.pm.subscription = s.pm.subscription := by
    rw [hpm, hhanded hsome, List.foldl_nil]
  refine ⟨added, hlog, hcontext, hcontexts, ?_, ?_, ?_, ?_, ?_⟩
  · rwa [hregistrations]
  · have hdistinct := hkept.distinct
    rw [hwaiting] at hdistinct
    rw [hregistrations]
    exact hdistinct.of_append_right
  · intro hsome
    rw [hregistrations]
    split at hprivate
    · next hok => exact ⟨hprivate, waiting_of_ok hok⟩
    · rw [hprivate] at hsome
      obtain ⟨hcontext, hnone⟩ := hkept.handed hsome
      rw [hwaiting, List.append_eq_nil_iff] at hnone
      exact ⟨by rw [hprivate, hcontext, hsubscription hsome], hnone.2⟩
  · intro hreleased
    have hsome := hkept.release hreleased
    rw [hprivate]
    split
    · rwa [hsubscription hsome, ← (hkept.handed hsome).1]
    · exact hsome
  · intro model hmem
    rw [hplugin, hstarted.cycle, List.mem_append] at hmem
    rcases hmem with hbefore | hran
    · obtain ⟨hsubset, hnone⟩ := hkept.cycle model hbefore
      exact ⟨List.subset_append_of_subset_left _ hsubset, hnone⟩
    · refine ⟨List.subset_append_of_subset_right _ (hsucceeded model hran), ?_⟩
      by_contra hreleased
      rw [hhanded (hkept.release hreleased)] at hran
      cases hran

theorem cleanup_kept (hkept : Kept s made released) :
    Kept s.cleanup made (released + if s.private_ctx.isSome then 1 else 0) := by
  refine ⟨?_, hkept.context, hkept.contexts, hkept.models, hkept.distinct, hkept.handed, ?_, nofun⟩
  · cases hprivate : s.private_ctx with
    | none => simpa [subscribed_t.cleanup, hprivate] using hkept.log
    | some context =>
      have hcontext := (hkept.handed (by simp [hprivate])).1
      rw [hkept.context, hprivate] at hcontext
      obtain rfl : context = 0 := by
        split at hcontext
        · cases hcontext
        · exact Option.some.inj hcontext
      simp [subscribed_t.cleanup, hprivate, hkept.log, List.replicate_succ']
  · intro hreleased
    change s.private_ctx.isSome
    by_contra hnone
    rw [if_neg hnone, Nat.add_zero] at hreleased
    exact hnone (hkept.release hreleased)

end steps

/-- How often sysrepo cleans up after the plugin has handed its context over. -/
def releases : Option subscribed_t → List subscribed_call → Nat
  | _, [] => 0
  | none, _ => 0
  | some s, .cleanup :: calls =>
    (if s.private_ctx.isSome then 1 else 0) + releases (some s.cleanup) calls
  | some s, .init attempt :: calls => releases (s.init attempt) calls

theorem run_kept {s s' : subscribed_t} {made : List subscription_t} {released : Nat} (hkept : Kept s made released)
    {calls : List subscribed_call} (hrun : calls.foldl subscribed_step (some s) = some s') :
    ∃ added, Kept s' (made ++ added) (released + releases (some s) calls) := by
  induction calls generalizing s made released with
  | nil =>
    obtain rfl := Option.some.inj hrun
    exact ⟨[], by simpa [releases] using hkept⟩
  | cons call calls ih =>
    cases call with
    | cleanup =>
      obtain ⟨added, hafter⟩ := ih (cleanup_kept hkept) hrun
      rw [Nat.add_assoc] at hafter
      exact ⟨added, hafter⟩
    | init attempt =>
      rw [List.foldl_cons] at hrun
      cases hinit : s.init attempt with
      | none =>
        have hexited : calls.foldl subscribed_step none = none := by
          clear hrun ih
          induction calls with
          | nil => rfl
          | cons call calls ih => exact ih
        simp only [subscribed_step, hinit, hexited] at hrun
        cases hrun
      | some next =>
        simp only [subscribed_step, hinit] at hrun
        obtain ⟨added, hnext⟩ := init_kept hkept hinit
        obtain ⟨more, hafter⟩ := ih hnext hrun
        refine ⟨added ++ more, ?_⟩
        rw [← List.append_assoc, releases, hinit]
        exact hafter

/-- Nothing is subscribed in a context that has been released, and none is released
    again. -/
def ReleasedLast (log : List sr_call) : Prop :=
  log.Pairwise fun earlier later => earlier ≠ .unsubscribe later.context

/-- The subscription is made, in a context that has not been released. -/
def Subscribed (log : List sr_call) (subscription : subscription_t) : Prop :=
  ∃ context, .subscribe context subscription ∈ log ∧ .unsubscribe context ∉ log

section log

variable {made : List subscription_t} {released : Nat}

theorem releasedLast_iff : ReleasedLast (made.map (.subscribe 0) ++ List.replicate released (.unsubscribe 0)) ↔
    released ≤ 1 := by
  rw [ReleasedLast, List.pairwise_append, List.pairwise_map, List.pairwise_replicate]
  constructor
  · rintro ⟨-, hreleased, -⟩
    simpa [sr_call.context] using hreleased
  · intro hreleased
    refine ⟨List.pairwise_of_forall nofun, .inl hreleased, ?_⟩
    rintro _ hmade _ -
    obtain ⟨subscription, -, rfl⟩ := List.mem_map.mp hmade
    nofun

theorem subscribed_log : subscribed (made.map (.subscribe 0) ++ List.replicate released (.unsubscribe 0)) = made := by
  simp [subscribed, List.filterMap_map]

theorem subscribed_iff {subscription : subscription_t} :
    Subscribed (made.map (.subscribe 0) ++ List.replicate released (.unsubscribe 0)) subscription ↔
      subscription ∈ made ∧ released = 0 := by
  simp [Subscribed, List.mem_replicate]

end log

section results

variable {s : subscribed_t} {calls : List subscribed_call}
  (hrun : calls.foldl subscribed_step (some .load) = some s)

include hrun

/-- In every process, the context of the plugin is not used after its release, nor
    released twice, exactly when sysrepo cleans up at most once after the
    context has been handed over. -/
theorem context_released_last_iff : ReleasedLast s.pm.log ↔ releases (some .load) calls ≤ 1 := by
  obtain ⟨made, hkept⟩ := run_kept load_kept hrun
  rw [hkept.log, releasedLast_iff, Nat.zero_add]

/-- Nothing is subscribed twice in a process, and a model that has been initialised
    in this cycle has all its subscriptions. -/
theorem subscribed_once : (subscribed s.pm.log).Nodup ∧
    ∀ model, (model, sr_error_t.SR_ERR_OK) ∈ s.plugin.cycle →
      ∀ subscription ∈ model.subscriptions, Subscribed s.pm.log subscription := by
  obtain ⟨made, hkept⟩ := run_kept load_kept hrun
  rw [hkept.log, subscribed_log]
  refine ⟨hkept.models.nodup, fun model hcycle subscription hmem => ?_⟩
  obtain ⟨hsubset, hnone⟩ := hkept.cycle model hcycle
  rw [subscribed_iff]
  exact ⟨hsubset hmem, hnone⟩

/-- A cleanup leaves subscriptions behind exactly when some have been made and the
    context has not been handed over, no pass having succeeded. -/
theorem left_behind_iff : (∃ subscription, Subscribed s.cleanup.pm.log subscription) ↔
    s.private_ctx = none ∧ s.pm.subscription.isSome := by
  obtain ⟨made, hkept⟩ := run_kept load_kept hrun
  rw [List.nil_append, Nat.zero_add] at hkept
  have hsome : s.pm.subscription.isSome ↔ made ≠ [] := by
    rw [hkept.context]
    cases made <;> simp
  simp only [(cleanup_kept hkept).log, subscribed_iff, hsome]
  cases hprivate : s.private_ctx with
  | some context => simp
  | none =>
    have hnever : releases (some .load) calls = 0 := by
      by_contra hreleased
      have hhanded := hkept.release hreleased
      rw [hprivate] at hhanded
      cases hhanded
    simp only [hnever, Option.isSome_none, Bool.false_eq_true, if_false, Nat.add_zero, and_true, true_and, ne_eq]
    exact ⟨fun ⟨_, hmem⟩ => List.ne_nil_of_mem hmem, List.exists_mem_of_ne_nil made⟩

end results

/-- Every subscription succeeds, and VPP is found. -/
def smooth : attempt_t := { vpp_pid := 4000, rc := fun _ => .SR_ERR_OK }

/-- The second cleanup releases the context of the first again. -/
theorem released_again : ∃ s, [.init smooth, .cleanup, .init smooth, .cleanup].foldl subscribed_step (some .load) =
    some s ∧ ¬ ReleasedLast s.pm.log := by
  refine ⟨_, rfl, ?_⟩
  rw [@context_released_last_iff _ [.init smooth, .cleanup, .init smooth, .cleanup] rfl]
  decide

theorem all_subscribed : ∃ s, [.init smooth].foldl subscribed_step (some .load) = some s ∧
    ∀ model : model_t, ∀ subscription ∈ model.subscriptions, Subscribed s.pm.log subscription := by
  refine ⟨_, rfl, fun model => ?_⟩
  refine (@subscribed_once _ [.init smooth] rfl).2 model ?_
  cases model <;> decide

/-- The last subscription of all fails. -/
def refused : attempt_t where
  vpp_pid := 4000
  rc
    | .dp_get_items _ .interface_statistics_cb => .SR_ERR_INTERNAL
    | _ => .SR_ERR_OK

/-- The other subscriptions stay after the cleanup. -/
theorem refused_left_behind : ∃ s, [.init refused].foldl subscribed_step (some .load) = some s ∧
    ∃ subscription, Subscribed s.cleanup.pm.log subscription := by
  refine ⟨_, rfl, ?_⟩
  rw [@left_behind_iff _ [.init refused] rfl]
  decide

end sweetcomb
