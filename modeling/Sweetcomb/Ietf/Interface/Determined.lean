import Sweetcomb.Commit
import Sweetcomb.Ietf.Interface.Trace

open loop

namespace sweetcomb.ietf_interface

/-- The interface built from all that is created, by a builder that starts in
    the given state. -/
def creation (m_state : Bool) (changes : List change_t) : Option (String × interface_attrs) :=
  interface_builder.build
    { m_name := latest named "" changes
      m_type := latest typed "" changes
      m_state := latest enabled m_state changes }

/-- The variables that are not initialised play no part: something creates, and
    either no interface can be built or its state is created too; or nothing
    creates and a state is set, and what is created would build the interface
    as it is written then. -/
def Settled (w : World) (changes : List change_t) : Prop :=
  if changes.any creates then creation false changes = none ∨ ∃ change ∈ changes, (enabled change).isSome
  else
    ∃ name state, lastSet changes = some (name, state) ∧
      creation false changes = some (name, { w.instances name with state }) ∧
      ∃ change ∈ changes, (enabled change).isSome

variable {w : World} {changes : List change_t}

theorem written_of_create {uninit : Uninit} (hcreate : (uninit.create || changes.any creates) = true) :
    written uninit w changes = creation uninit.m_state changes := by
  rw [written, if_pos hcreate]
  rfl

theorem written_of_not_create {uninit : Uninit} (hcreate : (uninit.create || changes.any creates) = false) :
    written uninit w changes = (lastSet changes).map fun set => (set.1, { w.instances set.1 with state := set.2 }) := by
  rw [written, hcreate]
  rfl

theorem creation_forgets (henabled : ∃ change ∈ changes, (enabled change).isSome) (first second : Bool) :
    creation first changes = creation second changes := by
  unfold creation
  rw [latest_forgets henabled first second]

theorem creation_eq_none (first second : Bool) : creation first changes = none ↔ creation second changes = none := by
  unfold creation
  rw [build_eq_none, build_eq_none]

/-- Without a state of its own, what is built takes the one it starts with. -/
theorem creation_inj (hnone : ¬ ∃ change ∈ changes, (enabled change).isSome)
    (hsame : creation false changes = creation true changes) : creation false changes = none := by
  have hkept : ∀ m_state, latest enabled m_state changes = m_state := by
    intro m_state
    refine latest_eq_self fun change hmem value hvalue => ?_
    exact absurd ⟨change, hmem, by rw [hvalue]; rfl⟩ hnone
  unfold creation at hsame ⊢
  rw [hkept, hkept] at hsame
  rw [hkept]
  by_contra hbuilt
  have hneither := mt build_eq_none.mpr hbuilt
  simp only [not_or] at hneither
  simp [interface_builder.build, hneither, admin_state_t.from_int] at hsame

section starts

variable {uninit uninit' : Uninit} {start start' : create_locals}

/-- The states that the changes set do not depend on what the variables held. -/
theorem foldl_advance_alike (hstart : Starts uninit w start) (hstart' : Starts uninit' w start')
    (before : List change_t) :
    (before.foldl advance start).world.Same (before.foldl advance start').world ∧
      (before.foldl advance start).world.writes = (before.foldl advance start').world.writes ∧
      (before.foldl advance start).world.calls = (before.foldl advance start').world.calls := by
  refine ⟨⟨?_, ?_, ?_⟩, ?_, ?_⟩
  · rw [foldl_advance_om, foldl_advance_om, hstart.world, hstart'.world]
  · funext name
    rw [foldl_advance_instances, foldl_advance_instances, hstart.world, hstart'.world]
  · rw [foldl_advance_table, foldl_advance_table, hstart.world, hstart'.world]
  · rw [foldl_advance_writes, foldl_advance_writes, hstart.world, hstart'.world]
  · rw [foldl_advance_calls, foldl_advance_calls, hstart.world, hstart'.world]

/-- Under the condition all runs write the same, and a run that writes nothing
    fails to build. -/
theorem Settled.written (hsettled : Settled w changes) (uninit uninit' : Uninit) :
    written uninit w changes = written uninit' w changes ∧
      (written uninit w changes = none → changes.any creates = true) := by
  unfold Settled at hsettled
  split at hsettled
  · next hcreates =>
    have hcreate (uninit : Uninit) : (uninit.create || changes.any creates) = true := by rw [hcreates, Bool.or_true]
    rw [written_of_create (hcreate uninit), written_of_create (hcreate uninit')]
    refine ⟨?_, fun _ => hcreates⟩
    rcases hsettled with hnone | henabled
    · rw [(creation_eq_none uninit.m_state false).mpr hnone, (creation_eq_none uninit'.m_state false).mpr hnone]
    · exact creation_forgets henabled _ _
  · obtain ⟨name, state, hlast, hcreation, henabled⟩ := hsettled
    have hwritten (uninit : Uninit) :
        ietf_interface.written uninit w changes = some (name, { w.instances name with state }) := by
      cases hcreate : (uninit.create || changes.any creates) with
      | true => rw [written_of_create hcreate, creation_forgets henabled uninit.m_state false, hcreation]
      | false =>
        rw [written_of_not_create hcreate, hlast]
        rfl
    rw [hwritten, hwritten]
    exact ⟨rfl, fun hnone => by cases hnone⟩

/-- Under the condition the code after the loop does the same from any
    variables. -/
theorem Settled.commit (env : Env) (hsettled : Settled w changes) (hstart : Starts uninit w start)
    (hstart' : Starts uninit' w start') :
    (create_leave (create_commit env (changes.foldl advance start))).Same
      (create_leave (create_commit env (changes.foldl advance start'))) := by
  obtain ⟨hworld, hwrites, hcalls⟩ := foldl_advance_alike hstart hstart' changes
  obtain ⟨hsame, hfails⟩ := hsettled.written uninit uninit'
  rw [← pending_eq_written hstart, ← pending_eq_written hstart'] at hsame
  refine create_commit_alike env hworld hwrites hcalls hsame fun hnone => ?_
  rw [pending_eq_written hstart] at hnone
  have hcreates := hfails hnone
  simp [unwritten, dropped, hcreates]

/-- Runs that are the same write the same interface. -/
theorem written_of_same (env : Env) (hstart : Starts uninit w start) (hstart' : Starts uninit' w start')
    (hsame : (create_leave (create_commit env (changes.foldl advance start))).Same
      (create_leave (create_commit env (changes.foldl advance start'))))
    {set : String × interface_attrs} (hwritten : written uninit w changes = some set) :
    written uninit' w changes = some set := by
  have hcalls := hsame.calls
  rw [(create_commit_calls env _).2, (create_commit_calls env _).2, (foldl_advance_alike hstart hstart' changes).2.2,
    List.append_cancel_left_eq, pending_eq_written hstart, pending_eq_written hstart', hwritten] at hcalls
  obtain ⟨key, attrs⟩ := set
  cases hother : written uninit' w changes with
  | some other =>
    obtain ⟨key', attrs'⟩ := other
    simp only [hother, List.cons.injEq, vom_call.write.injEq, object.interface.injEq, and_true] at hcalls
    obtain ⟨rfl, _, rfl⟩ := hcalls
    rfl
  | none =>
    simp only [hother] at hcalls
    cases hdropped : dropped (changes.foldl advance start') <;> simp [hdropped] at hcalls

end starts

/-- Without a state that is set, a flag that happens to be set ends the call at
    a null pointer. -/
theorem commit_outcome_of_quiet (env : Env) {uninit : Uninit} {start : create_locals} (hstart : Starts uninit w start)
    (hcreate : (uninit.create || changes.any creates) = false) (hlast : lastSet changes = none)
    (hquiet : (changes.any fun change => (sets change).isSome) = false) :
    (create_leave (create_commit env (changes.foldl advance start))).outcome =
      if uninit.modify then .error .null_interface else .ok .SR_ERR_OK := by
  have hflag : (changes.foldl advance start).create = false := by rw [foldl_advance_create, hstart.create, hcreate]
  have hmodify : (changes.foldl advance start).modify = uninit.modify := by
    rw [foldl_advance_modify, hstart.modify, hquiet, Bool.or_false]
  have hpending : pending (changes.foldl advance start) = none := by
    rw [pending_eq_written hstart, written_of_not_create hcreate, hlast]
    rfl
  rw [(create_commit_calls env _).1, hpending, hflag, hmodify]
  rfl

theorem quiet_of_lastSet (hlast : lastSet changes = none) :
    (changes.any fun change => (sets change).isSome) = false := by
  by_contra hsome
  rw [Bool.not_eq_false, List.any_eq_true] at hsome
  obtain ⟨change, hmem, hset⟩ := hsome
  have hlatest : (lastSet changes).isSome := by
    refine latest_of_forall (fun last : Option (String × admin_state_t) => last.isSome = true)
      ⟨change, hmem, by simpa using hset⟩ ?_
    intro other _ last hother
    obtain ⟨set, _, rfl⟩ := Option.map_eq_some_iff.mp hother
    rfl
  rw [hlast] at hlatest
  cases hlatest

/-- From any variables the code after the loop does the same exactly under the
    condition. -/
theorem commit_determined_iff (env : Env) {start : Uninit → create_locals}
    (hstart : ∀ uninit, Starts uninit w (start uninit)) :
    (∀ uninit uninit', (create_leave (create_commit env (changes.foldl advance (start uninit)))).Same
        (create_leave (create_commit env (changes.foldl advance (start uninit'))))) ↔ Settled w changes := by
  constructor
  · intro hsame
    have hwritten {uninit : Uninit} (uninit' : Uninit) {set : String × interface_attrs}
        (hset : written uninit w changes = some set) : written uninit' w changes = some set :=
      written_of_same env (hstart uninit) (hstart uninit') (hsame uninit uninit') hset
    unfold Settled
    split
    · next hcreates =>
      have hcreate (uninit : Uninit) : (uninit.create || changes.any creates) = true := by rw [hcreates, Bool.or_true]
      by_contra hneither
      rw [not_or] at hneither
      obtain ⟨hbuilt, hstate⟩ := hneither
      obtain ⟨set, hset⟩ := Option.ne_none_iff_exists'.mp hbuilt
      have hdown := hwritten { cleared with m_state := true } ((written_of_create (hcreate cleared)).trans hset)
      rw [written_of_create (hcreate _)] at hdown
      exact hbuilt (creation_inj hstate (hset.trans hdown.symm))
    · next hcreates =>
      have hcreate : (cleared.create || changes.any creates) = false := by simpa [cleared] using hcreates
      cases hlast : lastSet changes with
      | none =>
        have hquiet := quiet_of_lastSet hlast
        have hends := (commit_outcome_of_quiet env (hstart cleared) hcreate hlast hquiet).symm.trans
          ((hsame cleared { cleared with modify := true }).outcome.trans
            (commit_outcome_of_quiet env (hstart _) hcreate hlast hquiet))
        cases hends
      | some set =>
        have hset : written cleared w changes = some (set.1, { w.instances set.1 with state := set.2 }) := by
          rw [written_of_not_create hcreate, hlast]
          rfl
        have hdown := hwritten { cleared with create := true } hset
        have hup := hwritten { cleared with create := true, m_state := true } hset
        rw [written_of_create rfl] at hdown hup
        refine ⟨set.1, set.2, rfl, hdown, ?_⟩
        by_contra hstate
        have hnone := creation_inj hstate (hdown.trans hup.symm)
        cases hnone.symm.trans hdown
  · intro hsettled uninit uninit'
    exact hsettled.commit env (hstart uninit) (hstart uninit')

/-- A callback that goes through the changes as long as it may, and then runs the
    code after the loop, does the same from any variables exactly when it
    leaves the loop early or the condition holds. -/
theorem loop_determined_iff (env : Env) {start : Uninit → create_locals}
    (hstart : ∀ uninit, Starts uninit w (start uninit))
    {run : Uninit → List change_t → cb_result} {goes_on : change_t → Bool}
    {refusal : change_t → Except fault_t sr_error_t}
    (hthrough : ∀ uninit changes, (∀ change ∈ changes, goes_on change = true) →
      run uninit changes = create_leave (create_commit env (changes.foldl advance (start uninit))))
    (hleft : ∀ uninit before change after, (∀ earlier ∈ before, goes_on earlier = true) → goes_on change = false →
      (run uninit (before ++ change :: after)).outcome = refusal change ∧
        (run uninit (before ++ change :: after)).world.Same (before.foldl advance (start uninit)).world ∧
        (run uninit (before ++ change :: after)).world.calls = (before.foldl advance (start uninit)).world.calls) :
    (∀ uninit uninit', (run uninit changes).Same (run uninit' changes)) ↔
      (∃ change ∈ changes, goes_on change = false) ∨ Settled w changes := by
  rcases accepted_or_split goes_on changes with hall | ⟨before, change, after, rfl, hall, hnot⟩
  · have hnone : ¬ ∃ change ∈ changes, goes_on change = false := by simpa using hall
    simp only [fun uninit => hthrough uninit changes hall, hnone, false_or]
    exact commit_determined_iff env hstart
  · refine iff_of_true (fun uninit uninit' => ?_) (.inl ⟨change, by simp, hnot⟩)
    obtain ⟨houtcome, hsame, hcalls⟩ := hleft uninit before change after hall hnot
    obtain ⟨houtcome', hsame', hcalls'⟩ := hleft uninit' before change after hall hnot
    obtain ⟨hworld, _, hmade⟩ := foldl_advance_alike (hstart uninit) (hstart uninit') before
    exact ⟨houtcome.trans houtcome'.symm, hcalls.trans (hmade.trans hcalls'.symm),
      hsame.trans (hworld.trans hsame'.symm)⟩

end sweetcomb.ietf_interface
