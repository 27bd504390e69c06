import Sweetcomb.Commit
import Sweetcomb.Ietf.Address.Entry
import Sweetcomb.Refcount
import Sweetcomb.Runs

open datastore keyed_store loop runs

namespace sweetcomb.ietf_interface

abbrev address_datastore := Datastore (String × address) UInt8

/-- Each edit starts from what the edits before it leave. -/
def Applied (ds : address_datastore) (edits : List address_edit) : Prop :=
  Along edit.apply edit.Applies ds edits

/-- Every entry of the list meets its condition, in the context of those before
    it. -/
def EntriesOk (ds : address_datastore) (edits : List address_edit) : Prop :=
  Along (fun state e => (context_t.after state.1 e, edit.apply state.2 e))
    (fun state e => EntryOk state.1 state.2 e) ({}, ds) edits

/-- The callback, as one that has no variables left uninitialised. -/
def address_cb (env : Env) : callback_t :=
  fun _ delivery w => ietf_interface_ipv46_address_change_cb env delivery w

def address_commit (env : Env) (edits : List address_edit) : commit_t (String × address) UInt8 :=
  in_order (address_changes env.text) edits

def address_step (env : Env) (state : World × address_datastore) (edits : List address_edit) :
    World × address_datastore :=
  (address_commit env edits).step (address_cb env) state

section step

variable {env : Env} {ctx : context_t} {ds : address_datastore} {l : address_locals}

theorem address_round_unnamed (env : Env) (l : address_locals) {entry : String × address}
    (hname : entry.1 = "") (leaf : leaf_change) :
    ∃ l', address_round env l (leaf.change env.text entry) = .error (.goto_error l') ∧
      l'.rc = .SR_ERR_OPERATION_FAILED := by
  cases leaf <;>
    exact ⟨_, by simp [address_round, leaf_change.change, hname]; rfl, rfl⟩

/-- The loop stops at an entry of an interface without a name. -/
theorem foldlM_unnamed {e : address_edit} (hname : e.key.1 = "") (rest : List change_t) :
    (address_leave ((address_changes env.text e ++ rest).foldlM (address_round env) l)).outcome ≠
      .ok .SR_ERR_OK := by
  have hround := address_round_unnamed env l hname
  cases e with
  | created entry len =>
    obtain ⟨l', hexit, hrc⟩ := hround (.created .node)
    simp only [edit.key] at hexit
    simp [address_changes, leaves_of, hexit, address_leave, hrc]
  | deleted entry len =>
    obtain ⟨l', hexit, hrc⟩ := hround (.deleted .node)
    simp only [edit.key] at hexit
    simp [address_changes, leaves_of, hexit, address_leave, hrc]
  | modified entry old new =>
    obtain ⟨l', hexit, hrc⟩ := hround (.modified (.prefix_length old) (.prefix_length new))
    simp only [edit.key] at hexit
    simp [address_changes, leaves_of, hexit, address_leave, hrc]

/-- The induction is on the entries. What the loop carries from one to the next
    is the context, and OM is in sync after each of them. -/
theorem holds_of_entriesOk (hwrites : ∀ n, env.write_rc n = .OK) {edits : List address_edit}
    (halive : ∀ e ∈ edits, ∀ om, env.alive om e.key.1 = true) (hrep : Represents env (ctx, configured ds) l)
    (happlied : Applied ds edits)
    (hentries : Along (fun state e => (context_t.after state.1 e, edit.apply state.2 e))
      (fun state e => EntryOk state.1 state.2 e) (ctx, ds) edits)
    (hok : (address_leave ((edits.flatMap (address_changes env.text)).foldlM (address_round env) l)).outcome =
      .ok .SR_ERR_OK) :
    Holds env.text
      (address_leave ((edits.flatMap (address_changes env.text)).foldlM (address_round env) l)).world.om
      (configured (applyAll ds edits)) := by
  induction edits generalizing ctx ds l with
  | nil => exact hrep.2
  | cons e edits ih =>
    rw [List.forall_mem_cons] at halive
    obtain ⟨happlies, hrest⟩ := happlied
    obtain ⟨hentry, hentries⟩ := hentries
    rw [List.flatMap_cons] at hok ⊢
    by_cases hname : e.key.1 = ""
    · exact absurd hok (foldlM_unnamed hname _)
    · obtain ⟨l', hloop, hcarries, hholds⟩ := foldlM_entry hrep hname halive.1 hwrites
      rw [carry_context] at hcarries
      rw [(entry_exact happlies).mpr hentry] at hholds
      rw [List.foldlM_append, hloop, ok_bind] at hok ⊢
      exact ih halive.2 ⟨hcarries, hholds⟩ hrest hentries hok

/-- The bindings in OM are those that the datastore asks for. -/
def BindingsSynced (env : Env) (state : World × address_datastore) : Prop :=
  Holds env.text state.1.om (configured state.2)

/-- A commit of address entries whose call succeeds, with every interface named
    by it present throughout. -/
structure Agreed (env : Env) (state : World × address_datastore) (edits : List address_edit) : Prop where
  applied : Applied state.2 edits
  present : ∀ e ∈ edits, ∀ om, env.alive om e.key.1 = true
  succeeds : ((address_commit env edits).verify (address_cb env) state.1).outcome = .ok .SR_ERR_OK

theorem bindings_step (hwrites : ∀ n, env.write_rc n = .OK) {state : World × address_datastore}
    (hsync : BindingsSynced env state) {edits : List address_edit} (hagreed : Agreed env state edits)
    (hentries : EntriesOk state.2 edits) : BindingsSynced env (address_step env state edits) := by
  have hverify : (address_commit env edits).verify (address_cb env) state.1 =
      address_leave ((edits.flatMap (address_changes env.text)).foldlM (address_round env)
        { iter := .obtained, world := state.1 }) := by
    simp [commit_t.verify, address_cb, address_commit, in_order, ietf_interface_ipv46_address_change_cb]
  have hok := hagreed.succeeds
  simp only [BindingsSynced, address_step, commit_t.step, if_pos hok]
  rw [hverify] at hok ⊢
  exact holds_of_entriesOk hwrites hagreed.present ⟨carries_start env state.1, hsync⟩ hagreed.applied
    hentries hok

end step

/-- In a run whose calls all succeed, OM is in sync after every commit if each
    entry of each list meets `EntryOk`. -/
theorem bindings_in_sync {env : Env} (hwrites : ∀ n, env.write_rc n = .OK)
    {state : World × address_datastore} (hsync : BindingsSynced env state)
    {commits : List (List address_edit)} (hagreed : Along (address_step env) (Agreed env) state commits)
    (hentries : Along (address_step env) (fun state edits => EntriesOk state.2 edits) state commits) :
    Along (address_step env) (fun state edits => BindingsSynced env (address_step env state edits))
      state commits := by
  refine along_of_step ?_ hsync (along_and.mpr ⟨hagreed, hentries⟩)
  rintro before edits hbefore ⟨hcommit, hmeets⟩
  have hafter := bindings_step hwrites hbefore hcommit hmeets
  exact ⟨hafter, hafter⟩

/-- An environment in which every interface is present. -/
def all_present : Env := { counting with alive := fun _ _ => true }

def vpp1_address : String × address := ("host-vpp1", .v4 0xC0A80001)

def vpp2_address : String × address := ("host-vpp2", .v4 0x0A000001)

def two_configured : address_datastore := fun entry =>
  if entry = vpp1_address then some 24 else if entry = vpp2_address then some 16 else none

def vpp1_prefix : prefix_t := { addr := vpp1_address.2, len := 24 }

def vpp2_prefix : prefix_t := { addr := vpp2_address.2, len := 16 }

def two_bound : World :=
  { World.empty with
    om := (World.empty.om.write object.singular (KEY all_present.text "host-vpp1" vpp1_prefix)
      (.l3_binding "host-vpp1" vpp1_prefix)).write object.singular (KEY all_present.text "host-vpp2" vpp2_prefix)
      (.l3_binding "host-vpp2" vpp2_prefix) }

theorem configured_two : configured two_configured =
    ∅ ∪ {("host-vpp1", vpp1_prefix)} ∪ {("host-vpp2", vpp2_prefix)} := by
  ext ⟨itf, pfx⟩
  obtain ⟨addr, len⟩ := pfx
  simp only [mem_configured, two_configured, Set.mem_union, Set.mem_empty_iff_false, Set.mem_singleton_iff,
    vpp1_prefix, vpp2_prefix, vpp1_address, vpp2_address, Prod.mk.injEq, prefix_t.mk.injEq]
  grind

theorem bindings_synced_two : BindingsSynced all_present (two_bound, two_configured) := by
  have hempty : Holds all_present.text World.empty.om ∅ := by
    intro key itf pfx
    simp [World.empty]
  rw [BindingsSynced, configured_two]
  exact (hempty.write "host-vpp1" vpp1_prefix).write "host-vpp2" vpp2_prefix

/-- One of two addresses is replaced while the other interface gets a second
    one; then the other address and the replacement go. -/
theorem bindings_in_sync_create_then_delete :
    Along (address_step all_present)
      (fun state edits => BindingsSynced all_present (address_step all_present state edits))
      (two_bound, two_configured)
      [[.deleted vpp1_address 24, .created ("host-vpp2", .v4 0x0A000002) 0,
          .created ("host-vpp1", .v4 0xC0A80002) 0],
        [.deleted vpp2_address 16, .deleted ("host-vpp1", .v4 0xC0A80002) 0]] := by
  refine bindings_in_sync (fun _ => rfl) bindings_synced_two ⟨?_, ?_, trivial⟩ ⟨?_, ?_, trivial⟩
  · exact ⟨⟨⟨by decide, by decide⟩, ⟨by decide, by decide⟩, ⟨by decide, by decide⟩, trivial⟩,
      fun _ _ _ => rfl, by decide⟩
  · exact ⟨⟨⟨by decide, by decide⟩, ⟨by decide, by decide⟩, trivial⟩, fun _ _ _ => rfl, by decide⟩
  · refine ⟨?_, ⟨.inl rfl, ?_⟩, ⟨.inl rfl, ?_⟩, trivial⟩
    · rintro pfx ⟨⟩
    · rintro pfx ⟨⟩
      decide
    · rintro pfx ⟨⟩
      decide
  · refine ⟨?_, ?_, trivial⟩
    · rintro pfx ⟨⟩
    · rintro pfx ⟨⟩

/-- A first address with another prefix length leaves a second binding behind. -/
theorem created_24_not_in_sync :
    Agreed all_present (World.empty, fun _ => none) [.created vpp1_address 24] ∧
      ¬ BindingsSynced all_present
        (address_step all_present (World.empty, fun _ => none) [.created vpp1_address 24]) := by
  refine ⟨⟨⟨⟨by decide, by decide⟩, trivial⟩, fun _ _ _ => rfl, by decide⟩, fun hsync => ?_⟩
  have hextra := (hsync "l3_host-vpp1_192.168.0.1/0" "host-vpp1" ⟨.v4 0xC0A80001, 0⟩).mp (by decide)
  exact absurd (mem_configured.mp hextra.2) (by decide)

end sweetcomb.ietf_interface
