import Sweetcomb.Ietf.Address.Failures
import Sweetcomb.KeyedStore.Region
import Sweetcomb.Subscribers.Keys

open keyed_store loop sweetcomb.ietf_interface

namespace sweetcomb

/-- The two halves of what is configured: the interfaces with their addresses, and
    the NAT mappings. -/
inductive side_t where
  | interfaces
  | mappings
deriving DecidableEq

/-- A number is the key of a mapping, and every other text is left to the
    interfaces. -/
def side_t.keys : side_t → String → Prop
  | .interfaces, key => ∀ index, key ≠ ietf_nat.KEY index
  | .mappings, key => ∃ index, key = ietf_nat.KEY index

def subscriber_t.side : subscriber_t → side_t
  | .nat_mapping_table_config_cb => .mappings
  | _ => .interfaces

theorem side_t.covers (key : String) : side_t.interfaces.keys key ∨ side_t.mappings.keys key := by
  by_cases hkey : ∃ index, key = ietf_nat.KEY index
  · exact .inr hkey
  · exact .inl fun index heq => hkey ⟨index, heq⟩

theorem not_mappings_of_interfaces {key : String} (hkey : side_t.interfaces.keys key) : ¬ side_t.mappings.keys key := by
  rintro ⟨index, heq⟩
  exact hkey index heq

theorem not_interfaces_KEY (index : UInt32) : ¬ side_t.interfaces.keys (ietf_nat.KEY index) :=
  fun hkey => hkey index rfl

theorem interfaces_KEY (text : AddressText) (itf : String) (pfx : prefix_t) :
    side_t.interfaces.keys (ietf_interface.KEY text itf pfx) :=
  fun index => binding_KEY_ne_mapping_KEY text itf pfx index

theorem interfaces_empty : side_t.interfaces.keys "" := by
  intro index heq
  have hlength : 0 < (ietf_nat.KEY index).length := by
    rw [ietf_nat.KEY, String.length, Nat.toList_repr]
    exact Nat.length_toDigits_pos
  rw [← heq] at hlength
  exact absurd hlength (by decide)

/-- Two states that one side cannot tell apart. -/
structure Agrees (side : side_t) (first second : World) : Prop where
  om : first.om.SameOn side.keys second.om
  instances : side = .interfaces → first.instances = second.instances
  table : side = .mappings → first.static_mapping_table = second.static_mapping_table

theorem Agrees.refl (side : side_t) (w : World) : Agrees side w w :=
  ⟨.refl _ _, fun _ => rfl, fun _ => rfl⟩

theorem agrees_interfaces {first second : World} (hom : first.om.SameOn side_t.interfaces.keys second.om)
    (hinstances : first.instances = second.instances) : Agrees .interfaces first second :=
  ⟨hom, fun _ => hinstances, nofun⟩

theorem agrees_mappings {first second : World} (hom : first.om.SameOn side_t.mappings.keys second.om)
    (htable : first.static_mapping_table = second.static_mapping_table) : Agrees .mappings first second :=
  ⟨hom, nofun, fun _ => htable⟩

theorem Agrees.symm {side : side_t} {first second : World} (hagrees : Agrees side first second) :
    Agrees side second first where
  om := hagrees.om.symm
  instances hside := (hagrees.instances hside).symm
  table hside := (hagrees.table hside).symm

theorem Agrees.trans {side : side_t} {first second third : World} (hfirst : Agrees side first second)
    (hsecond : Agrees side second third) : Agrees side first third where
  om := hfirst.om.trans hsecond.om
  instances hside := (hfirst.instances hside).trans (hsecond.instances hside)
  table hside := (hfirst.table hside).trans (hsecond.table hside)

theorem agrees_of_same (side : side_t) {first second : World} (hsame : first.Same second) :
    Agrees side first second where
  om := hsame.om ▸ .refl _ _
  instances _ := hsame.instances
  table _ := hsame.static_mapping_table

/-- States that neither side can tell apart are the same. -/
theorem same_of_agrees {first second : World} (hagrees : ∀ side, Agrees side first second) : first.Same second where
  om := (hagrees .interfaces).om.eq_of_covers side_t.covers (hagrees .mappings).om
  instances := (hagrees .interfaces).instances rfl
  static_mapping_table := (hagrees .mappings).table rfl

/-- Calls that end alike, in states that one side cannot tell apart. -/
structure AlikeOn (side : side_t) (first second : cb_result) : Prop where
  outcome : first.outcome = second.outcome
  world : Agrees side first.world second.world

/-- Under a number OM holds mappings only. -/
def Sorted (om : Om) : Prop :=
  om.Keyed fun obj key => side_t.mappings.keys key → ∃ inside outside, obj = .nat_static inside outside

/-- A side is left as it is, and the numbers are left to the mappings. -/
structure Leaves (side : side_t) (before after : World) : Prop where
  agrees : Agrees side after before
  sorted : Sorted before.om → Sorted after.om

theorem Leaves.trans {side : side_t} {before middle after : World} (hfirst : Leaves side before middle)
    (hsecond : Leaves side middle after) : Leaves side before after where
  agrees := hsecond.agrees.trans hfirst.agrees
  sorted hsorted := hsecond.sorted (hfirst.sorted hsorted)

theorem leaves_of_same (side : side_t) {before after : World} (hsame : after.Same before) :
    Leaves side before after where
  agrees := agrees_of_same side hsame
  sorted hsorted := hsame.om ▸ hsorted

/-- What keeps an interface alive is all on its side. -/
theorem alive_eq {env : Env} (hcounts : env.Counts) {first second : Om}
    (hsame : first.SameOn side_t.interfaces.keys second) (hfirst : Sorted first) (hsecond : Sorted second) :
    env.alive first = env.alive second := by
  have hside {om : Om} (hsorted : Sorted om) {name : String} {entry : String × object} (hmem : entry ∈ om)
      (hkeeps : entry.2.keeps name = true) : side_t.interfaces.keys entry.1 := by
    rcases side_t.covers entry.1 with hkey | hkey
    · exact hkey
    · obtain ⟨inside, outside, hobj⟩ := hsorted entry.1 entry.2 hmem hkey
      rw [hobj] at hkeeps
      cases hkeeps
  funext name
  rw [Bool.eq_iff_iff, hcounts, hcounts]
  constructor
  · rintro ⟨entry, hmem, hkeeps⟩
    exact ⟨entry, (hsame entry (hside hfirst hmem hkeeps)).mp hmem, hkeeps⟩
  · rintro ⟨entry, hmem, hkeeps⟩
    exact ⟨entry, (hsame entry (hside hsecond hmem hkeeps)).mpr hmem, hkeeps⟩

section interfaces

/-- Variables of an interface callback that differ in what its side cannot tell
    apart. -/
structure Beside (first second : create_locals) : Prop where
  intf : first.intf = second.intf
  builder : first.builder = second.builder
  create : first.create = second.create
  remove : first.remove = second.remove
  modify : first.modify = second.modify
  writes : first.world.writes = second.world.writes
  world : Agrees .interfaces first.world second.world

theorem Beside.advance {first second : create_locals} (hbeside : Beside first second) (change : change_t) :
    Beside (advance first change) (advance second change) where
  intf := by simp [ietf_interface.advance, hbeside.intf]
  builder := by simp [ietf_interface.advance, hbeside.builder]
  create := by simp [ietf_interface.advance, hbeside.create]
  remove := by simp [ietf_interface.advance, hbeside.remove]
  modify := by simp [ietf_interface.advance, hbeside.modify]
  writes := by simp [hbeside.writes]
  world := by
    refine agrees_interfaces (by simpa using hbeside.world.om) ?_
    funext name
    simp [advance_instances, hbeside.world.instances rfl]

theorem Beside.foldl_advance {first second : create_locals} (hbeside : Beside first second) (changes : List change_t) :
    Beside (changes.foldl ietf_interface.advance first) (changes.foldl ietf_interface.advance second) := by
  induction changes generalizing first second with
  | nil => exact hbeside
  | cons change changes ih => exact ih (hbeside.advance change)

theorem Beside.commit (env : Env) {first second : create_locals} (hbeside : Beside first second) :
    AlikeOn .interfaces (create_leave (create_commit env first)) (create_leave (create_commit env second)) := by
  have hinstances := hbeside.world.instances rfl
  have hpending : pending first = pending second := by
    have hattrs : ∀ intf : intf_ptr, intf.attrs first.world = intf.attrs second.world := by
      intro intf
      cases intf <;> simp [intf_ptr.attrs, hinstances]
    simp [pending, hbeside.create, hbeside.builder, hbeside.modify, hbeside.intf, hattrs]
  have hdropped : dropped first = dropped second := by
    simp [dropped, hbeside.create, hbeside.modify, hbeside.remove, hbeside.builder]
  obtain ⟨hom, hmoved, -⟩ := create_commit_world env first
  obtain ⟨hom', hmoved', -⟩ := create_commit_world env second
  constructor
  · rw [(create_commit_calls env first).1, (create_commit_calls env second).1, hpending, hbeside.create,
      hbeside.modify, hbeside.writes]
  · refine agrees_interfaces ?_ ?_
    · rw [hom, hom', hpending, hdropped, hbeside.writes]
      split
      · split
        · exact hbeside.world.om.write _ _ _
        · exact hbeside.world.om
      · split
        · exact hbeside.world.om.remove _
        · exact hbeside.world.om
    · rw [hmoved, hmoved', hpending, hbeside.writes, hinstances]

/-- A loop that goes round with the changes that are fine in a state of OM, and
    ends at the first that is not. -/
structure Goes (env : Env) (run : create_locals → List change_t → cb_result) (fine : Om → change_t → Bool)
    (refusal : change_t → Except fault_t sr_error_t) : Prop where
  accepted : ∀ start changes, (∀ change ∈ changes, fine start.world.om change = true) →
    run start changes = create_leave (create_commit env (changes.foldl advance start))
  refused : ∀ start before change after, (∀ earlier ∈ before, fine start.world.om earlier = true) →
    fine start.world.om change = false →
    (run start (before ++ change :: after)).outcome = refusal change ∧
      (run start (before ++ change :: after)).world.Same (before.foldl advance start).world

theorem create_goes (env : Env) : Goes env (create_run env) (accepts env) refusal where
  accepted start _ haccepts := create_run_accepted env start haccepts
  refused start _ _ after haccepts hrefused :=
    have hrun := create_run_refused env start after haccepts hrefused
    ⟨hrun.1, hrun.2.1⟩

theorem config_goes (env : Env) : Goes env (openconfig_interfaces.config_run env) (openconfig_interfaces.shared env)
    openconfig_interfaces.config_refusal where
  accepted start _ hshared := openconfig_interfaces.config_run_shared env start hshared
  refused start _ _ after hshared hnot :=
    have hrun := openconfig_interfaces.config_run_left env start after hshared hnot
    ⟨hrun.1, hrun.2.1⟩

variable {env : Env} {run : create_locals → List change_t → cb_result} {fine : Om → change_t → Bool}
  {refusal : change_t → Except fault_t sr_error_t}

theorem Goes.alike (hgoes : Goes env run fine refusal) {first second : create_locals} (hbeside : Beside first second)
    (hfine : fine first.world.om = fine second.world.om) (changes : List change_t) :
    AlikeOn .interfaces (run first changes) (run second changes) := by
  rcases accepted_or_split (fine first.world.om) changes with hall | ⟨before, change, after, rfl, hbefore, hnot⟩
  · rw [hgoes.accepted first changes hall, hgoes.accepted second changes (by rwa [← hfine])]
    exact (hbeside.foldl_advance changes).commit env
  · obtain ⟨hends, hsame⟩ := hgoes.refused first before change after hbefore hnot
    obtain ⟨hends', hsame'⟩ := hgoes.refused second before change after (by rwa [← hfine]) (by rwa [← hfine])
    refine ⟨hends.trans hends'.symm, ?_⟩
    exact (agrees_of_same _ hsame).trans ((hbeside.foldl_advance before).world.trans (agrees_of_same _ hsame'.symm))

/-- A change gives an interface callback a name to create, delete or set. -/
def Names (change : change_t) (name : String) : Prop :=
  named change = some name ∨ ∃ state, sets change = some (name, state)

/-- No interface is named by a number. -/
def Numberless (changes : List change_t) : Prop :=
  ∀ change ∈ changes, ∀ name, Names change name → side_t.interfaces.keys name

theorem latest_named_numberless {changes : List change_t} (hnames : Numberless changes) :
    side_t.interfaces.keys (latest named "" changes) :=
  latest_keeps side_t.interfaces.keys interfaces_empty fun change hmem name hnamed =>
    hnames change hmem name (.inl hnamed)

theorem written_numberless {uninit : Uninit} {w : World} {changes : List change_t} (hnames : Numberless changes)
    {key : String} {attrs : interface_attrs} (hwritten : written uninit w changes = some (key, attrs)) :
    side_t.interfaces.keys key := by
  have hset : ∀ set, lastSet changes = some set → side_t.interfaces.keys set.1 := by
    refine latest_keeps (fun last => ∀ set : String × admin_state_t, last = some set → side_t.interfaces.keys set.1)
      (fun _ hnone => nomatch hnone) ?_
    rintro change hmem _ hsets set rfl
    obtain ⟨found, hfound, ⟨⟩⟩ := Option.map_eq_some_iff.mp hsets
    exact hnames change hmem set.1 (.inr ⟨set.2, hfound⟩)
  unfold written at hwritten
  split at hwritten
  · unfold interface_builder.build at hwritten
    split at hwritten
    · cases hwritten
    · obtain ⟨rfl, -⟩ := Prod.mk.inj (Option.some.inj hwritten)
      exact latest_named_numberless hnames
  · obtain ⟨set, hlast, heq⟩ := Option.map_eq_some_iff.mp hwritten
    obtain ⟨rfl, -⟩ := Prod.mk.inj heq
    exact hset set hlast

theorem commit_leaves (env : Env) {l : create_locals}
    (hpending : ∀ key attrs, pending l = some (key, attrs) → side_t.interfaces.keys key)
    (hdropped : ∀ name, dropped l = some name → side_t.interfaces.keys name) :
    Leaves .mappings l.world (create_leave (create_commit env l)).world := by
  obtain ⟨hom, -, htable⟩ := create_commit_world env l
  cases hwritten : pending l with
  | some written =>
    obtain ⟨key, attrs⟩ := written
    have houtside := not_mappings_of_interfaces (hpending key attrs hwritten)
    by_cases hwrite : env.write_rc l.world.writes = .OK
    · simp only [hwritten, if_pos hwrite] at hom
      refine ⟨agrees_mappings ?_ htable, fun hsorted => ?_⟩
      · rw [hom]
        exact Store.sameOn_write houtside _ _
      · rw [hom]
        exact hsorted.write fun hnumber => absurd hnumber houtside
    · exact leaves_of_same _ (create_commit_failed env hwritten hwrite).2.1
  | none =>
    cases hremoved : dropped l with
    | some name =>
      have houtside := not_mappings_of_interfaces (hdropped name hremoved)
      simp only [hwritten, hremoved] at hom
      refine ⟨agrees_mappings ?_ htable, fun hsorted => ?_⟩
      · rw [hom]
        exact Store.sameOn_remove houtside
      · rw [hom]
        exact hsorted.remove name
    | none =>
      simp only [hwritten, hremoved] at hom
      refine ⟨agrees_mappings ?_ htable, fun hsorted => ?_⟩
      · rw [hom]
        exact .refl _ _
      · rwa [hom]

/-- The loop moves no more than the states of interfaces. -/
theorem foldl_leaves (l : create_locals) (changes : List change_t) :
    Leaves .mappings l.world (changes.foldl advance l).world where
  agrees := by
    refine agrees_mappings ?_ (foldl_advance_table l changes)
    rw [foldl_advance_om]
    exact .refl _ _
  sorted hsorted := by rwa [foldl_advance_om]

theorem Goes.leaves (hgoes : Goes env run fine refusal) {uninit : Uninit} {w : World} {start : create_locals}
    (hstart : Starts uninit w start) {changes : List change_t} (hnames : Numberless changes) :
    Leaves .mappings w (run start changes).world := by
  have hloop (before : List change_t) : Leaves .mappings w (before.foldl advance start).world :=
    hstart.world ▸ foldl_leaves start before
  rcases accepted_or_split (fine start.world.om) changes with hall | ⟨before, change, after, rfl, hbefore, hnot⟩
  · rw [hgoes.accepted start changes hall]
    refine (hloop changes).trans (commit_leaves env ?_ ?_)
    · intro key attrs hpending
      rw [pending_eq_written hstart] at hpending
      exact written_numberless hnames hpending
    · intro name hdropped
      unfold dropped at hdropped
      split at hdropped
      · cases hdropped
      · obtain rfl := Option.some.inj hdropped
        rw [builder_of_foldl hstart]
        exact latest_named_numberless hnames
  · exact (hloop before).trans (leaves_of_same _ (hgoes.refused start before change after hbefore hnot).2)

end interfaces

section addresses

variable {env : Env}

/-- States in which the same requests are served alike. -/
structure Level (first second : Om × Nat) : Prop where
  om : first.1.SameOn side_t.interfaces.keys second.1
  writes : first.2 = second.2
  first_sorted : Sorted first.1
  second_sorted : Sorted second.1

theorem serve_sorted {state : Om × Nat} (hsorted : Sorted state.1) (request : request_t) :
    Sorted (request.serve env state).1 := by
  simp only [request_t.serve, request_t.operation]
  cases request.reaches env state with
  | none => exact hsorted
  | some pfx =>
    have houtside := not_mappings_of_interfaces (interfaces_KEY env.text request.if_name pfx)
    by_cases hadd : request.add = true
    · by_cases hwrite : env.write_rc state.2 = .OK
      · simp only [hadd, hwrite, if_true, Option.elim_some]
        exact hsorted.write fun hnumber => absurd hnumber houtside
      · simp only [hadd, hwrite, if_true, if_false, Option.elim_none]
        exact hsorted
    · simp only [hadd]
      exact hsorted.remove _

/-- Requests are served under the keys of bindings, which no mapping has. -/
theorem serve_leaves (state : Om × Nat) (request : request_t) :
    (request.serve env state).1.SameOn side_t.mappings.keys state.1 := by
  simp only [request_t.serve, request_t.operation]
  cases request.reaches env state with
  | none => exact .refl _ _
  | some pfx =>
    have houtside := not_mappings_of_interfaces (interfaces_KEY env.text request.if_name pfx)
    by_cases hadd : request.add = true
    · by_cases hwrite : env.write_rc state.2 = .OK
      · simp only [hadd, hwrite, if_true, Option.elim_some]
        exact Store.sameOn_write houtside _ _
      · simp only [hadd, hwrite, if_true, if_false, Option.elim_none]
        exact .refl _ _
    · simp only [hadd]
      exact Store.sameOn_remove houtside

variable (hcounts : env.Counts)

include hcounts

theorem Level.reaches {first second : Om × Nat} (hlevel : Level first second) (request : request_t) :
    request.reaches env first = request.reaches env second := by
  rw [request_t.reaches, request_t.reaches, alive_eq hcounts hlevel.om hlevel.first_sorted hlevel.second_sorted]

theorem Level.operation {first second : Om × Nat} (hlevel : Level first second) (request : request_t) :
    request.operation env first = request.operation env second := by
  rw [request_t.operation, request_t.operation, hlevel.reaches hcounts, hlevel.writes]

theorem Level.serve {first second : Om × Nat} (hlevel : Level first second) (request : request_t) :
    Level (request.serve env first) (request.serve env second) where
  om := by
    rw [request_t.serve, request_t.serve, hlevel.operation hcounts]
    cases request.operation env second with
    | none => exact hlevel.om
    | some op =>
      cases op with
      | write key obj => exact hlevel.om.write _ key obj
      | remove key => exact hlevel.om.remove key
  writes := by rw [request_t.serve, request_t.serve, hlevel.reaches hcounts, hlevel.writes]
  first_sorted := serve_sorted hlevel.first_sorted request
  second_sorted := serve_sorted hlevel.second_sorted request

theorem Level.foldl_serve {first second : Om × Nat} (hlevel : Level first second) (requests : List request_t) :
    Level (requests.foldl (request_t.serve env) first) (requests.foldl (request_t.serve env) second) := by
  induction requests generalizing first second with
  | nil => exact hlevel
  | cons request requests ih => exact ih (hlevel.serve hcounts request)

theorem Level.codes {first second : World} (hlevel : Level (first.om, first.writes) (second.om, second.writes))
    (requests : List request_t) : codes env first requests = codes env second requests := by
  induction requests generalizing first second with
  | nil => rfl
  | cons request requests ih =>
    have hserved := config_served env request first
    have hserved' := config_served env request second
    have halive : env.alive first.om = env.alive second.om :=
      alive_eq hcounts hlevel.om hlevel.first_sorted hlevel.second_sorted
    have hnext := hlevel.serve hcounts request
    rw [ietf_interface.codes, ietf_interface.codes, call_code, call_code, hlevel.operation hcounts, halive]
    congr 1
    refine ih ?_
    rw [request_t.call, request_t.call, hserved.om, hserved.writes, hserved'.om, hserved'.writes]
    exact hnext

/-- Whatever changes the loop goes through, it ends alike, and in states that its
    side cannot tell apart. -/
theorem address_run_alike {first second : World} (hlevel : Level (first.om, first.writes) (second.om, second.writes))
    (hinstances : first.instances = second.instances) (changes : List change_t) :
    AlikeOn .interfaces
      (address_leave (changes.foldlM (address_round env) { iter := .obtained, world := first }))
      (address_leave (changes.foldlM (address_round env) { iter := .obtained, world := second })) := by
  have hserved := foldlM_served env { iter := .obtained, world := first } changes
  have hserved' := foldlM_served env { iter := .obtained, world := second } changes
  constructor
  · rw [address_run_outcome, address_run_outcome]
    have hcodes := hlevel.codes hcounts (requests env {} changes)
    simp only [address_locals.memory] at hcodes ⊢
    rw [hcodes]
  · refine agrees_interfaces ?_ (hserved.instances.trans (hinstances.trans hserved'.instances.symm))
    rw [hserved.om, hserved'.om]
    exact (hlevel.foldl_serve hcounts _).om

omit hcounts in
theorem foldl_serve_leaves (state : Om × Nat) (requests : List request_t) :
    (requests.foldl (request_t.serve env) state).1.SameOn side_t.mappings.keys state.1 ∧
      (Sorted state.1 → Sorted (requests.foldl (request_t.serve env) state).1) := by
  induction requests generalizing state with
  | nil => exact ⟨.refl _ _, id⟩
  | cons request requests ih =>
    obtain ⟨hsame, hsorted⟩ := ih (request.serve env state)
    exact ⟨hsame.trans (serve_leaves state request), fun hbefore => hsorted (serve_sorted hbefore request)⟩

omit hcounts in
theorem address_run_leaves (w : World) (changes : List change_t) :
    Leaves .mappings w
      (address_leave (changes.foldlM (address_round env) { iter := .obtained, world := w })).world := by
  have hserved := foldlM_served env { iter := .obtained, world := w } changes
  obtain ⟨hsame, hsorted⟩ := @foldl_serve_leaves env (w.om, w.writes) (requests env {} changes)
  exact ⟨agrees_mappings (hserved.om ▸ hsame) hserved.table, fun hbefore => hserved.om ▸ hsorted hbefore⟩

end addresses

section mappings

open ietf_nat

variable {env : Env} {uninit : Uninit}

theorem nat_commit_leaves (l : nat_locals) : Leaves .interfaces l.world (nat_leave (nat_commit env l)).world := by
  have houtside := not_interfaces_KEY l.xindex
  cases hcreate : l.create with
  | true =>
    cases hmapping : l.builder.mapping with
    | none => exact leaves_of_same _ (nat_commit_rejected env hcreate hmapping).2
    | some pair =>
      by_cases hwrite : env.write_rc l.world.writes = .OK
      · obtain ⟨-, hom, -, hinstances⟩ := nat_commit_written env hcreate hmapping hwrite
        refine ⟨agrees_interfaces ?_ hinstances, fun hsorted => ?_⟩
        · rw [hom]
          exact Store.sameOn_write houtside _ _
        · rw [hom]
          exact hsorted.write fun _ => ⟨pair.1, pair.2, rfl⟩
      · exact leaves_of_same _ (nat_commit_failed env hcreate hmapping hwrite).2
  | false =>
    cases hremove : l.remove with
    | true =>
      obtain ⟨-, hom, -, hinstances⟩ := nat_commit_removed env hcreate hremove
      refine ⟨agrees_interfaces ?_ hinstances, fun hsorted => ?_⟩
      · rw [hom]
        exact Store.sameOn_remove houtside
      · rw [hom]
        exact hsorted.remove _
    | false => exact leaves_of_same _ (nat_commit_nothing env hcreate hremove).2

theorem nat_cb_leaves (w : World) (changes : List change_t) :
    Leaves .interfaces w (nat_mapping_table_config_cb env uninit (verify changes) w).world := by
  rcases accepted_or_split (ietf_nat.accepts env.text) changes with
    haccepts | ⟨before, change, after, rfl, haccepts, hrefused⟩
  · rw [nat_cb_accepted haccepts, ← ended]
    exact (leaves_of_same _ (ended_same env uninit w changes)).trans (nat_commit_leaves _)
  · exact leaves_of_same _ (nat_cb_refused haccepts hrefused).2.1

theorem nat_commit_alike {first second : nat_locals} (hcreate : first.create = second.create)
    (hremove : first.remove = second.remove) (hxindex : first.xindex = second.xindex)
    (hmapping : first.builder.mapping = second.builder.mapping) (hwrites : first.world.writes = second.world.writes)
    (hagrees : Agrees .mappings first.world second.world) :
    AlikeOn .mappings (nat_leave (nat_commit env first)) (nat_leave (nat_commit env second)) := by
  constructor
  · rw [(nat_commit_calls env first).1, (nat_commit_calls env second).1, hcreate, hmapping, hwrites]
  · cases hflag : second.create with
    | true =>
      cases hbuilt : second.builder.mapping with
      | none =>
        have hsame := (nat_commit_rejected env (hcreate.trans hflag) (hmapping.trans hbuilt)).2
        have hsame' := (nat_commit_rejected env hflag hbuilt).2
        exact (agrees_of_same _ hsame).trans (hagrees.trans (agrees_of_same _ hsame'.symm))
      | some pair =>
        by_cases hwrite : env.write_rc second.world.writes = .OK
        · obtain ⟨-, hom, htable, -⟩ := nat_commit_written env (hcreate.trans hflag) (hmapping.trans hbuilt)
            (by rwa [hwrites])
          obtain ⟨-, hom', htable', -⟩ := nat_commit_written env hflag hbuilt hwrite
          refine agrees_mappings ?_ (by rw [htable, htable', hxindex, hagrees.table rfl])
          rw [hom, hom', hxindex]
          exact hagrees.om.write _ _ _
        · have hsame := (nat_commit_failed env (hcreate.trans hflag) (hmapping.trans hbuilt) (by rwa [hwrites])).2
          have hsame' := (nat_commit_failed env hflag hbuilt hwrite).2
          exact (agrees_of_same _ hsame).trans (hagrees.trans (agrees_of_same _ hsame'.symm))
    | false =>
      cases hdrops : second.remove with
      | true =>
        obtain ⟨-, hom, htable, -⟩ := nat_commit_removed env (hcreate.trans hflag) (hremove.trans hdrops)
        obtain ⟨-, hom', htable', -⟩ := nat_commit_removed env hflag hdrops
        refine agrees_mappings ?_ (by rw [htable, htable', hxindex, hagrees.table rfl])
        rw [hom, hom', hxindex]
        exact hagrees.om.remove _
      | false =>
        have hsame := (nat_commit_nothing env (hcreate.trans hflag) (hremove.trans hdrops)).2
        have hsame' := (nat_commit_nothing env hflag hdrops).2
        exact (agrees_of_same _ hsame).trans (hagrees.trans (agrees_of_same _ hsame'.symm))

/-- The NAT callback reads nothing but mappings. -/
theorem nat_cb_alike {first second : World} (hagrees : Agrees .mappings first second)
    (hwrites : first.writes = second.writes) (changes : List change_t) :
    AlikeOn .mappings (nat_mapping_table_config_cb env uninit (verify changes) first)
      (nat_mapping_table_config_cb env uninit (verify changes) second) := by
  rcases accepted_or_split (ietf_nat.accepts env.text) changes with
    haccepts | ⟨before, change, after, rfl, haccepts, hrefused⟩
  · rw [nat_cb_accepted haccepts, nat_cb_accepted haccepts, ← ended, ← ended]
    have hsame := ended_same env uninit first changes
    have hsame' := ended_same env uninit second changes
    have hworlds := (agrees_of_same .mappings hsame).trans (hagrees.trans (agrees_of_same _ hsame'.symm))
    refine nat_commit_alike ?_ ?_ ?_ ?_ ?_ hworlds
    · rw [ended_create, ended_create]
    · rw [ended_remove, ended_remove]
    · rw [ended_xindex, ended_xindex]
    · rw [ended_mapping, ended_mapping]
    · simpa [ended, loop_start, nat_start] using hwrites
  · obtain ⟨hends, hsame, -⟩ := @nat_cb_refused env uninit first before after change haccepts hrefused
    obtain ⟨hends', hsame', -⟩ := @nat_cb_refused env uninit second before after change haccepts hrefused
    exact ⟨hends.trans hends'.symm, (agrees_of_same _ hsame).trans (hagrees.trans (agrees_of_same _ hsame'.symm))⟩

end mappings

end sweetcomb
