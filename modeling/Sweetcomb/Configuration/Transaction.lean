import Sweetcomb.Configuration.Run
import Sweetcomb.TwoPhase

open datastore keyed_store runs two_phase sweetcomb.ietf_interface

namespace sweetcomb

/-- The edits of a commit in each model. -/
def interface_edits (edits : List config_edit_t) : List (edit String Bool) :=
  edits.filterMap fun
    | .interface e => some e
    | _ => none

def address_edits (edits : List config_edit_t) : List address_edit :=
  edits.filterMap fun
    | .address e => some e
    | _ => none

def mapping_edits (edits : List config_edit_t) : List ietf_nat.mapping_edit :=
  edits.filterMap fun
    | .mapping e => some e
    | _ => none

/-- The edits of one commit over all models: each entry is edited at most once,
    from what is configured. -/
structure configuration_t.Commits (cfg : configuration_t) (edits : List config_edit_t) : Prop where
  interfaces : datastore.Commits cfg.interfaces (interface_edits edits)
  addresses : datastore.Commits cfg.addresses (address_edits edits)
  mappings : datastore.Commits cfg.mappings (mapping_edits edits)

def config_edit_t.Applies (cfg : configuration_t) : config_edit_t → Prop
  | .interface e => e.Applies cfg.interfaces
  | .address e => e.Applies cfg.addresses
  | .mapping e => e.Applies cfg.mappings

section commits

variable {cfg : configuration_t} {e : config_edit_t} {edits : List config_edit_t}

theorem configuration_t.Commits.head (hcommits : cfg.Commits (e :: edits)) : e.Applies cfg := by
  cases e with
  | interface e => exact hcommits.interfaces.applies e (by simp [interface_edits])
  | address e => exact hcommits.addresses.applies e (by simp [address_edits])
  | mapping e => exact hcommits.mappings.applies e (by simp [mapping_edits])

theorem configuration_t.Commits.tail (hcommits : cfg.Commits (e :: edits)) : (e.apply cfg).Commits edits := by
  obtain ⟨hinterfaces, haddresses, hmappings⟩ := hcommits
  cases e with
  | interface e => exact ⟨hinterfaces.tail, haddresses, hmappings⟩
  | address e => exact ⟨hinterfaces, haddresses.tail, hmappings⟩
  | mapping e => exact ⟨hinterfaces, haddresses, hmappings.tail⟩

/-- The edits of each model act on its own datastore. -/
theorem foldl_apply (cfg : configuration_t) (edits : List config_edit_t) :
    edits.foldl config_edit_t.apply cfg =
      { interfaces := applyAll cfg.interfaces (interface_edits edits)
        addresses := applyAll cfg.addresses (address_edits edits)
        mappings := applyAll cfg.mappings (mapping_edits edits) } := by
  induction edits generalizing cfg with
  | nil => rfl
  | cons e edits ih =>
    rw [List.foldl_cons, ih]
    cases e <;> rfl

end commits

/-- One of those that a commit is put to: the callback of a model of the plugin,
    for one edit, or another subscriber with its answer. -/
inductive asked_t where
  | own (p : part_t)
  | other (agrees : Bool)

def asked_t.edit : asked_t → Option config_edit_t
  | .own p => some p.edit
  | .other _ => none

/-- The call that tells a callback how the commit has ended. -/
def part_t.notify (env : Env) (event : sr_notif_event_t) (p : part_t) (w : World) : World :=
  (p.edit.subscriber.call env p.uninit { event, changes := p.changes } w).world

/-- Commits as they reach the plugin, between other subscribers. -/
def plugin_protocol (env : Env) : Protocol World asked_t where
  verify w
    | .own p => (p.verify env w).world
    | .other _ => w
  agrees w
    | .own p => decide ((p.verify env w).outcome = .ok .SR_ERR_OK)
    | .other agrees => agrees
  apply w
    | .own p => p.notify env .SR_EV_APPLY w
    | .other _ => w
  abort w
    | .own p => p.notify env .SR_EV_ABORT w
    | .other _ => w

open Classical in
/-- The same commits over the configuration that the plugin has taken over. An
    abort takes nothing back. -/
noncomputable def configuration_protocol : Protocol configuration_t asked_t where
  verify cfg
    | .own p => if p.edit.Admitted cfg then p.edit.apply cfg else cfg
    | .other _ => cfg
  agrees cfg
    | .own p => decide (p.edit.Admitted cfg)
    | .other agrees => agrees
  apply cfg _ := cfg
  abort cfg _ := cfg

theorem verify_of_admitted {cfg : configuration_t} {p : part_t} (hadmitted : p.edit.Admitted cfg) :
    configuration_protocol.verify cfg (.own p) = p.edit.apply cfg := if_pos hadmitted

theorem verify_of_refused {cfg : configuration_t} {p : part_t} (hrefused : ¬ p.edit.Admitted cfg) :
    configuration_protocol.verify cfg (.own p) = cfg := if_neg hrefused

theorem configuration_agrees_iff {cfg : configuration_t} {p : part_t} :
    configuration_protocol.agrees cfg (.own p) = true ↔ p.edit.Admitted cfg := by
  simp [configuration_protocol]

/-- The changes are those that sysrepo delivers for the edit. -/
def part_t.Listed (env : Env) (p : part_t) : Prop :=
  match p.edit with
  | .interface e => p.changes.Perm (interface_changes e) ∧ p.uninit.Cleared ∧ Plain env.text e.key ∧ e.key ≠ ""
  | .address e => p.changes = address_changes env.text e
  | .mapping e => p.changes.Perm (ietf_nat.mapping_changes env.text e) ∧ p.uninit.Cleared

theorem delivered_of_listed {env : Env} {cfg : configuration_t} {p : part_t} (hlisted : p.Listed env)
    (happlies : p.edit.Applies cfg) : p.Delivered env cfg := by
  obtain ⟨e, changes, uninit⟩ := p
  cases e with
  | interface e =>
    obtain ⟨hdelivers, hcleared, hown⟩ := hlisted
    have happlies : e.Applies cfg.interfaces := happlies
    exact ⟨⟨⟨by simp, by simpa using happlies⟩, by simpa using hdelivers, hcleared⟩, hown⟩
  | address e => exact ⟨hlisted, happlies⟩
  | mapping e =>
    obtain ⟨hdelivers, hcleared⟩ := hlisted
    have happlies : e.Applies cfg.mappings := happlies
    exact ⟨⟨by simp, by simpa using happlies⟩, by simpa using hdelivers, hcleared⟩

/-- Being told how a commit has ended leaves no trace. -/
theorem notify_same (env : Env) (p : part_t) (w : World) :
    (p.notify env .SR_EV_APPLY w).Same w ∧ (p.notify env .SR_EV_ABORT w).Same w := by
  refine ⟨?_, p.edit.subscriber.abort_same env p.uninit .SR_ERR_OK p.changes w⟩
  obtain ⟨e, changes, uninit⟩ := p
  cases e <;> exact .refl w

def own_edits (asked : List asked_t) : List config_edit_t :=
  asked.filterMap asked_t.edit

/-- The datastores take the edits of a commit that all agree to. -/
def transaction_step (env : Env) (state : World × configuration_t) (asked : List asked_t) :
    World × configuration_t :=
  let result := (plugin_protocol env).commit state.1 asked
  (result.1, if result.2 then (own_edits asked).foldl config_edit_t.apply state.2 else state.2)

/-- A commit as sysrepo puts it to the plugin, of edits that are carried over as
    far as the plugin is asked. Each callback is called for one edit. -/
structure Proposed (env : Env) (state : World × configuration_t) (asked : List asked_t) : Prop where
  listed : ∀ p, .own p ∈ asked → p.Listed env
  single : ((own_edits asked).map config_edit_t.subscriber).Nodup
  commits : state.2.Commits (own_edits asked)
  faithful : configuration_protocol.Throughout (fun cfg a => ∀ e, a.edit = some e → e.Faithful cfg) state.2 asked

/-- All agree, or the first to refuse does so before any edit has been verified by
    the plugin. -/
def Unharmed (cfg : configuration_t) (asked : List asked_t) : Prop :=
  (configuration_protocol.ask cfg asked).unanimous = true ∨
    own_edits (configuration_protocol.ask cfg asked).agreed = []

/-- The plugin has what is configured, and beside it at most addresses that are
    configured with the length zero. -/
def Tracks (env : Env) (w : World) (cfg : configuration_t) : Prop :=
  ∃ stale, Realises env w { cfg, stale }

/-- After the commit the plugin has what is then configured. -/
def TransactionInSync (env : Env) (state : World × configuration_t) (asked : List asked_t) : Prop :=
  Tracks env (transaction_step env state asked).1 (transaction_step env state asked).2

/-- The plugin has taken over the edits that it has verified. -/
theorem asked_state (cfg : configuration_t) (asked : List asked_t) :
    (configuration_protocol.ask cfg asked).state =
      (own_edits (configuration_protocol.ask cfg asked).agreed).foldl config_edit_t.apply cfg := by
  induction asked generalizing cfg with
  | nil => rfl
  | cons first rest ih =>
    cases first with
    | other agrees =>
      cases agrees with
      | true =>
        rw [ask_of_agrees configuration_protocol rfl]
        exact ih cfg
      | false =>
        rw [ask_of_refuses configuration_protocol rfl]
        rfl
    | own p =>
      by_cases hadmitted : p.edit.Admitted cfg
      · rw [ask_of_agrees configuration_protocol (configuration_agrees_iff.mpr hadmitted)]
        rw [verify_of_admitted hadmitted]
        exact ih _
      · have hrefuses : configuration_protocol.agrees cfg (.own p) = false := by
          rw [← Bool.not_eq_true, configuration_agrees_iff]
          exact hadmitted
        rw [ask_of_refuses configuration_protocol hrefuses]
        exact verify_of_refused hadmitted

/-- A mapping that is agreed to is not modified. -/
theorem unmodified_of_agreed {cfg : configuration_t} {asked : List asked_t} {e : ietf_nat.mapping_edit}
    (hmem : e ∈ mapping_edits (own_edits (configuration_protocol.ask cfg asked).agreed)) : e.modifies = false := by
  obtain ⟨edit, hedit, hsome⟩ := List.mem_filterMap.mp hmem
  obtain ⟨first, hfirst, hown⟩ := List.mem_filterMap.mp hedit
  cases edit with
  | interface e => cases hsome
  | address e => cases hsome
  | mapping mapping =>
    obtain rfl := Option.some.inj hsome
    cases first with
    | other agrees => cases hown
    | own p =>
      obtain ⟨before, hagrees⟩ := exists_agrees configuration_protocol hfirst
      have hadmitted : p.edit.Admitted before := configuration_agrees_iff.mp hagrees
      rw [Option.some.inj hown] at hadmitted
      exact hadmitted

theorem configuration_t.Commits.sublist {cfg : configuration_t} {edits part : List config_edit_t}
    (hcommits : cfg.Commits edits) (hsublist : part.Sublist edits) : cfg.Commits part :=
  ⟨hcommits.interfaces.sublist (hsublist.filterMap _), hcommits.addresses.sublist (hsublist.filterMap _),
    hcommits.mappings.sublist (hsublist.filterMap _)⟩

section holdings

variable {env : Env} {w : World} {h h' : holding_t} (hreal : Realises env w h) (hreal' : Realises env w h')

include hreal hreal'

/-- The bindings of an address tell its prefix length. -/
theorem addresses_of_held {entry : String × address} {len : UInt8} (hlen : h.cfg.addresses entry = some len) :
    h'.cfg.addresses entry = some len := by
  have hheld := held_address hlen
  rw [hreal.held_eq hreal'] at hheld
  obtain ⟨-, hother | ⟨hzero, hstale⟩⟩ := (held_binding_eq_some h').mp hheld
  · exact hother
  · -- the address has another length as well, which is zero
    obtain ⟨other, hother⟩ := Option.isSome_iff_exists.mp (hreal'.configured _ hstale)
    have hagain := held_address hother
    rw [← hreal.held_eq hreal'] at hagain
    obtain ⟨-, hsame | ⟨hnone, -⟩⟩ := (held_binding_eq_some h).mp hagain
    · exact hother.trans (hsame.symm.trans hlen)
    · have hlen_zero : len = 0 := hzero
      have hother_zero : other = 0 := hnone
      rw [hlen_zero, ← hother_zero]
      exact hother

/-- A state realises two configurations only when they agree but for the prefix
    lengths of mappings. -/
theorem alike_of_realises : h.cfg.interfaces = h'.cfg.interfaces ∧ h.cfg.addresses = h'.cfg.addresses ∧
    ∀ index, (h.cfg.mappings index).isSome = (h'.cfg.mappings index).isSome := by
  refine ⟨?_, ?_, fun index => ?_⟩
  · funext name
    have hname := congrFun (hreal.held_eq hreal') (.interface name)
    refine Option.map_injective (fun first second hsame => ?_) hname
    exact ethernet_injective (object.interface.inj hsame).2
  · funext entry
    ext len
    exact ⟨addresses_of_held hreal hreal', addresses_of_held hreal' hreal⟩
  · have htable := (hreal.table index).symm.trans (hreal'.table index)
    simpa using congrArg Option.isSome htable

end holdings

/-- The edits of a commit are not all lost on a state. -/
theorem not_tracks_of_taken {env : Env} {w : World} {cfg : configuration_t} {edits : List config_edit_t}
    (hcommits : cfg.Commits edits) (hunmodified : ∀ e ∈ mapping_edits edits, e.modifies = false)
    (htracks : Tracks env w (edits.foldl config_edit_t.apply cfg)) (hsome : edits ≠ []) : ¬ Tracks env w cfg := by
  rintro ⟨before, hbefore⟩
  obtain ⟨after, hreal⟩ := htracks
  obtain ⟨hinterfaces, haddresses, hmappings⟩ := alike_of_realises hreal hbefore
  rw [foldl_apply] at hinterfaces haddresses hmappings
  obtain ⟨e, he⟩ := List.exists_mem_of_ne_nil edits hsome
  cases e with
  | interface e =>
    have hmem : e ∈ interface_edits edits := List.mem_filterMap.mpr ⟨_, he, rfl⟩
    exact hcommits.interfaces.changes hmem (congrFun hinterfaces e.key)
  | address e =>
    have hmem : e ∈ address_edits edits := List.mem_filterMap.mpr ⟨_, he, rfl⟩
    exact hcommits.addresses.changes hmem (congrFun haddresses e.key)
  | mapping e =>
    have hmem : e ∈ mapping_edits edits := List.mem_filterMap.mpr ⟨_, he, rfl⟩
    exact hcommits.mappings.isSome_changes hmem (hunmodified e hmem) (hmappings e.key)

section step

variable {env : Env}

theorem Tracks.of_same {w after : World} {cfg : configuration_t} (htracks : Tracks env w cfg) (hsame : after.Same w) :
    Tracks env after cfg := by
  obtain ⟨stale, hreal⟩ := htracks
  exact ⟨stale, hreal.of_same hsame⟩

theorem foldl_apply_same (env : Env) (w : World) (asked : List asked_t) :
    (asked.foldl (plugin_protocol env).apply w).Same w := by
  induction asked generalizing w with
  | nil => exact .refl w
  | cons first rest ih =>
    refine (ih _).trans ?_
    cases first with
    | own p => exact (notify_same env p w).1
    | other agrees => exact .refl w

theorem foldl_abort_same (env : Env) (w : World) (asked : List asked_t) :
    (asked.foldl (plugin_protocol env).abort w).Same w := by
  induction asked generalizing w with
  | nil => exact .refl w
  | cons first rest ih =>
    refine (ih _).trans ?_
    cases first with
    | own p => exact (notify_same env p w).2
    | other agrees => exact .refl w

/-- What is asked of the plugin is delivered in the configuration that it has by
    then. -/
theorem throughout_delivered {cfg : configuration_t} {asked : List asked_t}
    (hlisted : ∀ p, .own p ∈ asked → p.Listed env) (hcommits : cfg.Commits (own_edits asked))
    (hfaithful : configuration_protocol.Throughout (fun cfg a => ∀ e, a.edit = some e → e.Faithful cfg) cfg asked) :
    configuration_protocol.Throughout (fun cfg a => ∀ p, a = .own p → p.Delivered env cfg ∧ p.edit.Faithful cfg)
      cfg asked := by
  induction asked generalizing cfg with
  | nil => trivial
  | cons first rest ih =>
    obtain ⟨hfirst, hrest⟩ := hfaithful
    have hlater : ∀ p, .own p ∈ rest → p.Listed env := fun p hmem => hlisted p (List.mem_cons_of_mem _ hmem)
    cases first with
    | other agrees =>
      have hcommits : cfg.Commits (own_edits rest) := hcommits
      have hsame : configuration_protocol.verify cfg (.other agrees) = cfg := rfl
      rw [hsame] at hrest
      refine ⟨fun p hown => absurd hown (by simp), fun hagrees => ?_⟩
      rw [hsame]
      exact ih hlater hcommits (hrest hagrees)
    | own p =>
      have hcommits : cfg.Commits (p.edit :: own_edits rest) := hcommits
      refine ⟨?_, fun hagrees => ?_⟩
      · rintro _ ⟨⟩
        exact ⟨delivered_of_listed (hlisted p (by simp)) hcommits.head, hfirst p.edit rfl⟩
      · rw [verify_of_admitted (configuration_agrees_iff.mp hagrees)] at hrest ⊢
        exact ih hlater hcommits.tail (hrest hagrees)

variable (hcounts : env.Counts) (hwrites : ∀ n, env.write_rc n = .OK)

include hcounts hwrites

theorem plugin_follows : Follows configuration_protocol (plugin_protocol env) (fun cfg w => Tracks env w cfg)
    (fun cfg a => ∀ p, a = .own p → p.Delivered env cfg ∧ p.edit.Faithful cfg) where
  agrees := by
    rintro cfg w asked ⟨stale, hreal⟩ hadmits
    cases asked with
    | other agrees => rfl
    | own p =>
      rw [Bool.eq_iff_iff, configuration_agrees_iff,
        ← (part_refines hcounts hwrites hreal (hadmits p rfl).1).agrees]
      simp [plugin_protocol]
  verify := by
    rintro cfg w asked ⟨stale, hreal⟩ hadmits
    cases asked with
    | other agrees => exact ⟨stale, hreal⟩
    | own p =>
      obtain ⟨hdelivered, hfaithful⟩ := hadmits p rfl
      have hafter := (part_refines hcounts hwrites hreal hdelivered).realises.mpr hfaithful
      by_cases hadmitted : p.edit.Admitted cfg
      · rw [verify_of_admitted hadmitted]
        rw [step_of_admitted hadmitted] at hafter
        exact ⟨_, hafter⟩
      · rw [verify_of_refused hadmitted]
        rw [step_of_refused hadmitted] at hafter
        exact ⟨stale, hafter⟩

/-- A refused commit leaves with the plugin what it has verified. -/
theorem transaction_inSync_iff {w : World} {cfg : configuration_t} (htracks : Tracks env w cfg) {asked : List asked_t}
    (hproposed : Proposed env (w, cfg) asked) : TransactionInSync env (w, cfg) asked ↔ Unharmed cfg asked := by
  obtain ⟨hlisted, -, hcommits, hfaithful⟩ := hproposed
  obtain ⟨hagreed, hunanimous, hstate⟩ := (plugin_follows hcounts hwrites).ask htracks
    (throughout_delivered hlisted hcommits hfaithful)
  rw [asked_state] at hstate
  rw [TransactionInSync, transaction_step, Unharmed]
  cases hall : (configuration_protocol.ask cfg asked).unanimous with
  | true =>
    rw [agreed_of_unanimous configuration_protocol hall] at hstate
    have hafter := hstate.of_same (foldl_apply_same env _ asked)
    rw [commit_of_unanimous (plugin_protocol env) (hunanimous.trans hall)]
    exact iff_of_true hafter (.inl rfl)
  | false =>
    have htaken : cfg.Commits (own_edits (configuration_protocol.ask cfg asked).agreed) :=
      hcommits.sublist ((agreed_sublist configuration_protocol cfg asked).filterMap _)
    have hafter := hstate.of_same (foldl_abort_same env _ ((plugin_protocol env).ask w asked).agreed)
    rw [commit_of_refused (plugin_protocol env) (hunanimous.trans hall), or_iff_right Bool.false_ne_true]
    constructor
    · intro hbefore
      by_contra hsome
      exact not_tracks_of_taken htaken (fun e he => unmodified_of_agreed he) hafter hsome hbefore
    · intro hnone
      rw [hnone] at hafter
      exact hafter

/-- Between other subscribers, the plugin has what is configured throughout
    exactly when no commit is refused once the plugin has verified an edit of
    it. -/
theorem transactions_inSync_throughout_iff {w : World} {cfg : configuration_t} (htracks : Tracks env w cfg)
    {commits : List (List asked_t)} (hproposed : Along (transaction_step env) (Proposed env) (w, cfg) commits) :
    Along (transaction_step env) (TransactionInSync env) (w, cfg) commits ↔
      Along (transaction_step env) (fun state asked => Unharmed state.2 asked) (w, cfg) commits :=
  along_iff_of_step (fun state : World × configuration_t => Tracks env state.1 state.2)
    (fun _ _ hstate hasked => transaction_inSync_iff hcounts hwrites hstate hasked) (fun _ _ _ _ hgood => hgood)
    htracks hproposed

end step

/-- A commit that creates an interface and that another subscriber refuses, before
    the plugin has been asked or after. -/
theorem refused_before_and_after :
    Along (transaction_step counting) (TransactionInSync counting) (World.empty, .empty)
        [[.other false, .own (part_of (.interface (.created "host-vpp1" true)))]] ∧
      ¬ Along (transaction_step counting) (TransactionInSync counting) (World.empty, .empty)
        [[.own (part_of (.interface (.created "host-vpp1" true))), .other false]] := by
  have hlisted : (part_of (.interface (.created "host-vpp1" true))).Listed counting :=
    ⟨.refl _, cleared_cleared, host_vpp1_plain, by decide⟩
  have hcommits : configuration_t.empty.Commits [.interface (.created "host-vpp1" true)] := by
    refine ⟨⟨by simp [interface_edits], fun e hmem => ?_⟩, ⟨.nil, nofun⟩, ⟨.nil, nofun⟩⟩
    obtain rfl : e = .created "host-vpp1" true := by simpa [interface_edits] using hmem
    exact ⟨rfl, nofun⟩
  have hadmitted : configuration_protocol.agrees .empty (.own (part_of (.interface (.created "host-vpp1" true)))) =
      true := by
    rw [configuration_agrees_iff]
    trivial
  have htracks : Tracks counting World.empty .empty := ⟨∅, realises_empty counting⟩
  constructor
  · have hproposed : Along (transaction_step counting) (Proposed counting) (World.empty, .empty)
        [[.other false, .own (part_of (.interface (.created "host-vpp1" true)))]] := by
      refine ⟨⟨?_, List.nodup_singleton _, hcommits, nofun, nofun⟩, trivial⟩
      rintro _ (_ | ⟨_, _ | ⟨_, hmem⟩⟩)
      · exact hlisted
      · cases hmem
    rw [transactions_inSync_throughout_iff counting_counts (fun _ => rfl) htracks hproposed]
    exact ⟨.inr (by rw [ask_of_refuses configuration_protocol rfl]; rfl), trivial⟩
  · have hproposed : Along (transaction_step counting) (Proposed counting) (World.empty, .empty)
        [[.own (part_of (.interface (.created "host-vpp1" true))), .other false]] := by
      refine ⟨⟨?_, List.nodup_singleton _, hcommits, ?_, fun _ => ⟨nofun, nofun⟩⟩, trivial⟩
      · rintro _ (_ | ⟨_, _ | ⟨_, hmem⟩⟩)
        · exact hlisted
        · cases hmem
      · rintro _ ⟨⟩
        trivial
    rw [transactions_inSync_throughout_iff counting_counts (fun _ => rfl) htracks hproposed]
    rintro ⟨hunharmed, -⟩
    rw [Unharmed, ask_of_agrees configuration_protocol hadmitted,
      ask_of_refuses configuration_protocol rfl] at hunharmed
    rcases hunharmed with hall | hnone
    · cases hall
    · cases hnone

end sweetcomb
