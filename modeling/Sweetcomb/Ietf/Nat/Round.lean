import Sweetcomb.Ietf.Nat
import Sweetcomb.Loop

open loop

namespace sweetcomb.ietf_nat

/-- The mapping index that a change puts in `xindex`. -/
def indexed : change_t → Option UInt32
  | .created new_val => if sr_xpath_node_name_eq new_val.xpath "index" then some new_val.data.uint32_val else none
  | .deleted old_val => if sr_xpath_node_name_eq old_val.xpath "index" then some old_val.data.uint32_val else none
  | _ => none

def creates : change_t → Bool
  | .created new_val => sr_xpath_node_name_eq new_val.xpath "index"
  | _ => false

def removes : change_t → Bool
  | .deleted old_val => sr_xpath_node_name_eq old_val.xpath "index"
  | _ => false

/-- The mapping type that a change puts in the builder. -/
def typed : change_t → Option String
  | .created new_val => if sr_xpath_node_name_eq new_val.xpath "type" then some new_val.data.string_val else none
  | _ => none

/-- The prefix that a change puts in the builder through the setter of a leaf. -/
def reads (text : AddressText) (leaf : String) : change_t → Option utils_prefix_t
  | .created new_val =>
    if sr_xpath_node_name_eq new_val.xpath leaf then utils_prefix_t.make_prefix text new_val.data.string_val else none
  | _ => none

def address_leaves : List String :=
  ["internal-src-address", "external-src-address", "internal-dst-address", "external-dst-address"]

/-- The changes after which the loop goes on: entries are not modified or moved,
    and created prefixes can be read. -/
def accepts (text : AddressText) : change_t → Bool
  | .created new_val =>
    !address_leaves.any (sr_xpath_node_name_eq new_val.xpath) ||
      (utils_prefix_t.make_prefix text new_val.data.string_val).isSome
  | .deleted _ => true
  | _ => false

/-- The effect of one accepted round, variable by variable. -/
def advance (text : AddressText) (l : nat_locals) (change : change_t) : nat_locals where
  builder :=
    { m_type := (typed change).getD l.builder.m_type
      m_internal_src := (reads text "internal-src-address" change).getD l.builder.m_internal_src
      m_external_src := (reads text "external-src-address" change).getD l.builder.m_external_src
      m_internal_dest := (reads text "internal-dst-address" change).getD l.builder.m_internal_dest
      m_external_dest := (reads text "external-dst-address" change).getD l.builder.m_external_dest
      m_inside := l.builder.m_inside
      m_outside := l.builder.m_outside }
  ol := (l.world.receive change.old_val).1
  ne := ((l.world.receive change.old_val).2.receive change.new_val).1
  it := l.it
  xindex := (indexed change).getD l.xindex
  create := l.create || creates change
  remove := l.remove || removes change
  rc := l.rc
  world :=
    let (ol, w) := l.world.receive change.old_val
    let (ne, w) := w.receive change.new_val
    (w.sr_free_val ne).sr_free_val ol

theorem nat_round_accepted {env : Env} {l : nat_locals} {change : change_t}
    (haccepts : accepts env.text change = true) :
    nat_round env l change = .ok (advance env.text l change) := by
  cases change with
  | deleted old_val =>
    by_cases hindex : sr_xpath_node_name_eq old_val.xpath "index" = true <;>
      simp [nat_round, nat_switch, advance, indexed, creates, removes, typed, reads, hindex]
  | modified old_val new_val => simp [accepts] at haccepts
  | moved old_val new_val => simp [accepts] at haccepts
  | created new_val =>
    simp only [accepts, address_leaves, List.any_cons, List.any_nil, sr_xpath_node_name_eq_decide] at haccepts
    simp only [nat_round, nat_switch, advance, indexed, creates, removes, typed, reads,
      sr_xpath_node_name_eq_decide, change_t.op, change_t.old_val, change_t.new_val]
    by_cases hindex : leaf_name new_val.xpath = some "index"
    · simp [hindex]
    by_cases htype : leaf_name new_val.xpath = some "type"
    · simp [htype, nat_static_builder.set_type]
    by_cases haddress : leaf_name new_val.xpath = some "internal-src-address" ∨
        leaf_name new_val.xpath = some "external-src-address" ∨
        leaf_name new_val.xpath = some "internal-dst-address" ∨
        leaf_name new_val.xpath = some "external-dst-address"
    · cases hprefix : utils_prefix_t.make_prefix env.text new_val.data.string_val with
      | none => rcases haddress with hleaf | hleaf | hleaf | hleaf <;> simp [hleaf, hprefix] at haccepts
      | some pfx =>
        rcases haddress with hleaf | hleaf | hleaf | hleaf <;>
          simp [hleaf, hprefix, nat_set, nat_static_builder.set_internal_src, nat_static_builder.set_external_src,
            nat_static_builder.set_internal_dest, nat_static_builder.set_external_dest]
    · simp only [not_or] at haddress
      simp [hindex, htype, haddress]

/-- How the callback ends at a change that is not accepted. -/
def refusal : change_t → Except fault_t sr_error_t
  | .created _ => .error .uncaught_exception
  | _ => .ok .SR_ERR_UNSUPPORTED

theorem refusal_ne_ok (change : change_t) : refusal change ≠ .ok .SR_ERR_OK := by
  cases change <;> simp [refusal]

/-- The variables once the values of a change have been received. -/
def nat_locals.receive (l : nat_locals) (change : change_t) : nat_locals :=
  { l with
    ol := (l.world.receive change.old_val).1
    ne := ((l.world.receive change.old_val).2.receive change.new_val).1
    world := ((l.world.receive change.old_val).2.receive change.new_val).2 }

/-- At a change that is not accepted the loop is left, by the label or at once. -/
theorem nat_round_exit (env : Env) (l : nat_locals) {change : change_t} (hrefused : accepts env.text change = false) :
    (∃ rc, nat_round env l change = .error (.goto_error { l.receive change with rc }) ∧ refusal change = .ok rc) ∨
    ∃ fault, nat_round env l change = .error (.fault fault (l.receive change)) ∧ refusal change = .error fault := by
  cases change with
  | deleted old_val => simp [accepts] at hrefused
  | modified old_val new_val =>
    refine .inl ⟨.SR_ERR_UNSUPPORTED, ?_, rfl⟩
    simp [nat_round, nat_switch, nat_locals.receive]
  | moved old_val new_val =>
    refine .inl ⟨.SR_ERR_UNSUPPORTED, ?_, rfl⟩
    simp [nat_round, nat_switch, nat_locals.receive]
  | created new_val =>
    simp only [accepts, address_leaves, List.any_cons, List.any_nil, sr_xpath_node_name_eq_decide,
      Bool.or_eq_false_iff, Bool.not_eq_false', Bool.or_eq_true, decide_eq_true_eq, Bool.false_eq_true,
      or_false, Option.isSome_eq_false_iff, Option.isNone_iff_eq_none] at hrefused
    obtain ⟨haddress, hprefix⟩ := hrefused
    rcases haddress with hleaf | hleaf | hleaf | hleaf
    all_goals
      refine .inr ⟨.uncaught_exception, ?_, rfl⟩
      simp [nat_round, nat_switch, sr_xpath_node_name_eq_decide, hleaf, hprefix, nat_set, nat_locals.receive,
        nat_static_builder.set_internal_src, nat_static_builder.set_external_src,
        nat_static_builder.set_internal_dest, nat_static_builder.set_external_dest]

/-- A change that is not accepted leaves the callback, without a trace. -/
theorem nat_round_refused (env : Env) (l : nat_locals) {change : change_t}
    (hrefused : accepts env.text change = false) :
    ∃ exit, nat_round env l change = .error exit ∧
      (nat_leave (.error exit)).outcome = refusal change ∧
      (nat_leave (.error exit)).world.Same l.world ∧
      (nat_leave (.error exit)).world.calls = l.world.calls := by
  rcases nat_round_exit env l hrefused with ⟨rc, hround, hends⟩ | ⟨fault, hround, hends⟩
  · refine ⟨_, hround, hends.symm, ⟨?_, ?_, ?_⟩, ?_⟩ <;> simp [nat_leave, nat_locals.receive]
  · refine ⟨_, hround, hends.symm, ⟨?_, ?_, ?_⟩, ?_⟩ <;> simp [nat_leave, nat_locals.receive]

end sweetcomb.ietf_nat
