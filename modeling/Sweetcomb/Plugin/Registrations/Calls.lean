import Mathlib.Data.Finset.Card
import Sweetcomb.Plugin.Registrations

open linked_list

namespace sweetcomb.sc_init

variable {ι ρ : Type}

/-- The list in memory is made of the elements of these functions, in this order. -/
structure Listed (r : registrations_t ι) (fs : List ι) : Prop where
  chain : Chain r.next r.head fs
  func : ∀ f ∈ fs, (r.elt f).func = f

/-- Elements may have been marked, and nothing else has been done to them. -/
structure SameLinks (before after : registrations_t ι) : Prop where
  head : after.head = before.head
  next : after.next = before.next
  func : ∀ p, (after.elt p).func = (before.elt p).func

theorem SameLinks.refl (r : registrations_t ι) : SameLinks r r :=
  ⟨rfl, rfl, fun _ => rfl⟩

theorem SameLinks.trans {first second third : registrations_t ι} (hfirst : SameLinks first second)
    (hsecond : SameLinks second third) : SameLinks first third :=
  ⟨hsecond.head.trans hfirst.head, hsecond.next.trans hfirst.next, fun p => (hsecond.func p).trans (hfirst.func p)⟩

theorem Listed.of_same {before after : registrations_t ι} {fs : List ι} (hlisted : Listed before fs)
    (hsame : SameLinks before after) : Listed after fs := by
  refine ⟨?_, fun f hf => (hsame.func f).trans (hlisted.func f hf)⟩
  rw [hsame.next, hsame.head]
  exact hlisted.chain

/-- The functions whose bodies have been entered, in this order. -/
def entries (trace : List (event_t ι ρ)) : List ι :=
  trace.filterMap fun
    | .entered func => some func
    | _ => none

/-- The functions whose bodies have returned. -/
def returns (trace : List (event_t ι ρ)) : List ι :=
  trace.filterMap fun
    | .returned func _ => some func
    | _ => none

section traces

variable (first second : List (event_t ι ρ)) (caller func : ι) (code : ρ)

@[simp] theorem entries_nil : entries ([] : List (event_t ι ρ)) = [] := rfl
@[simp] theorem entries_append : entries (first ++ second) = entries first ++ entries second :=
  List.filterMap_append
@[simp] theorem entries_entered : entries (.entered func :: second) = func :: entries second := rfl
@[simp] theorem entries_returned : entries (.returned func code :: second) = entries second := rfl
@[simp] theorem entries_requested : entries (.requested caller func :: second) = entries second := rfl
@[simp] theorem entries_resumed : entries (.resumed caller func code :: second) = entries second := rfl

/-- A function is entered before all that its body has called. -/
theorem entries_call : entries (.entered func :: first ++ [.returned func code]) = func :: entries first := by
  simp

@[simp] theorem returns_nil : returns ([] : List (event_t ι ρ)) = [] := rfl
@[simp] theorem returns_append : returns (first ++ second) = returns first ++ returns second :=
  List.filterMap_append
@[simp] theorem returns_entered : returns (.entered func :: second) = returns second := rfl
@[simp] theorem returns_returned : returns (.returned func code :: second) = func :: returns second := rfl
@[simp] theorem returns_resumed : returns (.resumed caller func code :: second) = returns second := rfl

end traces

/-- What calls do to the registrations, with the events they add. Only listed
    functions that are not marked are entered, each once and to its end, and
    these are marked. -/
structure Served (fs : List ι) (before after : state_t ι ρ) (added : List (event_t ι ρ)) : Prop where
  trace : after.trace = before.trace ++ added
  links : SameLinks before.registrations after.registrations
  called : ∀ f, after.registrations.is_called f = true ↔
    before.registrations.is_called f = true ∨ f ∈ entries added
  fresh : ∀ f ∈ entries added, f ∈ fs ∧ before.registrations.is_called f = false
  once : (entries added).Nodup
  returned : ∀ f ∈ entries added, f ∈ returns added

section served

variable {fs : List ι} {before middle after : state_t ι ρ} {added first second : List (event_t ι ρ)}

theorem Served.refl (fs : List ι) (s : state_t ι ρ) : Served fs s s [] where
  trace := by simp
  links := .refl s.registrations
  called := by simp
  fresh := by simp
  once := by simp
  returned := by simp

theorem Served.trans (hfirst : Served fs before middle first) (hsecond : Served fs middle after second) :
    Served fs before after (first ++ second) where
  trace := by rw [hsecond.trace, hfirst.trace, List.append_assoc]
  links := hfirst.links.trans hsecond.links
  called := by
    intro f
    rw [hsecond.called, hfirst.called, entries_append, List.mem_append, or_assoc]
  fresh := by
    intro f hf
    rw [entries_append, List.mem_append] at hf
    cases hf with
    | inl hf => exact hfirst.fresh f hf
    | inr hf =>
      obtain ⟨hlisted, hunmarked⟩ := hsecond.fresh f hf
      refine ⟨hlisted, Bool.eq_false_iff.mpr fun hmarked => ?_⟩
      rw [(hfirst.called f).mpr (.inl hmarked)] at hunmarked
      cases hunmarked
  once := by
    rw [entries_append, List.nodup_append']
    refine ⟨hfirst.once, hsecond.once, fun f hf hagain => ?_⟩
    have hunmarked := (hsecond.fresh f hagain).2
    rw [(hfirst.called f).mpr (.inr hf)] at hunmarked
    cases hunmarked
  returned := by
    intro f hf
    rw [entries_append, List.mem_append] at hf
    rw [returns_append, List.mem_append]
    exact hf.imp (hfirst.returned f) (hsecond.returned f)

theorem served_requested (fs : List ι) (s : state_t ι ρ) (caller func : ι) :
    Served fs s (s.log (.requested caller func)) [.requested caller func] :=
  { Served.refl fs s with trace := rfl, called := by simp, fresh := by simp, once := by simp, returned := by simp }

theorem served_resumed (fs : List ι) (s : state_t ι ρ) (caller func : ι) (code : ρ) :
    Served fs s (s.log (.resumed caller func code)) [.resumed caller func code] :=
  { Served.refl fs s with trace := rfl, called := by simp, fresh := by simp, once := by simp, returned := by simp }

end served

variable [DecidableEq ι]

/-- How many functions of a list are not marked. -/
def uncalled (fs : List ι) (r : registrations_t ι) : Nat :=
  (fs.toFinset.filter fun f => r.is_called f = false).card

theorem uncalled_le_length (fs : List ι) (r : registrations_t ι) : uncalled fs r ≤ fs.length :=
  (Finset.card_filter_le _ _).trans (List.toFinset_card_le fs)

theorem Served.uncalled_le {fs : List ι} {before after : state_t ι ρ} {added : List (event_t ι ρ)}
    (hserved : Served fs before after added) :
    uncalled fs after.registrations ≤ uncalled fs before.registrations := by
  refine Finset.card_le_card fun f hf => ?_
  rw [Finset.mem_filter] at hf ⊢
  refine ⟨hf.1, Bool.eq_false_iff.mpr fun hmarked => ?_⟩
  rw [(hserved.called f).mpr (.inl hmarked)] at hf
  cases hf.2

section marking

variable (s : state_t ι ρ) (p : ι)

theorem mark_links : SameLinks s.registrations (s.mark p).registrations where
  head := rfl
  next := by
    rw [state_t.mark, registrations_t.set_next]
    exact Function.update_eq_self p s.registrations.next
  func := by
    intro q
    by_cases hq : q = p
    · subst hq
      simp [state_t.mark]
    · simp [state_t.mark, registrations_t.set_other _ p _ hq]

theorem mark_called (f : ι) :
    (s.mark p).registrations.is_called f = true ↔ s.registrations.is_called f = true ∨ f = p := by
  by_cases hf : f = p
  · subst hf
    simp [state_t.mark, registrations_t.is_called]
  · simp [state_t.mark, registrations_t.is_called, registrations_t.set_other _ p _ hf, hf]

theorem uncalled_mark_lt {fs : List ι} {p : ι} (hp : p ∈ fs) (hunmarked : s.registrations.is_called p = false) :
    uncalled fs (s.mark p).registrations < uncalled fs s.registrations := by
  refine Finset.card_lt_card (Finset.ssubset_iff_subset_ne.mpr ⟨fun f hf => ?_, fun heq => ?_⟩)
  · rw [Finset.mem_filter] at hf ⊢
    refine ⟨hf.1, Bool.eq_false_iff.mpr fun hmarked => ?_⟩
    rw [(mark_called s p f).mpr (.inl hmarked)] at hf
    cases hf.2
  · have hmem : p ∈ fs.toFinset.filter fun f => s.registrations.is_called f = false := by simp [hp, hunmarked]
    rw [← heq, Finset.mem_filter, (mark_called s p p).mpr (.inr rfl)] at hmem
    cases hmem.2

end marking

/-- The loop of the macro finds the element of a function that is not marked. -/
theorem uncalled_from_eq {r : registrations_t ι} {p : Option ι} {nodes : List ι} (hchain : Chain r.next p nodes)
    (hfunc : ∀ f ∈ nodes, (r.elt f).func = f) (f : ι) {steps : Nat} (hsteps : nodes.length ≤ steps) :
    uncalled_from f r steps p = .ok (if f ∈ nodes ∧ r.is_called f = false then some f else none) := by
  induction nodes generalizing p steps with
  | nil =>
    obtain rfl : p = none := hchain
    cases steps <;> simp [uncalled_from]
  | cons node nodes ih =>
    obtain ⟨rfl, hnodes⟩ := hchain
    obtain ⟨hnode, hfunc⟩ := List.forall_mem_cons.mp hfunc
    cases steps with
    | zero => simp at hsteps
    | succ steps =>
      rw [uncalled_from, hnode]
      by_cases hfound : node = f ∧ r.is_called node = false
      · obtain ⟨rfl, hunmarked⟩ := hfound
        simp [hunmarked]
      · rw [if_neg hfound, ih hnodes hfunc (by simpa using hsteps)]
        by_cases hf : f = node
        · subst hf
          have hmarked : r.is_called f = true := by simpa using hfound
          simp [hmarked]
        · simp [hf]

section serving

variable (fs : List ι)

/-- Calls of the macro return as long as few functions are left unmarked, and
    leave the one called marked. Whoever calls on the way has been entered on the
    way. -/
def Serves (bound : Nat) (call : ι → state_t ι ρ → Except fault_t (ρ × state_t ι ρ)) : Prop :=
  ∀ f s, Listed s.registrations fs → uncalled fs s.registrations < bound →
    ∃ code after added, call f s = .ok (code, after) ∧ Served fs s after added ∧
      (f ∈ fs → after.registrations.is_called f = true) ∧
      ∀ caller func, .requested caller func ∈ added → caller ∈ entries added

variable (body : ι → body_t ι ρ) {fs} {bound : Nat} {call : ι → state_t ι ρ → Except fault_t (ρ × state_t ι ρ)}

theorem run_body_served (hserves : Serves fs bound call) (caller : ι) (rest : body_t ι ρ) {s : state_t ι ρ}
    (hlisted : Listed s.registrations fs) (hbound : uncalled fs s.registrations < bound) :
    ∃ code after added, run_body call caller rest s = .ok (code, after) ∧ Served fs s after added ∧
      ∀ other func, .requested other func ∈ added → other = caller ∨ other ∈ entries added := by
  induction rest generalizing s with
  | ret code => exact ⟨code, s, [], rfl, .refl fs s, by simp⟩
  | call func next ih =>
    have hrequested := served_requested fs s caller func
    obtain ⟨code, middle, added, hcall, hserved, _, hcallers⟩ :=
      hserves func (s.log (.requested caller func)) hlisted hbound
    have hresumed := served_resumed fs middle caller func code
    have hso_far := (hrequested.trans hserved).trans hresumed
    obtain ⟨last, after, others, hrest, hothers, hother_callers⟩ := ih code (hlisted.of_same hso_far.links)
      (lt_of_le_of_lt hso_far.uncalled_le hbound)
    refine ⟨last, after, _, ?_, hso_far.trans hothers, ?_⟩
    · simp only [run_body, hcall]
      exact hrest
    · intro other asked hmem
      simp only [List.mem_append, List.mem_singleton, reduceCtorEq, or_false, event_t.requested.injEq] at hmem
      rcases hmem with (⟨rfl, _⟩ | hmem) | hmem
      · exact .inl rfl
      · exact .inr (by simp [hcallers other asked hmem])
      · exact (hother_callers other asked hmem).imp_right fun h => by simp [h]

theorem call_element_served (hserves : Serves fs bound call) {s : state_t ι ρ} (hlisted : Listed s.registrations fs)
    {p : ι} (hp : p ∈ fs) (hunmarked : s.registrations.is_called p = false)
    (hbound : uncalled fs s.registrations ≤ bound) :
    ∃ code after added, call_element body call p s = .ok (code, after) ∧ Served fs s after added ∧
      after.registrations.is_called p = true ∧
      ∀ caller func, .requested caller func ∈ added → caller ∈ entries added := by
  have hmarked : Listed (s.mark p).registrations fs := hlisted.of_same (mark_links s p)
  obtain ⟨code, middle, added, hrun, hserved, hcallers⟩ := run_body_served hserves p (body p)
    (s := (s.mark p).log (.entered p)) hmarked (lt_of_lt_of_le (uncalled_mark_lt s hp hunmarked) hbound)
  have hcalled (f : ι) : middle.registrations.is_called f = true ↔
      s.registrations.is_called f = true ∨ f ∈ p :: entries added := by
    rw [hserved.called, state_t.log_registrations, mark_called, List.mem_cons, or_assoc]
  have hfresh (f : ι) (hf : f ∈ entries added) : f ∈ fs ∧ s.registrations.is_called f = false ∧ f ≠ p := by
    obtain ⟨hmem, hbefore⟩ := hserved.fresh f hf
    have hnot : ¬ (s.registrations.is_called f = true ∨ f = p) := by
      rw [← mark_called s p f, ← state_t.log_registrations (s.mark p) (.entered p), hbefore]
      exact Bool.false_ne_true
    rw [not_or, Bool.not_eq_true] at hnot
    exact ⟨hmem, hnot⟩
  refine ⟨code, middle.log (.returned p code), .entered p :: added ++ [.returned p code], ?_, ?_, ?_, ?_⟩
  · simp only [call_element, hmarked.func p hp, hrun]
    rfl
  · constructor
    case trace => simp [hserved.trace]
    case links => exact (mark_links s p).trans hserved.links
    case called =>
      intro f
      rw [entries_call]
      exact hcalled f
    case fresh =>
      intro f hf
      rw [entries_call, List.mem_cons] at hf
      rcases hf with rfl | hf
      · exact ⟨hp, hunmarked⟩
      · exact ⟨(hfresh f hf).1, (hfresh f hf).2.1⟩
    case once =>
      rw [entries_call, List.nodup_cons]
      exact ⟨fun hf => (hfresh p hf).2.2 rfl, hserved.once⟩
    case returned =>
      intro f hf
      rw [entries_call, List.mem_cons] at hf
      rcases hf with rfl | hf
      · simp
      · simp [hserved.returned f hf]
  · rw [state_t.log_registrations, hcalled]
    exact .inr List.mem_cons_self
  · intro caller func hmem
    have hmem : .requested caller func ∈ added := by simpa using hmem
    rcases hcallers caller func hmem with rfl | hcaller
    · simp
    · simp [hcaller]

theorem sc_call_function_serves (ok : ρ) {steps : Nat} (hsteps : fs.length ≤ steps) (depth : Nat) :
    Serves fs depth (sc_call_function body ok steps depth) := by
  induction depth with
  | zero => exact fun f s _ hbound => absurd hbound (Nat.not_lt_zero _)
  | succ depth ih =>
    intro f s hlisted hbound
    have hsearch := uncalled_from_eq hlisted.chain hlisted.func f hsteps
    by_cases hfound : f ∈ fs ∧ s.registrations.is_called f = false
    · obtain ⟨code, after, added, hcall, hserved, hcalled, hcallers⟩ := call_element_served body ih hlisted
        hfound.1 hfound.2 (Nat.le_of_lt_succ hbound)
      refine ⟨code, after, added, ?_, hserved, fun _ => hcalled, hcallers⟩
      rw [if_pos hfound] at hsearch
      simp only [sc_call_function, hsearch]
      exact hcall
    · refine ⟨ok, s, [], ?_, .refl fs s, fun hf => ?_, by simp⟩
      · rw [if_neg hfound] at hsearch
        simp only [sc_call_function, hsearch]
        rfl
      · simpa [hf] using hfound

/-- A pass has gone on to its end, with all functions marked, or has ended at the
    last function that it called. -/
structure Passed (goes_on : ρ → Bool) (nodes : List ι) (pass : pass_t ι ρ) : Prop where
  through : goes_on pass.ret = true →
    (∀ made ∈ pass.called, goes_on made.2 = true) ∧ ∀ f ∈ nodes, pass.state.registrations.is_called f = true
  ended : goes_on pass.ret = false →
    ∃ before func, pass.called = before ++ [(func, pass.ret)] ∧ ∀ made ∈ before, goes_on made.2 = true

theorem call_all_from_null (ok : ρ) (steps : Nat) (goes_on : ρ → Bool) (depth left : Nat) (ret : ρ)
    (s : state_t ι ρ) :
    call_all_from body ok steps goes_on depth left ret none s = .ok { ret, called := [], state := s } := by
  cases left <;> rfl

section passing

variable (ok : ρ) (steps : Nat) {goes_on : ρ → Bool} {depth : Nat} (left : Nat) (ret : ρ) {p : ι} {code : ρ}
  {s middle : state_t ι ρ}

theorem call_all_from_called (hcalled : s.registrations.is_called p = true) :
    call_all_from body ok steps goes_on depth (left + 1) ret (some p) s =
      call_all_from body ok steps goes_on depth left ret (s.registrations.next p) s := by
  simp [call_all_from, hcalled]

theorem call_all_from_ended (huncalled : s.registrations.is_called p = false)
    (hcall : call_element body (sc_call_function body ok steps depth) p s = .ok (code, middle))
    (hgoes : goes_on code = false) :
    call_all_from body ok steps goes_on depth (left + 1) ret (some p) s =
      .ok { ret := code, called := [((s.registrations.elt p).func, code)], state := middle } := by
  simp only [call_all_from, huncalled, hcall, if_true]
  simp [hgoes, bind, Except.bind]

theorem call_all_from_gone_on (huncalled : s.registrations.is_called p = false)
    (hcall : call_element body (sc_call_function body ok steps depth) p s = .ok (code, middle))
    (hgoes : goes_on code = true) :
    call_all_from body ok steps goes_on depth (left + 1) ret (some p) s =
      (call_all_from body ok steps goes_on depth left code (middle.registrations.next p) middle).map
        fun rest => { rest with called := ((s.registrations.elt p).func, code) :: rest.called } := by
  simp only [call_all_from, huncalled, hcall, if_true, bind, Except.bind, hgoes]
  rfl

end passing

theorem call_all_from_served (ok : ρ) {steps : Nat} (hsteps : fs.length ≤ steps) (goes_on : ρ → Bool) {depth : Nat}
    {nodes : List ι} {left : Nat} (hleft : nodes.length ≤ left) {ret : ρ} (hret : goes_on ret = true) {p : Option ι}
    {s : state_t ι ρ} (hlisted : Listed s.registrations fs) (hchain : Chain s.registrations.next p nodes)
    (hnodes : ∀ f ∈ nodes, f ∈ fs) (hdepth : uncalled fs s.registrations ≤ depth) :
    ∃ pass added, call_all_from body ok steps goes_on depth left ret p s = .ok pass ∧
      Served fs s pass.state added ∧ Passed goes_on nodes pass := by
  induction nodes generalizing left ret p s with
  | nil =>
    obtain rfl : p = none := hchain
    refine ⟨_, [], call_all_from_null body ok steps goes_on depth left ret s, .refl fs s, ?_, ?_⟩
    · simp
    · simp [hret]
  | cons node nodes ih =>
    obtain ⟨rfl, hchain⟩ := hchain
    obtain ⟨hnode, hnodes⟩ := List.forall_mem_cons.mp hnodes
    cases left with
    | zero => simp at hleft
    | succ left =>
      have hleft : nodes.length ≤ left := by simpa using hleft
      cases hcalled : s.registrations.is_called node with
      | true =>
        obtain ⟨pass, added, hpass, hserved, hpassed⟩ := ih hleft hret hlisted hchain hnodes hdepth
        refine ⟨pass, added, ?_, hserved, fun hgoes => ?_, hpassed.ended⟩
        · rw [call_all_from_called body ok steps left ret hcalled, hpass]
        · obtain ⟨hmade, hmarked⟩ := hpassed.through hgoes
          exact ⟨hmade, List.forall_mem_cons.mpr ⟨(hserved.called node).mpr (.inl hcalled), hmarked⟩⟩
      | false =>
        obtain ⟨code, middle, first, hcall, hfirst, hmarked, _⟩ := call_element_served body
          (sc_call_function_serves body ok hsteps depth) hlisted hnode hcalled hdepth
        cases hgoes : goes_on code with
        | false =>
          refine ⟨_, first, call_all_from_ended body ok steps left ret hcalled hcall hgoes, hfirst, fun hon => ?_,
            fun _ => ⟨[], _, rfl, by simp⟩⟩
          rw [hgoes] at hon
          cases hon
        | true =>
          have hlinks := hfirst.links
          obtain ⟨pass, rest, hpass, hrest, hpassed⟩ := ih hleft hgoes (hlisted.of_same hlinks)
            (p := middle.registrations.next node) (by rw [hlinks.next]; exact hchain) hnodes
            (hfirst.uncalled_le.trans hdepth)
          refine ⟨{ pass with called := ((s.registrations.elt node).func, code) :: pass.called }, first ++ rest, ?_,
            hfirst.trans hrest, fun hon => ?_, fun hoff => ?_⟩
          · rw [call_all_from_gone_on body ok steps left ret hcalled hcall hgoes, hpass]
            rfl
          · obtain ⟨hmade, hall⟩ := hpassed.through hon
            refine ⟨List.forall_mem_cons.mpr ⟨hgoes, hmade⟩, List.forall_mem_cons.mpr ⟨?_, hall⟩⟩
            exact (hrest.called node).mpr (.inl hmarked)
          · obtain ⟨before, func, hlast, hmade⟩ := hpassed.ended hoff
            refine ⟨((s.registrations.elt node).func, code) :: before, func, ?_, ?_⟩
            · rw [hlast]
              rfl
            · exact List.forall_mem_cons.mpr ⟨hgoes, hmade⟩

/-- A pass over a list that is as long as it is given returns. -/
theorem call_all_served (ok : ρ) (goes_on : ρ → Bool) (hok : goes_on ok = true) {fuel : Nat}
    (hfuel : fs.length ≤ fuel) {r : registrations_t ι} (hlisted : Listed r fs) :
    ∃ pass added, call_all body ok goes_on fuel r = .ok pass ∧ Served fs { registrations := r } pass.state added ∧
      Passed goes_on fs pass :=
  call_all_from_served body ok hfuel goes_on hfuel hok hlisted hlisted.chain (fun _ hf => hf)
    ((uncalled_le_length fs r).trans hfuel)

end serving

end sweetcomb.sc_init
