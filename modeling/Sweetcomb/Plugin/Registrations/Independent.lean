import Sweetcomb.Plugin.Functions
import Sweetcomb.Plugin.Registrations.Calls

open linked_list

namespace sweetcomb.sc_init

variable {ι ρ : Type}

/-- The listed elements without their links. -/
def elements (r : registrations_t ι) (fs : List ι) : List (sc_function_list_elt_t ι) :=
  fs.map fun f => { func := f, is_called := r.is_called f }

theorem elements_cons (r : registrations_t ι) (f : ι) (fs : List ι) :
    elements r (f :: fs) = { func := f, is_called := r.is_called f } :: elements r fs := rfl

theorem elements_congr {r other : registrations_t ι} {fs : List ι}
    (hcalled : ∀ f ∈ fs, r.is_called f = other.is_called f) : elements r fs = elements other fs :=
  List.map_congr_left fun f hf => by rw [hcalled f hf]

variable [DecidableEq ι]

/-- A function that asks for no other is marked and returns its code. -/
theorem call_element_independent (body : ι → body_t ι ρ) (call : ι → state_t ι ρ → Except fault_t (ρ × state_t ι ρ))
    {s : state_t ι ρ} {p : ι} (hfunc : (s.registrations.elt p).func = p) {code : ρ} (hbody : body p = .ret code) :
    call_element body call p s = .ok (code, ((s.mark p).log (.entered p)).log (.returned p code)) := by
  have hkept : ((s.mark p).registrations.elt p).func = p := by rw [(mark_links s p).func, hfunc]
  simp only [call_element, hkept, hbody, run_body]
  rfl

theorem mark_called_other {s : state_t ι ρ} {p f : ι} (hf : f ≠ p) :
    (s.mark p).registrations.is_called f = s.registrations.is_called f := by
  simp [state_t.mark, registrations_t.is_called, registrations_t.set_other _ p _ hf]

/-- Where no init function asks for another, the pass in memory is the pass over
    the list of elements. -/
theorem init_functions_from_independent (func_rc : ι → sr_error_t) (steps depth : Nat) {nodes : List ι} {left : Nat}
    (hleft : nodes.length ≤ left) (ret : sr_error_t) {p : Option ι} {s : state_t ι sr_error_t}
    (hchain : Chain s.registrations.next p nodes) (hfunc : ∀ f ∈ nodes, (s.registrations.elt f).func = f) :
    ∃ pass, call_all_from (fun f => .ret (func_rc f)) .SR_ERR_OK steps (· = .SR_ERR_OK) depth left ret p s = .ok pass ∧
      init_functions_from func_rc ret (elements s.registrations nodes) =
        { ret := pass.ret, registrations := elements pass.state.registrations nodes, ran := pass.called } ∧
      ∀ f ∉ nodes, pass.state.registrations.is_called f = s.registrations.is_called f := by
  induction nodes generalizing left ret p s with
  | nil =>
    obtain rfl : p = none := hchain
    exact ⟨_, call_all_from_null _ _ steps _ depth left ret s, rfl, fun _ _ => rfl⟩
  | cons node nodes ih =>
    have hfresh : node ∉ nodes := (List.nodup_cons.mp hchain.nodup).1
    obtain ⟨rfl, hchain⟩ := hchain
    obtain ⟨hnode, hfunc⟩ := List.forall_mem_cons.mp hfunc
    cases left with
    | zero => simp at hleft
    | succ left =>
      have hleft : nodes.length ≤ left := by simpa using hleft
      cases hcalled : s.registrations.is_called node with
      | true =>
        obtain ⟨pass, hpass, hlist, hothers⟩ := ih hleft ret hchain hfunc
        refine ⟨pass, (call_all_from_called _ _ steps left ret hcalled).trans hpass, ?_, fun f hf => ?_⟩
        · have hkept := hothers node hfresh
          simp [init_functions_from, hcalled, hlist, elements_cons, hkept]
        · exact hothers f (List.not_mem_of_not_mem_cons hf)
      | false =>
        have hlinks := mark_links s node
        have hmarked := (mark_called s node node).mpr (.inr rfl)
        have hmarked_chain : Chain (s.mark node).registrations.next ((s.mark node).registrations.next node) nodes := by
          rw [hlinks.next]
          exact hchain
        have hlist : elements s.registrations (node :: nodes) =
            { func := node, is_called := false } :: elements (s.mark node).registrations nodes := by
          rw [elements_cons, hcalled]
          exact congrArg _ (elements_congr fun f hf => (mark_called_other (ne_of_mem_of_not_mem hf hfresh)).symm)
        obtain ⟨after, hafter, hcall⟩ : ∃ after, after.registrations = (s.mark node).registrations ∧
            call_element (fun f => .ret (func_rc f))
              (sc_call_function (fun f => .ret (func_rc f)) .SR_ERR_OK steps depth) node s =
                .ok (func_rc node, after) :=
          ⟨_, rfl, call_element_independent (fun f => .ret (func_rc f)) _ hnode rfl⟩
        rw [hlist]
        rw [← hafter] at hmarked_chain hmarked hlinks ⊢
        have hmarked_other {f : ι} (hf : f ∉ node :: nodes) :
            after.registrations.is_called f = s.registrations.is_called f := by
          rw [hafter]
          exact mark_called_other (List.ne_of_not_mem_cons hf)
        by_cases hrc : func_rc node = .SR_ERR_OK
        · obtain ⟨pass, hpass, hlist, hothers⟩ := ih hleft (func_rc node) hmarked_chain
            (fun f hf => (hlinks.func f).trans (hfunc f hf))
          have hkept : pass.state.registrations.is_called node = true := (hothers node hfresh).trans hmarked
          rw [hrc] at hlist
          refine ⟨{ pass with called := (node, func_rc node) :: pass.called }, ?_, ?_, fun f hf => ?_⟩
          · rw [call_all_from_gone_on _ _ steps left ret hcalled hcall (by simp [hrc]), hpass, hnode]
            rfl
          · simp [init_functions_from, hrc, hlist, elements_cons, hkept]
          · exact (hothers f (List.not_mem_of_not_mem_cons hf)).trans (hmarked_other hf)
        · refine ⟨{ ret := func_rc node, called := [(node, func_rc node)], state := after }, ?_, ?_, fun f hf => ?_⟩
          · rw [call_all_from_ended _ _ steps left ret hcalled hcall (by simp [hrc]), hnode]
          · simp [init_functions_from, hrc, elements_cons, hmarked]
          · exact hmarked_other hf

/-- The init functions of the plugins ask for no others, so that the list of
    elements tells all that a pass does. -/
theorem sc_call_all_init_function_independent (func_rc : ι → sr_error_t) {r : registrations_t ι} {fs : List ι}
    (hlisted : Listed r fs) {fuel : Nat} (hfuel : fs.length ≤ fuel) :
    ∃ pass, sc_call_all_init_function (fun f => .ret (func_rc f)) fuel r = .ok pass ∧
      sweetcomb.sc_call_all_init_function func_rc (elements r fs) =
        { ret := pass.ret, registrations := elements pass.state.registrations fs, ran := pass.called } := by
  obtain ⟨pass, hpass, hlist, _⟩ := init_functions_from_independent func_rc fuel fuel hfuel .SR_ERR_OK
    (s := { registrations := r }) hlisted.chain hlisted.func
  exact ⟨pass, hpass, hlist⟩

end sweetcomb.sc_init
