import Mathlib.Data.List.Basic

namespace two_phase

variable {σ τ π : Type}

/-- What the participants of a commit do to the state when they are asked to
    verify it, whether they agree, and what they do when it is applied or
    aborted. -/
structure Protocol (σ π : Type) where
  verify : σ → π → σ
  agrees : σ → π → Bool
  apply : σ → π → σ
  abort : σ → π → σ

/-- What comes of asking: the state, the requests that were agreed to, and whether
    all of them were. -/
structure Poll (σ π : Type) where
  state : σ
  agreed : List π
  unanimous : Bool

/-- The participants are asked one after the other, until one refuses. -/
def Protocol.ask (protocol : Protocol σ π) : σ → List π → Poll σ π
  | state, [] => { state, agreed := [], unanimous := true }
  | state, request :: rest =>
    if protocol.agrees state request then
      let poll := protocol.ask (protocol.verify state request) rest
      { poll with agreed := request :: poll.agreed }
    else { state := protocol.verify state request, agreed := [], unanimous := false }

/-- The commit is applied when all agree, and aborted with those that have agreed
    when one refuses. -/
def Protocol.commit (protocol : Protocol σ π) (state : σ) (requests : List π) : σ × Bool :=
  let poll := protocol.ask state requests
  if poll.unanimous then (requests.foldl protocol.apply poll.state, true)
  else (poll.agreed.foldl protocol.abort poll.state, false)

/-- A relation between a request and the state that it is verified in holds of
    every request that is asked. -/
def Protocol.Throughout (protocol : Protocol σ π) (holds : σ → π → Prop) : σ → List π → Prop
  | _, [] => True
  | state, request :: rest =>
    holds state request ∧
      (protocol.agrees state request = true → protocol.Throughout holds (protocol.verify state request) rest)

section ask

variable (protocol : Protocol σ π) {state : σ} {request : π} {rest : List π}

theorem ask_of_agrees (hagrees : protocol.agrees state request = true) :
    protocol.ask state (request :: rest) =
      { protocol.ask (protocol.verify state request) rest with
        agreed := request :: (protocol.ask (protocol.verify state request) rest).agreed } := by
  rw [Protocol.ask, if_pos hagrees]

theorem ask_of_refuses (hrefuses : protocol.agrees state request = false) :
    protocol.ask state (request :: rest) =
      { state := protocol.verify state request, agreed := [], unanimous := false } := by
  rw [Protocol.ask, if_neg (by simp [hrefuses])]

theorem agreed_of_unanimous {requests : List π} (hall : (protocol.ask state requests).unanimous = true) :
    (protocol.ask state requests).agreed = requests := by
  induction requests generalizing state with
  | nil => rfl
  | cons request rest ih =>
    cases hagrees : protocol.agrees state request with
    | true =>
      rw [ask_of_agrees protocol hagrees] at hall ⊢
      rw [ih hall]
    | false =>
      rw [ask_of_refuses protocol hagrees] at hall
      cases hall

theorem agreed_sublist (state : σ) (requests : List π) : (protocol.ask state requests).agreed.Sublist requests := by
  induction requests generalizing state with
  | nil => exact .slnil
  | cons request rest ih =>
    cases hagrees : protocol.agrees state request with
    | true =>
      rw [ask_of_agrees protocol hagrees]
      exact (ih _).cons_cons request
    | false =>
      rw [ask_of_refuses protocol hagrees]
      exact List.nil_sublist _

/-- What was agreed to was agreed to in some state. -/
theorem exists_agrees {requests : List π} (hmem : request ∈ (protocol.ask state requests).agreed) :
    ∃ before, protocol.agrees before request = true := by
  induction requests generalizing state with
  | nil => cases hmem
  | cons first rest ih =>
    cases hagrees : protocol.agrees state first with
    | true =>
      rw [ask_of_agrees protocol hagrees] at hmem
      rcases List.mem_cons.mp hmem with rfl | hrest
      · exact ⟨state, hagrees⟩
      · exact ih hrest
    | false =>
      rw [ask_of_refuses protocol hagrees] at hmem
      cases hmem

theorem commit_of_unanimous {requests : List π} (hall : (protocol.ask state requests).unanimous = true) :
    protocol.commit state requests = (requests.foldl protocol.apply (protocol.ask state requests).state, true) := by
  rw [Protocol.commit, if_pos hall]

theorem commit_of_refused {requests : List π} (hrefused : (protocol.ask state requests).unanimous = false) :
    protocol.commit state requests =
      ((protocol.ask state requests).agreed.foldl protocol.abort (protocol.ask state requests).state, false) := by
  rw [Protocol.commit, if_neg (by simp [hrefused])]

end ask

/-- Participants in related states answer alike, and verify from related states to
    related states. -/
structure Follows (spec : Protocol τ π) (protocol : Protocol σ π) (related : τ → σ → Prop)
    (admits : τ → π → Prop) : Prop where
  agrees : ∀ abstract state request, related abstract state → admits abstract request →
    protocol.agrees state request = spec.agrees abstract request
  verify : ∀ abstract state request, related abstract state → admits abstract request →
    related (spec.verify abstract request) (protocol.verify state request)

/-- The participants are asked as the specification asks them, and end related to
    it. -/
theorem Follows.ask {spec : Protocol τ π} {protocol : Protocol σ π} {related : τ → σ → Prop}
    {admits : τ → π → Prop} (hfollows : Follows spec protocol related admits) {abstract : τ} {state : σ}
    (hrelated : related abstract state) {requests : List π} (hadmits : spec.Throughout admits abstract requests) :
    (protocol.ask state requests).agreed = (spec.ask abstract requests).agreed ∧
      (protocol.ask state requests).unanimous = (spec.ask abstract requests).unanimous ∧
      related (spec.ask abstract requests).state (protocol.ask state requests).state := by
  induction requests generalizing abstract state with
  | nil => exact ⟨rfl, rfl, hrelated⟩
  | cons request rest ih =>
    obtain ⟨hfirst, hrest⟩ := hadmits
    have hagree := hfollows.agrees abstract state request hrelated hfirst
    have hnext := hfollows.verify abstract state request hrelated hfirst
    cases hagrees : protocol.agrees state request with
    | true =>
      rw [hagrees] at hagree
      obtain ⟨hagreed, hunanimous, hstate⟩ := ih hnext (hrest hagree.symm)
      rw [ask_of_agrees protocol hagrees, ask_of_agrees spec hagree.symm, hagreed]
      exact ⟨rfl, hunanimous, hstate⟩
    | false =>
      rw [hagrees] at hagree
      rw [ask_of_refuses protocol hagrees, ask_of_refuses spec hagree.symm]
      exact ⟨rfl, rfl, hnext⟩

end two_phase
