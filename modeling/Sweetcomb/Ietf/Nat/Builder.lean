import Sweetcomb.Commit
import Sweetcomb.Ietf.Nat.Outcome
import Sweetcomb.Refcount

open loop

namespace sweetcomb.ietf_nat

/-- Text that a prefix can be made from. -/
structure readable_t (text : AddressText) where
  str : String
  pfx : utils_prefix_t
  reads : utils_prefix_t.make_prefix text str = some pfx

/-- The prefixes that a builder holds. -/
inductive field_t where
  | internal_src
  | external_src
  | internal_dest
  | external_dest
deriving DecidableEq

/-- A call of one of the builder's setters. -/
inductive setter_t (text : AddressText) where
  | set_type (t : String)
  | set_address (field : field_t) (p : readable_t text)

section setters

variable (text : AddressText) (builder : nat_static_builder)

def field_t.get : field_t → utils_prefix_t
  | .internal_src => builder.m_internal_src
  | .external_src => builder.m_external_src
  | .internal_dest => builder.m_internal_dest
  | .external_dest => builder.m_external_dest

/-- The setter of a prefix. -/
def field_t.set (p : String) : field_t → Option nat_static_builder
  | .internal_src => builder.set_internal_src text p
  | .external_src => builder.set_external_src text p
  | .internal_dest => builder.set_internal_dest text p
  | .external_dest => builder.set_external_dest text p

variable {text}

theorem set_isSome (field : field_t) (p : readable_t text) : (field.set text builder p.str).isSome := by
  cases field <;>
    simp [field_t.set, nat_static_builder.set_internal_src, nat_static_builder.set_external_src,
      nat_static_builder.set_internal_dest, nat_static_builder.set_external_dest, p.reads]

def setter_t.apply : setter_t text → nat_static_builder
  | .set_type t => builder.set_type t
  | .set_address field p => (field.set text builder p.str).get (set_isSome builder field p)

end setters

section assigned

variable {text : AddressText}

def setter_t.type : setter_t text → Option String
  | .set_type t => some t
  | .set_address _ _ => none

def setter_t.pfx (field : field_t) : setter_t text → Option utils_prefix_t
  | .set_type _ => none
  | .set_address other p => if other = field then some p.pfx else none

theorem apply_type (builder : nat_static_builder) (setter : setter_t text) :
    (setter.apply builder).m_type = setter.type.getD builder.m_type := by
  cases setter with
  | set_type t => rfl
  | set_address field p =>
    cases field <;>
      simp [setter_t.apply, setter_t.type, field_t.set, nat_static_builder.set_internal_src,
        nat_static_builder.set_external_src, nat_static_builder.set_internal_dest,
        nat_static_builder.set_external_dest, p.reads]

theorem apply_get (builder : nat_static_builder) (setter : setter_t text) (field : field_t) :
    field.get (setter.apply builder) = (setter.pfx field).getD (field.get builder) := by
  cases setter with
  | set_type t => cases field <;> rfl
  | set_address other p =>
    cases other <;> cases field <;>
      simp [setter_t.apply, setter_t.pfx, field_t.set, field_t.get, nat_static_builder.set_internal_src,
        nat_static_builder.set_external_src, nat_static_builder.set_internal_dest,
        nat_static_builder.set_external_dest, p.reads]

/-- A builder after a sequence of setters. -/
def built (uninit : Uninit) (setters : List (setter_t text)) : nat_static_builder :=
  setters.foldl setter_t.apply (.new uninit)

theorem foldl_apply_type (builder : nat_static_builder) (setters : List (setter_t text)) :
    (setters.foldl setter_t.apply builder).m_type = latest setter_t.type builder.m_type setters := by
  induction setters generalizing builder with
  | nil => rfl
  | cons setter setters ih => rw [List.foldl_cons, ih, apply_type, latest_cons]

theorem foldl_apply_get (builder : nat_static_builder) (setters : List (setter_t text)) (field : field_t) :
    field.get (setters.foldl setter_t.apply builder) = latest (setter_t.pfx field) (field.get builder) setters := by
  induction setters generalizing builder with
  | nil => rfl
  | cons setter setters ih => rw [List.foldl_cons, ih, apply_get, latest_cons]

/-- The address that a field was last set to, if it was ever set. -/
def given (field : field_t) (setters : List (setter_t text)) : Option address :=
  latest (fun setter => (setter.pfx field).map fun pfx => some pfx.m_address) none setters

/-- Two addresses of one family that were both set. -/
def pair_of (inside outside : field_t) (setters : List (setter_t text)) : Option nat_pair_t :=
  match given inside setters, given outside setters with
  | some first, some second => if first.is_v4 = second.is_v4 then some (first, second) else none
  | _, _ => none

/-- The pairs that the class comment calls valid for static NAT, the source pair
    before the destination pair. -/
def documented (setters : List (setter_t text)) : Option nat_pair_t :=
  if latest setter_t.type "" setters = "static" then
    pair_of .internal_src .external_src setters <|> pair_of .internal_dest .external_dest setters
  else none

/-- The address in a field is the last one set, or the unspecified one. -/
theorem address_of_built (uninit : Uninit) (setters : List (setter_t text)) (field : field_t) :
    (field.get (built uninit setters)).m_address = (given field setters).getD .default := by
  have hgeneral (pfx : utils_prefix_t) (address : Option address) (hsame : pfx.m_address = address.getD .default) :
      (latest (setter_t.pfx field) pfx setters).m_address =
        (latest (fun setter => (setter.pfx field).map fun pfx => some pfx.m_address) address setters).getD
          .default := by
    induction setters generalizing pfx address with
    | nil => exact hsame
    | cons setter setters ih =>
      rw [latest_cons, latest_cons]
      refine ih _ _ ?_
      cases setter.pfx field with
      | none => exact hsame
      | some read => rfl
  rw [built, foldl_apply_get]
  refine hgeneral _ none ?_
  cases field <;> rfl

end assigned

section build

variable {text : AddressText} (uninit : Uninit) (setters : List (setter_t text))

/-- What is built for the type "static": the source fields as they are. -/
theorem build_built : ((built uninit setters).build text).2 =
    if latest setter_t.type "" setters = "static" then
      some (.nat_static ((given .internal_src setters).getD .default) ((given .external_src setters).getD .default))
    else none := by
  have htype : (built uninit setters).m_type = latest setter_t.type "" setters := foldl_apply_type _ setters
  have hinside := address_of_built uninit setters .internal_src
  have houtside := address_of_built uninit setters .external_src
  simp only [field_t.get] at hinside houtside
  rw [← htype, ← hinside, ← houtside]
  split
  · rename_i hstatic
    rw [build_of_mapping (if_pos hstatic)]
  · rename_i hother
    rw [build_of_no_mapping (if_neg hother)]

/-- A valid source pair is what the source fields hold. -/
theorem held_of_pair {pair : nat_pair_t} (hpair : pair_of .internal_src .external_src setters = some pair) :
    pair = ((given .internal_src setters).getD .default, (given .external_src setters).getD .default) := by
  unfold pair_of at hpair
  split at hpair
  · rename_i first second hfirst hsecond
    rw [hfirst, hsecond]
    split at hpair
    · exact (Option.some.inj hpair).symm
    · cases hpair
  · cases hpair

/-- The builder accepts the documented pairs exactly when another type than
    "static" is set, a valid source pair is set, or the destination pair that is
    set is what the source fields hold. -/
theorem build_documented_iff :
    ((built uninit setters).build text).2 = (documented setters).map (fun pair => .nat_static pair.1 pair.2) ↔
      latest setter_t.type "" setters ≠ "static" ∨ (pair_of .internal_src .external_src setters).isSome ∨
        pair_of .internal_dest .external_dest setters =
          some ((given .internal_src setters).getD .default, (given .external_src setters).getD .default) := by
  rw [build_built, documented]
  by_cases hstatic : latest setter_t.type "" setters = "static"
  · simp only [hstatic, if_true, ne_eq, not_true_eq_false, false_or]
    cases hsource : pair_of .internal_src .external_src setters with
    | some pair =>
      rw [held_of_pair setters hsource]
      simp
    | none =>
      cases hdest : pair_of .internal_dest .external_dest setters with
      | none => simp
      | some pair =>
        obtain ⟨inside, outside⟩ := pair
        simp [eq_comm]
  · simp [hstatic]

/-- Without any pair a mapping of the unspecified address is built. -/
theorem build_without_pair :
    ((built cleared [(.set_type "static" : setter_t plainText)]).build plainText).2 ≠
      (documented [(.set_type "static" : setter_t plainText)]).map fun pair => .nat_static pair.1 pair.2 := by
  rw [build_built]
  decide

end build

end sweetcomb.ietf_nat
