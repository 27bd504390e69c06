import Sweetcomb.Ietf.Address.Bindings
import Sweetcomb.Refcount

open keyed_store

namespace sweetcomb.ietf_interface

/-- No binding is held under the key of another. Bindings that VOM has read back
    from VPP are held under a key that is none of theirs. -/
def Filed (text : AddressText) (om : Om) : Prop :=
  ∀ itf pfx otherItf other, (KEY text itf pfx, .l3_binding otherItf other) ∈ om → otherItf = itf ∧ other = pfx

/-- What is left alone by a call about one binding: all that is held under the
    key of another binding and, where each is filed, every other binding wherever
    it is held. -/
structure Spares (text : AddressText) (itf : String) (pfx : prefix_t) (before after : Om) : Prop where
  under_key : ∀ otherItf other, (otherItf, other) ≠ (itf, pfx) → ∀ obj,
    (KEY text otherItf other, obj) ∈ after ↔ (KEY text otherItf other, obj) ∈ before
  everywhere : Filed text before → ∀ key otherItf other, (otherItf, other) ≠ (itf, pfx) →
    ((key, .l3_binding otherItf other) ∈ after ↔ (key, .l3_binding otherItf other) ∈ before)

theorem Spares.refl (text : AddressText) (itf : String) (pfx : prefix_t) (om : Om) : Spares text itf pfx om om :=
  ⟨fun _ _ _ _ => Iff.rfl, fun _ _ _ _ _ => Iff.rfl⟩

theorem KEY_ne_of_ne (text : AddressText) {itf otherItf : String} {pfx other : prefix_t}
    (hdistinct : (otherItf, other) ≠ (itf, pfx)) : KEY text otherItf other ≠ KEY text itf pfx := by
  intro hkey
  obtain ⟨rfl, rfl⟩ := (KEY_inj text).mp hkey
  exact hdistinct rfl

theorem spares_write (text : AddressText) (itf : String) (pfx : prefix_t) (om : Om) :
    Spares text itf pfx om (om.write object.singular (KEY text itf pfx) (.l3_binding itf pfx)) where
  under_key := by
    intro otherItf other hdistinct obj
    simp [Store.mem_write_of_rigid (rigid_l3_binding itf pfx), KEY_ne_of_ne text hdistinct]
  everywhere := by
    intro _ key otherItf other hdistinct
    rw [Store.mem_write_of_rigid (rigid_l3_binding itf pfx), or_iff_right]
    rintro hsame
    cases hsame
    exact hdistinct rfl

theorem spares_remove (text : AddressText) (itf : String) (pfx : prefix_t) (om : Om) :
    Spares text itf pfx om (om.remove (KEY text itf pfx)) where
  under_key := by
    intro otherItf other hdistinct obj
    simp [KEY_ne_of_ne text hdistinct]
  everywhere := by
    intro hfiled key otherItf other hdistinct
    rw [Store.mem_remove, and_iff_left_iff_imp]
    rintro hmem rfl
    obtain ⟨rfl, rfl⟩ := hfiled itf pfx otherItf other hmem
    exact hdistinct rfl

section calls

variable {env : Env} {w : World} {if_name addr : String} {pfx_len : UInt8} {bits : address}

/-- A call for an interface that is not there, or with text that is no address. -/
theorem config_refused (add : Bool)
    (hunreached : w.find env if_name = false ∨ env.text.from_string addr = none) :
    (ipv46_config_add_remove env if_name addr pfx_len add w).1 ≠ .SR_ERR_OK ∧
      (ipv46_config_add_remove env if_name addr pfx_len add w).2 = w := by
  cases hfind : w.find env if_name with
  | false => simp [config_missing addr pfx_len add hfind]
  | true =>
    have hparse := hunreached.resolve_left (by simp [hfind])
    have hpfx : prefix_t.make env.text addr pfx_len = none := by simp [prefix_t.make, hparse]
    simp [config_unparsed add hfind hpfx]

/-- Whatever comes of it, a call is about one binding. -/
theorem config_spares (add : Bool) (hparse : env.text.from_string addr = some bits) :
    Spares env.text if_name ⟨bits, pfx_len⟩ w.om
      (ipv46_config_add_remove env if_name addr pfx_len add w).2.om := by
  cases hfind : w.find env if_name with
  | false =>
    rw [(config_refused add (.inl hfind)).2]
    exact .refl env.text if_name _ w.om
  | true =>
    have hpfx := make_of_parse hparse pfx_len
    cases add with
    | false =>
      rw [config_deleted hfind hpfx, World.om_remove_om]
      exact spares_remove env.text if_name _ w.om
    | true =>
      rw [config_added hfind hpfx, World.om_write_om]
      split
      · exact spares_write env.text if_name _ w.om
      · exact .refl env.text if_name _ w.om

end calls

/-- A call puts a binding under its own key only. -/
theorem config_filed {env : Env} {w : World} (hfiled : Filed env.text w.om) (if_name addr : String) (pfx_len : UInt8)
    (add : Bool) : Filed env.text (ipv46_config_add_remove env if_name addr pfx_len add w).2.om := by
  intro itf pfx otherItf other hmem
  cases hparse : env.text.from_string addr with
  | none =>
    rw [(config_refused add (.inr hparse)).2] at hmem
    exact hfiled itf pfx otherItf other hmem
  | some bits =>
    by_cases hsame : (otherItf, other) = (itf, pfx)
    · exact Prod.mk.inj hsame
    · by_cases habout : (otherItf, other) = (if_name, ⟨bits, pfx_len⟩)
      · have hdistinct : (itf, pfx) ≠ (if_name, ⟨bits, pfx_len⟩) := fun heq => hsame (habout.trans heq.symm)
        rw [(config_spares add hparse).under_key itf pfx hdistinct] at hmem
        exact hfiled itf pfx otherItf other hmem
      · rw [(config_spares add hparse).everywhere hfiled _ otherItf other habout] at hmem
        exact hfiled itf pfx otherItf other hmem

/-- Adding a binding and deleting it again, by any two texts of its address. -/
structure Undone (env : Env) (if_name addr other : String) (pfx_len : UInt8) (w : World) : Prop where
  added : (ipv46_config_add_remove env if_name addr pfx_len true w).1 = .SR_ERR_OK
  deleted : (ipv46_config_add_remove env if_name other pfx_len false
    (ipv46_config_add_remove env if_name addr pfx_len true w).2).1 = .SR_ERR_OK
  restored : (ipv46_config_add_remove env if_name other pfx_len false
    (ipv46_config_add_remove env if_name addr pfx_len true w).2).2.Same w

theorem config_undone {env : Env} (hpersists : env.Persists) {w : World} (hwrite : env.write_rc w.writes = .OK)
    {if_name addr other : String} {bits : address} {pfx_len : UInt8} (hfind : w.find env if_name = true)
    (hparse : env.text.from_string addr = some bits) (hother : env.text.from_string other = some bits)
    (habsent : ∀ obj, (KEY env.text if_name ⟨bits, pfx_len⟩, obj) ∉ w.om) :
    Undone env if_name addr other pfx_len w := by
  have hadded := config_added hfind (make_of_parse hparse pfx_len)
  rw [if_pos hwrite] at hadded
  have hkept : w.om ⊆ (w.om_write env (KEY env.text if_name ⟨bits, pfx_len⟩)
      (.l3_binding if_name ⟨bits, pfx_len⟩)).2.om := by
    rw [World.om_write_om, if_pos hwrite]
    exact fun entry hmem => (Store.mem_write_of_rigid (rigid_l3_binding if_name _)).mpr (.inr hmem)
  have hstill := hpersists _ _ if_name hkept hfind
  have hdeleted := config_deleted hstill (make_of_parse hother pfx_len)
  constructor
  · rw [hadded]
  · rw [hadded, hdeleted]
  · rw [hadded, hdeleted]
    constructor
    · rw [World.om_remove_om, World.om_write_om, if_pos hwrite]
      exact Store.remove_write habsent _
    · simp [World.om_write_instances, object.publish]
    · simp

/-- Adding and deleting a binding undo each other and leave the other bindings
    alone. A call that does not reach its interface or its address fails and
    changes nothing. -/
theorem config_inverse_and_independent {env : Env} (hpersists : env.Persists) (hwrites : ∀ n, env.write_rc n = .OK)
    (w : World) (if_name : String) (pfx_len : UInt8) :
    (∀ addr other bits, w.find env if_name = true →
      env.text.from_string addr = some bits → env.text.from_string other = some bits →
        (∀ obj, (KEY env.text if_name ⟨bits, pfx_len⟩, obj) ∉ w.om) → Undone env if_name addr other pfx_len w) ∧
    (∀ addr bits add, env.text.from_string addr = some bits →
      Spares env.text if_name ⟨bits, pfx_len⟩ w.om (ipv46_config_add_remove env if_name addr pfx_len add w).2.om) ∧
    (∀ addr add, w.find env if_name = false ∨ env.text.from_string addr = none →
      (ipv46_config_add_remove env if_name addr pfx_len add w).1 ≠ .SR_ERR_OK ∧
        (ipv46_config_add_remove env if_name addr pfx_len add w).2 = w) := by
  refine ⟨fun addr other bits hfind hparse hother habsent => ?_, fun addr bits add hparse => ?_, fun addr add => ?_⟩
  · exact config_undone hpersists (hwrites w.writes) hfind hparse hother habsent
  · exact config_spares add hparse
  · exact config_refused add

/-- One interface, whose name has the separator of the keys in it. -/
def host_vpp1_only : World :=
  { World.empty with om := {("host_vpp1", .interface "host_vpp1" { type := "ethernetCsmacd", state := .UP })} }

theorem config_inverse_host_vpp1 :
    Undone counting "host_vpp1" "192.168.0.1" "192.168.0.1" 24 host_vpp1_only ∧
      Spares plainText "host_vpp1" ⟨.v4 0xC0A80001, 24⟩ host_vpp1_only.om
        (ipv46_config_add_remove counting "host_vpp1" "192.168.0.1" 24 true host_vpp1_only).2.om ∧
      (ipv46_config_add_remove counting "host_vpp1" "192.168" 24 true host_vpp1_only).2 = host_vpp1_only := by
  have hcalls := config_inverse_and_independent counting_counts.persists (fun _ => rfl) host_vpp1_only "host_vpp1" 24
  have hparse : counting.text.from_string "192.168.0.1" = some (.v4 0xC0A80001) := by decide
  have habsent : ∀ obj, (KEY counting.text "host_vpp1" ⟨.v4 0xC0A80001, 24⟩, obj) ∉ host_vpp1_only.om := by
    intro obj hmem
    exact absurd (congrArg Prod.fst (Finset.mem_singleton.mp hmem)) (KEY_ne_name plainText _ _)
  refine ⟨?_, ?_, ?_⟩
  · exact hcalls.1 "192.168.0.1" "192.168.0.1" _ (by decide) hparse hparse habsent
  · exact hcalls.2.1 "192.168.0.1" _ true hparse
  · exact (hcalls.2.2 "192.168" true (.inr (by decide))).2

end sweetcomb.ietf_interface
