import KuryrKubernetes.Pool.Vlans

/-!
# A VLAN id stays reserved while its VIF is in use

The invariant of `vlanSystem`, and the two properties of VLAN ids it gives: the id of a
VIF in use is reserved and no other subport has it, and a request for VIFs that fails
leaves nothing behind.

- `World.Uses`: a VIF that a pod holds, or that a pool knows and has filed, as available
  or to be recycled.
- `Sound`: ids in use are reserved and belong to one port, on the trunk as well, and every
  port is filed once. Each part of an operation has one lemma `Sound.*`.
- `Meets`: what the steps of a run have to meet, action by action.

Both properties fail without it. `_add_subport` releases the id of the VIF it was asked
to reattach when Neutron fails, a second release of a VIF may free an id that another VIF
has by then, and neither `request_vif` nor `request_vifs` undoes all it did on every path.
-/

namespace KuryrKubernetes

namespace NestedVlan

open Dicts Transition

/-! ## The invariant -/

/-- A pool keeps the port, as available or to be recycled. -/
def World.Filed (w : World) (port : PortId) : Prop :=
  port ∈ w.available.map Prod.snd ∨ port ∈ w.recyclable.keys

def World.Uses (w : World) (x : Vif) : Prop :=
  x ∈ w.held ∨ (w.existing.get? x.id = some x.vlanId ∧ w.Filed x.id)

/-- Where a port is filed, with those of held VIFs first. -/
def World.places (w : World) : List PortId :=
  w.held.map Vif.id ++ (w.available.map Prod.snd ++ w.recyclable.keys)

/-- Every port is filed once, and has one VIF. -/
structure Books (w : World) : Prop where
  once : w.places.Nodup
  agree : ∀ x ∈ w.held, ∀ v, w.existing.get? x.id = some v → v = x.vlanId
  known : (∀ p ∈ w.places, p ∈ w.known) ∧ (∀ p ∈ w.existing.keys, p ∈ w.known) ∧
    (∀ p ∈ w.ports, p ∈ w.known) ∧ ∀ s ∈ w.subports, s.1 ∈ w.known

structure Sound (w : World) : Prop extends Books w where
  reserved : ∀ x, w.Uses x → x.vlanId ∈ w.reserved
  distinct : ∀ x y, w.Uses x → w.Uses y → x.vlanId = y.vlanId → x.id = y.id
  attached : ∀ s ∈ w.subports, ∀ x, w.Uses x → s.2 = x.vlanId → s.1 = x.id

variable {w w' : World}

theorem mem_places {p : PortId} :
    p ∈ w.places ↔ (∃ x ∈ w.held, x.id = p) ∨ w.Filed p := by
  simp [World.places, World.Filed]

/-- A held port is in no pool. -/
theorem Books.not_filed (h : Books w) {x : Vif} (hx : x ∈ w.held) : ¬ w.Filed x.id := by
  intro hfiled
  have hdisjoint := (List.nodup_append.mp h.once).2.2
  have hmem : x.id ∈ w.available.map Prod.snd ++ w.recyclable.keys := by
    rcases hfiled with h | h
    · exact List.mem_append_left _ h
    · exact List.mem_append_right _ h
  exact hdisjoint x.id (List.mem_map.mpr ⟨x, hx, rfl⟩) x.id hmem rfl

/-- A port has one VIF in use. -/
theorem Books.unique (h : Books w) {x y : Vif} (hx : w.Uses x) (hy : w.Uses y)
    (hid : x.id = y.id) : x = y := by
  have hvlan : x.vlanId = y.vlanId → x = y := by
    intro hv
    cases x
    cases y
    cases hid
    cases hv
    rfl
  rcases hx with hx | ⟨hx, hxf⟩ <;> rcases hy with hy | ⟨hy, hyf⟩
  · have hnodup : (w.held.map Vif.id).Nodup := (List.nodup_append.mp h.once).1
    exact List.inj_on_of_nodup_map hnodup hx hy hid
  · exact absurd (hid ▸ hyf) (h.not_filed hx)
  · exact absurd (hid ▸ hxf) (h.not_filed hy)
  · rw [hid, hy] at hx
    exact hvlan (Option.some.inj hx).symm

theorem Uses.known (h : Books w) {x : Vif} (hx : w.Uses x) : x.id ∈ w.known := by
  refine h.known.1 _ (mem_places.mpr ?_)
  rcases hx with hx | ⟨-, hx⟩
  · exact .inl ⟨x, hx, rfl⟩
  · exact .inr hx

/-- What a step has to say about the ids when it brings no new VIF into use. -/
theorem Sound.mono (hs : Sound w) (hbooks : Books w') (huses : ∀ x, w'.Uses x → w.Uses x)
    (hreserved : ∀ x, w'.Uses x → x.vlanId ∈ w.reserved → x.vlanId ∈ w'.reserved)
    (hsubports : ∀ s ∈ w'.subports, s ∈ w.subports) : Sound w' where
  toBooks := hbooks
  reserved x hx := hreserved x hx (hs.reserved x (huses x hx))
  distinct x y hx hy := hs.distinct x y (huses x hx) (huses y hy)
  attached s hsub x hx := hs.attached s (hsubports s hsub) x (huses x hx)

/-! ## Ids and subports -/

/-- The pools and the pods are as before. -/
structure SameBooks (w w' : World) : Prop where
  existing : w'.existing = w.existing
  available : w'.available = w.available
  recyclable : w'.recyclable = w.recyclable
  held : w'.held = w.held
  given : w'.given = w.given

theorem SameBooks.refl (w : World) : SameBooks w w := ⟨rfl, rfl, rfl, rfl, rfl⟩

theorem SameBooks.trans {w'' : World} (h : SameBooks w w') (h' : SameBooks w' w'') :
    SameBooks w w'' :=
  ⟨h'.existing.trans h.existing, h'.available.trans h.available,
    h'.recyclable.trans h.recyclable, h'.held.trans h.held, h'.given.trans h.given⟩

theorem SameBooks.uses (h : SameBooks w w') (x : Vif) : w'.Uses x ↔ w.Uses x := by
  simp only [World.Uses, World.Filed, h.existing, h.available, h.recyclable, h.held]

theorem SameBooks.places (h : SameBooks w w') : w'.places = w.places := by
  simp only [World.places, h.available, h.recyclable, h.held]

/-- A step outside the books. -/
theorem SameBooks.books (h : SameBooks w w') (hb : Books w) (hknown : w.known ⊆ w'.known)
    (hports : ∀ p ∈ w'.ports, p ∈ w'.known) (hsub : ∀ s ∈ w'.subports, s.1 ∈ w'.known) :
    Books w' where
  once := h.places ▸ hb.once
  agree x hx v hv := by
    rw [h.held] at hx
    rw [h.existing] at hv
    exact hb.agree x hx v hv
  known := by
    refine ⟨fun p hp => hknown (hb.known.1 p (h.places ▸ hp)), fun p hp => ?_, hports, hsub⟩
    rw [h.existing] at hp
    exact hknown (hb.known.2.1 p hp)

/-- A step outside the books that adds no subport keeps the ids, if it keeps reserved
what is in use. -/
theorem Sound.outside (hs : Sound w) (hsame : SameBooks w w') (hknown : w.known ⊆ w'.known)
    (hports : ∀ p ∈ w'.ports, p ∈ w'.known) (hsub : ∀ s ∈ w'.subports, s ∈ w.subports)
    (hreserved : ∀ x, w.Uses x → x.vlanId ∈ w.reserved → x.vlanId ∈ w'.reserved) : Sound w' :=
  hs.mono (hsame.books hs.toBooks hknown hports fun s h => hknown (hs.known.2.2.2 s (hsub s h)))
    (fun x => (hsame.uses x).mp) (fun x hx => hreserved x ((hsame.uses x).mp hx)) hsub

theorem Sound.reserve (hs : Sound w) (v : Nat) : Sound (w.reserve v) :=
  hs.outside ⟨rfl, rfl, rfl, rfl, rfl⟩ (fun _ h => h) hs.known.2.2.1 (fun _ h => h)
    fun _ _ hx => List.mem_cons_of_mem _ hx

/-- An id that no VIF in use has may be released. -/
theorem Sound.release (hs : Sound w) {v : Nat} (hv : ∀ x, w.Uses x → x.vlanId ≠ v) :
    Sound (w.release v) :=
  hs.outside ⟨rfl, rfl, rfl, rfl, rfl⟩ (fun _ h => h) hs.known.2.2.1 (fun _ h => h)
    fun x hx hmem => List.mem_filter.mpr ⟨hmem, by simpa using hv x hx⟩

theorem Sound.releaseAll {ids : List Nat} : ∀ {w : World}, Sound w →
    (∀ v ∈ ids, ∀ x, w.Uses x → x.vlanId ≠ v) → Sound (w.releaseAll ids) ∧
      SameBooks w (w.releaseAll ids) := by
  induction ids with
  | nil => exact fun hs _ => ⟨hs, .refl _⟩
  | cons v ids ih =>
    intro w hs hv
    have hsame : SameBooks w (w.release v) := ⟨rfl, rfl, rfl, rfl, rfl⟩
    obtain ⟨hsound, hsame'⟩ := ih (hs.release (hv v List.mem_cons_self)) fun u hu x hx =>
      hv u (List.mem_cons_of_mem _ hu) x ((hsame.uses x).mp hx)
    exact ⟨hsound, hsame.trans hsame'⟩

theorem Sound.createPorts (hs : Sound w) (ports : List PortId) : Sound (w.createPorts ports) := by
  refine hs.outside ⟨rfl, rfl, rfl, rfl, rfl⟩ (List.subset_append_left _ _) (fun p hp => ?_)
    (fun _ h => h) fun _ _ hx => hx
  rcases List.mem_append.mp hp with hp | hp
  · exact List.mem_append_left _ (hs.known.2.2.1 p hp)
  · exact List.mem_append_right _ hp

/-- What `delete_port` does. -/
theorem deletePort_eq_ok {answer : Option Sdk} {port : PortId}
    (h : deletePort answer port w = .ok w') :
    w' = { w with ports := w.ports.filter (· ≠ port) } := by
  unfold deletePort at h
  split at h
  · cases h
  · split at h
    · cases h
    · cases h
      rfl

theorem Sound.deletePort {answer : Option Sdk} {port : PortId} (hs : Sound w)
    (h : deletePort answer port w = .ok w') : Sound w' ∧ SameBooks w w' := by
  cases deletePort_eq_ok h
  refine ⟨hs.outside ⟨rfl, rfl, rfl, rfl, rfl⟩ (fun _ h => h) (fun p hp => ?_) (fun _ h => h)
    fun _ _ h => h, ⟨rfl, rfl, rfl, rfl, rfl⟩⟩
  exact hs.known.2.2.1 p (List.mem_filter.mp hp).1

theorem Sound.deletePorts {answer : PortId → Option Sdk} : ∀ {ports : List PortId} {w : World},
    Sound w → Sound (deletePorts answer ports w) ∧ SameBooks w (deletePorts answer ports w)
  | [], _, hs => ⟨hs, .refl _⟩
  | port :: ports, w, hs => by
    unfold NestedVlan.deletePorts
    rw [List.foldl_cons]
    cases hd : NestedVlan.deletePort (answer port) port w with
    | error e => exact Sound.deletePorts hs
    | ok w₁ =>
      obtain ⟨hs₁, hsame₁⟩ := hs.deletePort hd
      have hrest : Sound (NestedVlan.deletePorts answer ports w₁) ∧ _ := Sound.deletePorts hs₁
      exact ⟨hrest.1, hsame₁.trans hrest.2⟩

/-- What `_remove_subports` does: subports go, or nothing happens. -/
theorem removeSubports_eq_ok {answer : Option Sdk} {ids : List PortId}
    (h : removeSubports answer ids w = .ok w') :
    w' = w ∨ w' = { w with subports := w.subports.filter fun s => s.1 ∉ ids } := by
  unfold removeSubports deleteTrunkSubports at h
  cases answer with
  | some e =>
    cases e with
    | notFound =>
      dsimp only at h
      split at h
      · cases h
      · cases h
        exact .inl rfl
    | conflict => cases h
    | other => cases h
  | none =>
    dsimp only at h
    split at h
    · next hok =>
      split at hok
      · cases hok
        cases h
        exact .inr rfl
      · cases hok
    · split at h
      · cases h
      · cases h
        exact .inl rfl
    · next hne =>
      split at hne
      · cases hne
      · next heq =>
        cases hne
        exact absurd rfl (by assumption)

theorem Sound.removeSubports {answer : Option Sdk} {ids : List PortId} (hs : Sound w)
    (h : removeSubports answer ids w = .ok w') : Sound w' ∧ SameBooks w w' := by
  rcases removeSubports_eq_ok h with rfl | rfl
  · exact ⟨hs, .refl _⟩
  · exact ⟨hs.outside ⟨rfl, rfl, rfl, rfl, rfl⟩ (fun _ h => h) hs.known.2.2.1
      (fun s hsub => (List.mem_filter.mp hsub).1) fun _ _ h => h, ⟨rfl, rfl, rfl, rfl, rfl⟩⟩

theorem addTrunkSubports_eq_ok {answer : Option Sdk} {subs : List (PortId × Nat)}
    (h : addTrunkSubports answer subs w = .ok w') :
    w' = { w with subports := w.subports ++ subs } ∧
      ∀ s ∈ subs, s.1 ∈ w.ports ∧ s.2 ∉ w.inUseVlanIds := by
  unfold addTrunkSubports at h
  split at h
  · cases h
  · split at h
    · cases h
    · next hfree =>
      split at h
      · cases h
      · next hports =>
        cases h
        refine ⟨rfl, fun s hsub => ⟨?_, fun hin => hfree ⟨s, hsub, .inr hin⟩⟩⟩
        by_contra hport
        exact hports ⟨s, hsub, hport⟩

/-- A subport may be attached with an id that is free, or its own. -/
theorem Sound.addTrunkSubports {answer : Option Sdk} {subs : List (PortId × Nat)} (hs : Sound w)
    (h : addTrunkSubports answer subs w = .ok w')
    (hown : ∀ s ∈ subs, ∀ x, w.Uses x → s.2 = x.vlanId → s.1 = x.id) :
    Sound w' ∧ SameBooks w w' := by
  obtain ⟨rfl, hsubs⟩ := addTrunkSubports_eq_ok h
  have hsame : SameBooks w { w with subports := w.subports ++ subs } := ⟨rfl, rfl, rfl, rfl, rfl⟩
  refine ⟨⟨hsame.books hs.toBooks (fun _ h => h) hs.known.2.2.1 ?_,
    hs.reserved, hs.distinct, ?_⟩, hsame⟩
  · intro s hsub
    rcases List.mem_append.mp hsub with hsub | hsub
    · exact hs.known.2.2.2 s hsub
    · exact hs.known.2.2.1 _ (hsubs s hsub).1
  · intro s hsub x hx
    rcases List.mem_append.mp hsub with hsub | hsub
    · exact hs.attached s hsub x hx
    · exact hown s hsub x hx

/-- An id the allocator picks is the id of no VIF in use. -/
theorem Sound.not_picked (hs : Sound w) {alloc : Allocator} {inUse : List Nat} {v : Nat}
    (h : alloc.pick w.reserved inUse = some v) : ∀ x, w.Uses x → x.vlanId ≠ v := by
  rintro x hx rfl
  exact (alloc.fresh h).1 (hs.reserved x hx)

/-- A new subport: whatever fails, the invariant stays, and on success the id is reserved
for this port alone. -/
theorem addSubport_sound {alloc : Allocator} {out : Attaching} {port : PortId} :
    ∀ {left attempt : Nat} {w w' : World} {r : Except Raised Nat},
      addSubport alloc out port none left attempt w = (w', r) → Sound w →
      Sound w' ∧ SameBooks w w' ∧ w'.known = w.known ∧
        ∀ v, r = .ok v → v ∈ w'.reserved ∧ (∀ x, w.Uses x → x.vlanId ≠ v) ∧
          ∀ s ∈ w'.subports, s.2 = v → s.1 = port
  | 0, _, w, w', r, h, hs => by
    cases h
    exact ⟨hs, .refl _, rfl, fun v hv => by cases hv⟩
  | left + 1, attempt, w, w', r, h, hs => by
    have hdone : ∀ {e : Raised}, Sound w ∧ SameBooks w w ∧ w.known = w.known ∧
        ∀ v, (Except.error e : Except Raised Nat) = .ok v → v ∈ w.reserved ∧
          (∀ x, w.Uses x → x.vlanId ≠ v) ∧ ∀ s ∈ w.subports, s.2 = v → s.1 = port :=
      ⟨hs, .refl _, rfl, fun v hv => by cases hv⟩
    rw [addSubport, attemptVlanId] at h
    cases htrunk : out.trunk attempt with
    | false =>
      rw [htrunk] at h
      cases h
      exact hdone
    | true =>
      rw [htrunk] at h
      cases hpick : alloc.pick w.reserved w.inUseVlanIds with
      | none =>
        rw [hpick] at h
        cases h
        exact hdone
      | some v =>
        rw [hpick] at h
        simp only [Bool.not_true, Bool.false_eq_true, if_false] at h
        have hfree := hs.not_picked hpick
        have hs₁ : Sound (w.reserve v) := hs.reserve v
        have hsame₁ : SameBooks w (w.reserve v) := ⟨rfl, rfl, rfl, rfl, rfl⟩
        cases hadd : addTrunkSubports (attemptAnswer out attempt) [(port, v)] (w.reserve v) with
        | ok w₂ =>
          rw [hadd] at h
          cases h
          obtain ⟨hs₂, hsame₂⟩ := hs₁.addTrunkSubports hadd fun s hsub x hx hv => by
            rw [List.mem_singleton] at hsub
            subst hsub
            exact absurd hv.symm (hfree x ((hsame₁.uses x).mp hx))
          obtain ⟨rfl, hsubs⟩ := addTrunkSubports_eq_ok hadd
          refine ⟨hs₂, hsame₁.trans hsame₂, rfl, fun u hu => ?_⟩
          cases hu
          refine ⟨List.mem_cons_self, hfree, fun s hsub hv => ?_⟩
          rcases List.mem_append.mp hsub with hsub | hsub
          · -- Neutron attached the id, so no earlier subport has it
            exact absurd (List.mem_map.mpr ⟨s, hsub, hv⟩) (hsubs _ (List.mem_singleton_self _)).2
          · rw [List.mem_singleton] at hsub
            rw [hsub]
        | error e =>
          rw [hadd] at h
          cases e with
          | conflict =>
            obtain ⟨hs₂, hsame₂, hknown, hok⟩ := addSubport_sound h hs₁
            exact ⟨hs₂, hsame₁.trans hsame₂, hknown, hok⟩
          | notFound =>
            cases h
            exact ⟨hs₁.release hfree, ⟨rfl, rfl, rfl, rfl, rfl⟩, rfl, fun u hu => by cases hu⟩
          | other =>
            cases h
            exact ⟨hs₁.release hfree, ⟨rfl, rfl, rfl, rfl, rfl⟩, rfl, fun u hu => by cases hu⟩

/-- A VIF comes into use: its id is reserved and free, on the trunk as well. -/
theorem Sound.bring (hs : Sound w) (hbooks : Books w') {x : Vif}
    (huses : ∀ y, w'.Uses y → w.Uses y ∨ y = x) (hreserved : w'.reserved = w.reserved)
    (hsubports : w'.subports = w.subports) (hx : x.vlanId ∈ w.reserved)
    (hfree : ∀ y, w.Uses y → y.vlanId ≠ x.vlanId)
    (htrunk : ∀ s ∈ w.subports, s.2 = x.vlanId → s.1 = x.id) : Sound w' where
  toBooks := hbooks
  reserved y hy := by
    rw [hreserved]
    rcases huses y hy with hy | rfl
    · exact hs.reserved y hy
    · exact hx
  distinct y z hy hz hv := by
    rcases huses y hy with hy | rfl <;> rcases huses z hz with hz | rfl
    · exact hs.distinct y z hy hz hv
    · exact absurd hv (hfree y hy)
    · exact absurd hv.symm (hfree z hz)
    · rfl
  attached s hsub y hy hv := by
    rw [hsubports] at hsub
    rcases huses y hy with hy | rfl
    · exact hs.attached s hsub y hy hv
    · exact htrunk s hsub hv

/-- A port that no VIF, pool or pod has heard of. -/
structure New (w : World) (port : PortId) : Prop where
  known : port ∈ w.known
  places : port ∉ w.places
  existing : w.existing.get? port = none

theorem Books.hold (hb : Books w) {x : Vif} (hx : New w x.id) : Books (w.hold x) where
  once := by
    have hperm : (w.hold x).places.Perm (x.id :: w.places) := by
      rw [World.places, World.hold, List.map_append]
      exact List.perm_append_singleton x.id _ |>.append_right _
    exact hperm.nodup_iff.mpr (List.nodup_cons.mpr ⟨hx.places, hb.once⟩)
  agree y hy v hv := by
    rcases List.mem_append.mp hy with hy | hy
    · exact hb.agree y hy v hv
    · rw [List.mem_singleton] at hy
      subst hy
      rw [show (w.hold y).existing = w.existing from rfl, hx.existing] at hv
      cases hv
  known := by
    refine ⟨fun p hp => ?_, hb.known.2⟩
    rcases mem_places.mp hp with ⟨y, hy, rfl⟩ | hfiled
    · rcases List.mem_append.mp hy with hy | hy
      · exact hb.known.1 _ (mem_places.mpr (.inl ⟨y, hy, rfl⟩))
      · rw [List.mem_singleton] at hy
        subst hy
        exact hx.known
    · exact hb.known.1 p (mem_places.mpr (.inr hfiled))

theorem Sound.hold (hs : Sound w) {x : Vif} (hnew : New w x.id) (hx : x.vlanId ∈ w.reserved)
    (hfree : ∀ y, w.Uses y → y.vlanId ≠ x.vlanId)
    (htrunk : ∀ s ∈ w.subports, s.2 = x.vlanId → s.1 = x.id) : Sound (w.hold x) := by
  refine hs.bring (hs.toBooks.hold hnew) (fun y hy => ?_) rfl rfl hx hfree htrunk
  rcases hy with hy | hy
  · rcases List.mem_append.mp hy with hy | hy
    · exact .inl (.inl hy)
    · exact .inr (List.mem_singleton.mp hy)
  · exact .inl (.inr hy)

/-! ## Requests for VIFs -/

theorem New.of_fresh (hb : Books w) {p : PortId} (hp : p ∉ w.known) (hsame : SameBooks w w')
    (hknown : p ∈ w'.known) : New w' p where
  known := hknown
  places h := hp (hb.known.1 p (hsame.places ▸ h))
  existing := by
    rw [hsame.existing, Dict.get?_eq_none]
    exact fun h => hp (hb.known.2.1 p h)

theorem requestVif_sound {alloc : Allocator} {out : Requesting} {r : Except Raised Vif}
    (hs : Sound w) (hfresh : Fresh w [out.port]) (h : requestVif alloc out w = (w', r)) :
    Sound w' ∧ ∀ vif, r = .ok vif → Sound (w'.hold vif) := by
  unfold requestVif at h
  split at h
  · cases h
    exact ⟨hs, fun vif hv => by cases hv⟩
  · split at h
    · cases h
      exact ⟨hs, fun vif hv => by cases hv⟩
    · have hs₁ : Sound (w.createPorts [out.port]) := hs.createPorts _
      have hsame₁ : SameBooks w (w.createPorts [out.port]) := ⟨rfl, rfl, rfl, rfl, rfl⟩
      dsimp only at h
      split at h
      · split at h
        · cases h
          exact ⟨hs₁, fun vif hv => by cases hv⟩
        · next hdelete =>
          cases h
          exact ⟨(hs₁.deletePort hdelete).1, fun vif hv => by cases hv⟩
      · split at h
        · next hadd =>
          cases h
          exact ⟨(addSubport_sound hadd hs₁).1, fun vif hv => by cases hv⟩
        · next w₂ v hadd =>
          cases h
          obtain ⟨hs₂, hsame₂, hknown, hok⟩ := addSubport_sound hadd hs₁
          obtain ⟨hreserved, hfree, htrunk⟩ := hok v rfl
          refine ⟨hs₂, fun vif hv => ?_⟩
          cases hv
          have hnew : New w' out.port := by
            refine New.of_fresh hs.toBooks (hfresh.2 _ (List.mem_singleton_self _))
              (hsame₁.trans hsame₂) ?_
            rw [hknown]
            exact List.mem_append_right _ (List.mem_singleton_self _)
          exact hs₂.hold hnew hreserved (fun y hy => hfree y ((hsame₂.uses y).mp hy)) htrunk

/-- Ids reserved one after the other. -/
def World.reserveAll (w : World) (ids : List Nat) : World :=
  { w with reserved := ids.reverse ++ w.reserved }

/-- The ids that `_create_subports_info` reserves. -/
theorem createSubportsInfo_eq {alloc : Allocator} : ∀ {n : Nat} {inUse : List Nat} {w w' : World}
    {ids : List Nat}, createSubportsInfo alloc n inUse w = (w', ids) →
    w' = w.reserveAll ids ∧ ids.Nodup ∧ ids.length ≤ n ∧
      ∀ v ∈ ids, v ∉ w.reserved ∧ v ∉ inUse
  | 0, _, _, _, _, h => by
    cases h
    simp [World.reserveAll]
  | n + 1, inUse, w, w', ids, h => by
    rw [createSubportsInfo] at h
    split at h
    · cases h
      simp [World.reserveAll]
    · next v hpick =>
      cases hrest : createSubportsInfo alloc n (v :: inUse) (w.reserve v) with
      | mk w₁ rest =>
        rw [hrest] at h
        cases h
        obtain ⟨rfl, hnodup, hlen, hids⟩ := createSubportsInfo_eq hrest
        have hv : v ∉ rest := fun hmem => (hids v hmem).1 List.mem_cons_self
        refine ⟨?_, List.nodup_cons.mpr ⟨hv, hnodup⟩, Nat.succ_le_succ hlen, fun u hu => ?_⟩
        · simp [World.reserve, World.reserveAll]
        · rcases List.mem_cons.mp hu with rfl | hu
          · exact alloc.fresh hpick
          · obtain ⟨hres, huse⟩ := hids u hu
            refine ⟨fun h => hres (List.mem_cons_of_mem _ h), fun h => huse ?_⟩
            exact List.mem_cons_of_mem _ h

/-- Reserving some ids keeps the invariant. -/
theorem Sound.reserveAll (hs : Sound w) (ids : List Nat) :
    Sound (w.reserveAll ids) :=
  hs.outside ⟨rfl, rfl, rfl, rfl, rfl⟩ (fun _ h => h) hs.known.2.2.1 (fun _ h => h)
    fun _ _ hx => List.mem_append_right _ hx

theorem deleteUnbound_sound {answer : PortId → Option Sdk} : ∀ {ports : List PortId}
    {w w' : World} {e : Raised}, deleteUnbound answer ports w = (w', e) → Sound w → Sound w'
  | [], _, _, _, h, hs => by
    cases h
    exact hs
  | port :: ports, w, w', e, h, hs => by
    rw [deleteUnbound] at h
    split at h
    · cases h
      exact hs
    · next hdelete => exact deleteUnbound_sound h (hs.deletePort hdelete).1

theorem places_file (key : PoolKey) (x : Vif) :
    (w.file key x).places.Perm (x.id :: w.places) := by
  simp only [World.places, World.file, List.map_append, List.map_cons, List.map_nil,
    List.append_assoc]
  have hinner : (w.available.map Prod.snd ++ ([x.id] ++ w.recyclable.keys)).Perm
      (x.id :: (w.available.map Prod.snd ++ w.recyclable.keys)) := List.perm_middle
  exact (hinner.append_left _).trans List.perm_middle

theorem Books.file (hb : Books w) {key : PoolKey} {x : Vif} (hx : New w x.id) :
    Books (w.file key x) where
  once := (places_file key x).nodup_iff.mpr (List.nodup_cons.mpr ⟨hx.places, hb.once⟩)
  agree y hy v hv := by
    have hne : y.id ≠ x.id := fun h => hx.places (mem_places.mpr (.inl ⟨y, hy, h⟩))
    rw [World.file, Dict.set, Dict.get?_upsert_of_ne _ _ hne] at hv
    exact hb.agree y hy v hv
  known := by
    refine ⟨fun p hp => ?_, fun p hp => ?_, hb.known.2.2⟩
    · rcases List.mem_cons.mp ((places_file key x).mem_iff.mp hp) with rfl | hp
      · exact hx.known
      · exact hb.known.1 p hp
    · rcases Dict.mem_keys_upsert.mp hp with rfl | hp
      · exact hx.known
      · exact hb.known.2.1 p hp

/-- A port stays new while others are filed. -/
theorem New.file {key : PoolKey} {x : Vif} {p : PortId} (hp : New w p) (hne : p ≠ x.id) :
    New (w.file key x) p where
  known := hp.known
  places h := by
    rcases List.mem_cons.mp ((places_file key x).mem_iff.mp h) with h | h
    · exact hne h
    · exact hp.places h
  existing := by
    rw [World.file, Dict.set, Dict.get?_upsert_of_ne _ _ hne]
    exact hp.existing

/-- Filing brings just the VIF into use. -/
theorem file_uses {key : PoolKey} {x y : Vif} (hx : New w x.id) (hy : (w.file key x).Uses y) :
    w.Uses y ∨ y = x := by
  rcases hy with hy | ⟨hget, hfiled⟩
  · exact .inl (.inl hy)
  · by_cases hid : y.id = x.id
    · right
      rw [World.file, Dict.set, hid, Dict.get?_upsert_self] at hget
      cases x
      cases y
      cases hid
      cases hget
      rfl
    · left
      rw [World.file, Dict.set, Dict.get?_upsert_of_ne _ _ hid] at hget
      refine .inr ⟨hget, ?_⟩
      rcases hfiled with hfiled | hrecyclable
      · rw [World.file, List.map_append, List.mem_append] at hfiled
        rcases hfiled with hfiled | hfiled
        · exact .inl hfiled
        · rw [List.map_singleton, List.mem_singleton] at hfiled
          exact absurd hfiled hid
      · exact .inr hrecyclable

/-- The VIFs of new subports are filed one by one. -/
theorem foldl_file_sound {key : PoolKey} : ∀ {subs : List (PortId × Nat)} {w : World}, Sound w →
    (subs.map Prod.fst).Nodup → (subs.map Prod.snd).Nodup →
    (∀ s ∈ subs, New w s.1 ∧ s.2 ∈ w.reserved ∧ (∀ y, w.Uses y → y.vlanId ≠ s.2) ∧
      ∀ t ∈ w.subports, t.2 = s.2 → t.1 = s.1) →
    Sound ((subs.map fun s => (⟨s.1, s.2⟩ : Vif)).foldl (fun w vif => w.file key vif) w)
  | [], _, hs, _, _, _ => hs
  | s :: subs, w, hs, hports, hids, hsubs => by
    rw [List.map_cons, List.nodup_cons] at hports hids
    obtain ⟨hnew, hreserved, hfree, htrunk⟩ := hsubs s List.mem_cons_self
    have hs₁ : Sound (w.file key ⟨s.1, s.2⟩) :=
      hs.bring (hs.toBooks.file hnew) (fun y hy => file_uses hnew hy) rfl rfl hreserved hfree htrunk
    rw [List.map_cons, List.foldl_cons]
    refine foldl_file_sound hs₁ hports.2 hids.2 fun t ht => ?_
    obtain ⟨hnewt, hreservedt, hfreet, htrunkt⟩ := hsubs t (List.mem_cons_of_mem _ ht)
    have hne : t.1 ≠ s.1 := fun h => hports.1 (h ▸ List.mem_map.mpr ⟨t, ht, rfl⟩)
    have hnev : t.2 ≠ s.2 := fun h => hids.1 (h ▸ List.mem_map.mpr ⟨t, ht, rfl⟩)
    refine ⟨hnewt.file hne, hreservedt, fun y hy => ?_, htrunkt⟩
    rcases file_uses hnew hy with hy | rfl
    · exact hfreet y hy
    · exact hnev.symm

/-- What `_create_subports_info` picks, when it picks anything. -/
structure Picked (out : Creation) (w : World) (ids : List Nat) : Prop where
  some : ids ≠ []
  nodup : ids.Nodup
  length : ids.length ≤ out.numPorts
  ids : ∀ v ∈ ids, v ∉ w.reserved ∧ v ∉ w.inUseVlanIds

/-- The ways `request_vifs` ends, with the ids it reserved and the ports it created. -/
inductive VifsRequested (out : Creation) (w : World) : World → Except Raised (List Vif) → Prop where
  | nothing {r : Except Raised (List Vif)} : (∀ vifs, r = .ok vifs → vifs = []) →
      VifsRequested out w w r
  | notCreated {ids : List Nat} {e : Sdk} : Picked out w ids → out.create = some e →
      VifsRequested out w ((w.reserveAll ids).releaseAll ids) (.error (.sdk e))
  | unbound {ids : List Nat} {w' : World} {e : Raised} : Picked out w ids → out.create = none →
      out.bindingFailed = true →
      deleteUnbound out.delete (out.ports.take ids.length)
        ((w.reserveAll ids).createPorts (out.ports.take ids.length)) = (w', e) →
      VifsRequested out w w' (.error e)
  | notAdded {ids : List Nat} {e : Sdk} : Picked out w ids → out.create = none →
      out.bindingFailed = false →
      addTrunkSubports out.add ((out.ports.take ids.length).zip ids)
        ((w.reserveAll ids).createPorts (out.ports.take ids.length)) = .error e →
      VifsRequested out w ((deletePorts out.delete (out.ports.take ids.length)
        ((w.reserveAll ids).createPorts (out.ports.take ids.length))).releaseAll ids) (.ok [])
  | added {ids : List Nat} {w' : World} : Picked out w ids →
      addTrunkSubports out.add ((out.ports.take ids.length).zip ids)
        ((w.reserveAll ids).createPorts (out.ports.take ids.length)) = .ok w' →
      VifsRequested out w w'
        (.ok (((out.ports.take ids.length).zip ids).map fun s => ⟨s.1, s.2⟩))

theorem vifsRequested {alloc : Allocator} {out : Creation} {r : Except Raised (List Vif)}
    (h : requestVifs alloc out w = (w', r)) : VifsRequested out w w' r := by
  unfold requestVifs at h
  split at h
  · cases h
    exact .nothing fun _ hv => by cases hv
  split at h
  · cases h
    exact .nothing fun _ hv => by cases hv
  cases hc : createSubportsInfo alloc out.numPorts w.inUseVlanIds w with
  | mk w₁ ids =>
    rw [hc] at h
    obtain ⟨rfl, hnodup, hlen, hids⟩ := createSubportsInfo_eq hc
    dsimp only at h
    split at h
    · next hnil =>
      subst hnil
      cases h
      exact .nothing fun _ hv => (Except.ok.inj hv).symm
    · next hne =>
      have hpicked : Picked out w ids := ⟨hne, hnodup, hlen, hids⟩
      split at h
      · next hcreate =>
        cases h
        exact .notCreated hpicked hcreate
      · next hcreate =>
        split at h
        · next hbinding =>
          cases h
          exact .unbound hpicked hcreate hbinding rfl
        · next hbinding =>
          rw [Bool.not_eq_true] at hbinding
          split at h
          · next hadd =>
            cases h
            exact .notAdded hpicked hcreate hbinding hadd
          · next hadd =>
            cases h
            exact .added hpicked hadd

theorem Picked.free {out : Creation} {ids : List Nat} (h : Picked out w ids) (hs : Sound w) :
    ∀ v ∈ ids, ∀ x, w.Uses x → x.vlanId ≠ v := by
  rintro v hv x hx rfl
  exact (h.ids _ hv).1 (hs.reserved x hx)

/-- `request_vifs`, and the filing of the VIFs it returns. -/
theorem populatePool_sound {alloc : Allocator} {key : PoolKey} {out : Creation} (hs : Sound w)
    (hfresh : Fresh w out.ports) (hnum : out.numPorts ≤ out.ports.length) :
    Sound (populatePool alloc key out w) := by
  unfold populatePool
  cases hr : requestVifs alloc out w with
  | mk w' r =>
    have hcreated : ∀ ids, Sound ((w.reserveAll ids).createPorts (out.ports.take ids.length)) :=
      fun ids => (hs.reserveAll ids).createPorts _
    have hsame : ∀ ids, SameBooks w ((w.reserveAll ids).createPorts (out.ports.take ids.length)) :=
      fun ids => ⟨rfl, rfl, rfl, rfl, rfl⟩
    cases vifsRequested hr with
    | nothing hnone =>
      cases r with
      | error e => exact hs
      | ok vifs =>
        rw [hnone vifs rfl]
        exact hs
    | @notCreated ids e hpicked hcreate =>
      exact ((hs.reserveAll ids).releaseAll (hpicked.free hs)).1
    | @unbound ids _ e hpicked hcreate hbinding hd => exact deleteUnbound_sound hd (hcreated ids)
    | @notAdded ids e hpicked hcreate hbinding hadd =>
      have hdeleted : Sound (deletePorts out.delete (out.ports.take ids.length) _) ∧ _ :=
        Sound.deletePorts (hcreated ids)
      refine (hdeleted.1.releaseAll fun v hv x hx => hpicked.free hs v hv x ?_).1
      exact ((hsame ids).uses x).mp ((hdeleted.2.uses x).mp hx)
    | @added ids _ hpicked hadd =>
      obtain ⟨hs', hsame'⟩ := (hcreated ids).addTrunkSubports hadd fun s hsub x hx hv => by
        exact absurd hv.symm (hpicked.free hs s.2 (List.of_mem_zip hsub).2 x
          (((hsame ids).uses x).mp hx))
      obtain ⟨rfl, hattached⟩ := addTrunkSubports_eq_ok hadd
      have hports : (out.ports.take ids.length).Nodup := hfresh.1.sublist (List.take_sublist _ _)
      have hlength : (out.ports.take ids.length).length = ids.length := by
        rw [List.length_take]
        exact Nat.min_eq_left (hpicked.length.trans hnum)
      have hids : (((out.ports.take ids.length).zip ids).map Prod.snd).Nodup := by
        rw [List.map_snd_zip hlength.ge]
        exact hpicked.nodup
      have hfst : (((out.ports.take ids.length).zip ids).map Prod.fst).Nodup := by
        rw [List.map_fst_zip hlength.le]
        exact hports
      refine foldl_file_sound hs' hfst hids fun s hsub =>
        ⟨?_, ?_, fun y hy => ?_, fun t ht hv => ?_⟩
      · have hport := (List.of_mem_zip hsub).1
        exact New.of_fresh hs.toBooks (hfresh.2 _ (List.mem_of_mem_take hport))
          ((hsame ids).trans hsame') (List.mem_append_right _ hport)
      · exact List.mem_append_left _ (List.mem_reverse.mpr (List.of_mem_zip hsub).2)
      · exact hpicked.free hs s.2 (List.of_mem_zip hsub).2 y
          (((hsame ids).uses y).mp ((hsame'.uses y).mp hy))
      · rcases List.mem_append.mp ht with ht | ht
        · exact absurd (List.mem_map.mpr ⟨t, ht, hv⟩) (hattached s hsub).2
        · exact congrArg Prod.fst (List.inj_on_of_nodup_map hids ht hsub hv)

/-! ## The pools -/

/-- Places only go away, and no VIF is new. -/
theorem Books.shrink (hb : Books w) (hplaces : List.Subperm w'.places w.places)
    (hheld : ∀ x ∈ w'.held, ∀ v, w'.existing.get? x.id = some v → v = x.vlanId)
    (hknown : w'.known = w.known) (hexisting : ∀ p ∈ w'.existing.keys, p ∈ w.known)
    (hports : ∀ p ∈ w'.ports, p ∈ w.ports) (hsub : ∀ s ∈ w'.subports, s ∈ w.subports) :
    Books w' where
  once := by
    obtain ⟨l, hperm, hsublist⟩ := hplaces
    exact hperm.nodup_iff.mp (hb.once.sublist hsublist)
  agree := hheld
  known := by
    rw [hknown]
    exact ⟨fun p hp => hb.known.1 p (hplaces.subset hp), hexisting,
      fun p hp => hb.known.2.2.1 p (hports p hp), fun s hs => hb.known.2.2.2 s (hsub s hs)⟩

/-- A port that leaves its pool is given to a pod, or lost. -/
theorem getPortFromPool_sound (hs : Sound w) {key : PoolKey} {port : PortId} {updated : Bool}
    (hport : (key, port) ∈ w.available) : Sound (getPortFromPool key port updated w) := by
  have hperm : (w.available.map Prod.snd).Perm
      (port :: (w.available.erase (key, port)).map Prod.snd) :=
    (List.perm_cons_erase hport).map Prod.snd
  have hlost : Sound { w with available := w.available.erase (key, port) } := by
    have hfiled : ∀ p, World.Filed { w with available := w.available.erase (key, port) } p →
        w.Filed p := by
      rintro p (hp | hp)
      · exact .inl (hperm.mem_iff.mpr (List.mem_cons_of_mem _ hp))
      · exact .inr hp
    refine hs.mono (hs.toBooks.shrink ?_ hs.agree rfl hs.known.2.1 (fun _ h => h) fun _ h => h)
      (fun x hx => ?_) (fun _ _ h => h) fun _ h => h
    · refine List.Sublist.subperm (List.Sublist.append_left ?_ _)
      exact ((List.erase_sublist.map _).append_right _)
    · exact hx.imp_right fun h => ⟨h.1, hfiled _ h.2⟩
  unfold getPortFromPool
  dsimp only
  split
  · exact hlost
  · cases hget : w.existing.get? port with
    | none => exact hlost
    | some v =>
      have hused : w.Uses ⟨port, v⟩ := .inr ⟨hget, .inl (List.mem_map.mpr ⟨_, hport, rfl⟩)⟩
      have hplaces : (World.hold { w with available := w.available.erase (key, port) }
          ⟨port, v⟩).places.Perm w.places := by
        simp only [World.places, World.hold, List.map_append, List.map_cons, List.map_nil,
          List.append_assoc, List.singleton_append]
        exact (List.Perm.append_right _ hperm.symm).append_left _
      refine hs.mono (hs.toBooks.shrink hplaces.subperm ?_ rfl hs.known.2.1 (fun _ h => h)
        fun _ h => h) (fun x hx => ?_) (fun _ _ h => h) fun _ h => h
      · intro x hx u hu
        rcases List.mem_append.mp hx with hx | hx
        · exact hs.agree x hx u hu
        · rw [List.mem_singleton] at hx
          subst hx
          exact Option.some.inj (hu.symm.trans hget)
      · rcases hx with hx | hx
        · rcases List.mem_append.mp hx with hx | hx
          · exact .inl hx
          · rw [List.mem_singleton] at hx
            exact hx ▸ hused
        · refine .inr ⟨hx.1, ?_⟩
          rcases hx.2 with h | h
          · exact .inl (hperm.mem_iff.mpr (List.mem_cons_of_mem _ h))
          · exact .inr h

/-- A pod gives up a VIF. -/
theorem Sound.unhold (hs : Sound w) (vif : Vif) :
    Sound { w with held := w.held.filter (· ≠ vif) } := by
  have hheld : ∀ x ∈ w.held.filter (· ≠ vif), x ∈ w.held := fun x hx => (List.mem_filter.mp hx).1
  refine hs.mono (hs.toBooks.shrink ?_ (fun x hx => hs.agree x (hheld x hx)) rfl hs.known.2.1
    (fun _ h => h) fun _ h => h) (fun x hx => ?_) (fun _ _ h => h) fun _ h => h
  · exact ((List.filter_sublist.map _).append_right _).subperm
  · exact hx.imp_left (hheld x)

/-- The keys of a dictionary after an assignment. -/
theorem keys_set {κ ν : Type} [DecidableEq κ] (d : Dict κ ν) (k : κ) (v : ν) :
    (d.set k v).keys = if k ∈ d.keys then d.keys else d.keys ++ [k] :=
  Dict.upsertItems_keys k _ d.items

/-- A pod gives its VIF back to the pool. -/
theorem recycleVif_held (hs : Sound w) {key : PoolKey} {vif : Vif} (hvif : vif ∈ w.held) :
    Sound (recycleVif key vif w) := by
  have hnot : ¬ w.Filed vif.id := hs.toBooks.not_filed hvif
  have hkeys : (w.recyclable.set vif.id key).keys = w.recyclable.keys ++ [vif.id] := by
    rw [keys_set, if_neg fun h => hnot (.inr h)]
  have hother : ∀ x ∈ w.held, x ≠ vif → x.id ≠ vif.id := by
    intro x hx hne hid
    exact hne (hs.toBooks.unique (.inl hx) (.inl hvif) hid)
  have hexisting : ∀ p, p ≠ vif.id →
      (recycleVif key vif w).existing.get? p = w.existing.get? p := by
    intro p hp
    unfold recycleVif
    dsimp only
    split
    · rfl
    · exact Dict.get?_upsert_of_ne _ _ hp
  have hself : ∀ v, (recycleVif key vif w).existing.get? vif.id = some v → v = vif.vlanId := by
    intro v hv
    unfold recycleVif at hv
    dsimp only at hv
    split at hv
    · exact hs.agree vif hvif v hv
    · rw [Dict.set, Dict.get?_upsert_self] at hv
      exact (Option.some.inj hv).symm
  refine hs.mono (hs.toBooks.shrink ?_ ?_ rfl ?_ (fun _ h => h) fun _ h => h) ?_
    (fun _ _ h => h) fun _ h => h
  · have hheld : (w.held.map Vif.id).Perm (vif.id :: (w.held.filter (· ≠ vif)).map Vif.id) := by
      have hnodup : w.held.Nodup := (List.nodup_append.mp hs.once).1.of_map
      have herase : w.held.erase vif = w.held.filter (· ≠ vif) := by
        rw [hnodup.erase_eq_filter]
        refine List.filter_congr fun x _ => ?_
        by_cases hx : x = vif
        · simp [hx]
        · simp [hx]
      rw [← herase]
      exact (List.perm_cons_erase hvif).map Vif.id
    show List.Subperm ((w.held.filter (· ≠ vif)).map Vif.id ++
      (w.available.map Prod.snd ++ (w.recyclable.set vif.id key).keys)) w.places
    rw [hkeys, ← List.append_assoc, ← List.append_assoc]
    refine List.Perm.subperm ((List.perm_append_singleton vif.id _).trans ?_)
    rw [List.append_assoc]
    exact hheld.symm.append_right _
  · intro x hx v hv
    obtain ⟨hx, hne⟩ := List.mem_filter.mp hx
    rw [hexisting _ (hother x hx (by simpa using hne))] at hv
    exact hs.agree x hx v hv
  · intro p hp
    by_cases hid : p = vif.id
    · rw [hid]
      exact Uses.known hs.toBooks (.inl hvif)
    · refine hs.known.2.1 p ?_
      by_contra hno
      rw [← Dict.get?_eq_none, ← hexisting p hid, Dict.get?_eq_none] at hno
      exact hno hp
  · rintro x (hx | ⟨hget, hfiled⟩)
    · exact .inl (List.mem_filter.mp hx).1
    · by_cases hid : x.id = vif.id
      · left
        rw [hid] at hget
        have hvlan := hself _ hget
        cases x
        cases vif
        cases hid
        cases hvlan
        exact hvif
      · rw [hexisting _ hid] at hget
        refine .inr ⟨hget, ?_⟩
        rcases hfiled with h | h
        · exact .inl h
        · rw [show (recycleVif key vif w).recyclable = w.recyclable.set vif.id key from rfl, hkeys,
            List.mem_append, List.mem_singleton] at h
          exact .inr (h.resolve_right hid)

/-- The pool takes a VIF back that it already has to recycle. -/
theorem recycleVif_again (hs : Sound w) {key : PoolKey} {vif : Vif}
    (hvif : vif.id ∈ w.recyclable.keys) (hexisting : (w.existing.get? vif.id).isSome) :
    Sound (recycleVif key vif w) := by
  have hkeys : (w.recyclable.set vif.id key).keys = w.recyclable.keys := by
    rw [keys_set, if_pos hvif]
  have hw : recycleVif key vif w = { w with
      held := w.held.filter (· ≠ vif)
      recyclable := w.recyclable.set vif.id key } := by
    rw [recycleVif, if_pos hexisting]
  rw [hw]
  refine hs.mono (hs.toBooks.shrink ?_ (fun x hx => hs.agree x (List.mem_filter.mp hx).1) rfl
    hs.known.2.1 (fun _ h => h) fun _ h => h) (fun x hx => ?_) (fun _ _ h => h) fun _ h => h
  · show List.Subperm ((w.held.filter (· ≠ vif)).map Vif.id ++
      (w.available.map Prod.snd ++ (w.recyclable.set vif.id key).keys)) w.places
    rw [hkeys]
    exact ((List.filter_sublist.map _).append_right _).subperm
  · refine hx.imp (fun h => (List.mem_filter.mp h).1) fun h => ⟨h.1, h.2.imp_right fun h => ?_⟩
    rw [← hkeys]
    exact h

/-- What forgetting a VIF leaves as it was. -/
structure Forgot (w w' : World) : Prop where
  available : w'.available = w.available
  recyclable : w'.recyclable = w.recyclable
  held : w'.held = w.held

theorem forget_of_none {port : PortId} (h : w.existing.get? port = none) : w.forget port = w := by
  rw [World.forget, h]

/-- The VIF of a port that no pod holds is forgotten, and an id released that no other
VIF has. -/
theorem Sound.forgetAs (hs : Sound w) {port : PortId} {v : Nat}
    (hheld : ∀ x ∈ w.held, x.id ≠ port) (hown : ∀ x, w.Uses x → x.vlanId = v → x.id = port) :
    Sound { w.release v with existing := w.existing.erase port } ∧
      ∀ x, World.Uses { w.release v with existing := w.existing.erase port } x → w.Uses x := by
  have hgone : ∀ x, World.Uses { w.release v with existing := w.existing.erase port } x →
      w.Uses x ∧ x.id ≠ port := by
    rintro x (hx | ⟨hx, hxf⟩)
    · exact ⟨.inl hx, hheld x hx⟩
    · obtain ⟨hne, hx⟩ := Dict.get?_erase_eq_some.mp hx
      exact ⟨.inr ⟨hx, hxf⟩, hne⟩
  refine ⟨hs.mono ?_ (fun x hx => (hgone x hx).1) (fun x hx hmem => ?_) fun _ h => h,
    fun x hx => (hgone x hx).1⟩
  · refine hs.toBooks.shrink (List.Perm.refl _).subperm (fun x hx u hu => ?_) rfl (fun p hp => ?_)
      (fun _ h => h) fun _ h => h
    · exact hs.agree x hx u ((Dict.get?_erase_of_ne _ (hheld x hx)).symm.trans hu)
    · obtain ⟨u, hu⟩ := Dict.mem_keys.mp hp
      exact hs.known.2.1 p (Dict.mem_keys.mpr ⟨u, (Dict.mem_items_erase.mp hu).1⟩)
  · refine List.mem_filter.mpr ⟨hmem, ?_⟩
    have hne : x.vlanId ≠ v := fun h => (hgone x hx).2 (hown x (hgone x hx).1 h)
    simpa using hne

/-- A pool forgets the VIF of one of its ports, and releases its id. -/
theorem Sound.forget (hs : Sound w) {port : PortId} (hfiled : w.Filed port) :
    Sound (w.forget port) ∧ Forgot w (w.forget port) := by
  cases hget : w.existing.get? port with
  | none =>
    rw [forget_of_none hget]
    exact ⟨hs, rfl, rfl, rfl⟩
  | some v =>
    have hw : w.forget port = { w.release v with existing := w.existing.erase port } := by
      rw [World.forget, hget]
    rw [hw]
    refine ⟨(hs.forgetAs (fun x hx h => ?_) fun x hx hv => ?_).1, rfl, rfl, rfl⟩
    · exact hs.toBooks.not_filed hx (h ▸ hfiled)
    · exact hs.distinct x ⟨port, v⟩ hx (.inr ⟨hget, hfiled⟩) hv

/-- A port goes back to its pool. -/
theorem Sound.recycle (hs : Sound w) {port : PortId} {key : PoolKey}
    (hport : port ∈ w.recyclable.keys) :
    Sound { w.dropRecyclable port with available := w.available ++ [(key, port)] } := by
  obtain ⟨old, hold⟩ := Dict.mem_keys.mp hport
  have hkeys : w.recyclable.keys.Perm (port :: (w.recyclable.erase port).keys) :=
    (Dict.perm_of_get? (Dict.get?_eq_some.mpr hold)).map Prod.fst
  refine hs.mono (hs.toBooks.shrink ?_ hs.agree rfl hs.known.2.1 (fun _ h => h) fun _ h => h)
    (fun x hx => ?_) (fun _ _ h => h) fun _ h => h
  · simp only [World.places, World.dropRecyclable, List.map_append, List.map_cons, List.map_nil,
      List.append_assoc, List.singleton_append]
    exact ((hkeys.symm.append_left _).append_left _).subperm
  · refine hx.imp_right fun h => ⟨h.1, ?_⟩
    rcases h.2 with h | h
    · rw [List.map_append, List.mem_append] at h
      rcases h with h | h
      · exact .inl h
      · rw [List.map_singleton, List.mem_singleton] at h
        exact .inr (h ▸ hport)
    · exact .inr (hkeys.mem_iff.mpr (List.mem_cons_of_mem _ h))

theorem Sound.dropRecyclable (hs : Sound w) (port : PortId) : Sound (w.dropRecyclable port) := by
  have hkeys : (w.recyclable.erase port).keys.Sublist w.recyclable.keys :=
    List.filter_sublist.map _
  refine hs.mono (hs.toBooks.shrink ?_ hs.agree rfl hs.known.2.1 (fun _ h => h) fun _ h => h)
    (fun x hx => ?_) (fun _ _ h => h) fun _ h => h
  · exact ((hkeys.append_left _).append_left _).subperm
  · exact hx.imp_right fun h => ⟨h.1, h.2.imp_right fun h => hkeys.subset h⟩

/-- One iteration of `_trigger_return_to_pool` takes at most its own port out of those to
recycle. -/
theorem returnPort_sound {cfg : Config} {out : Recycling} {port : PortId} {key : PoolKey}
    {raised : Bool} (h : returnPort cfg out w port key = (w', raised)) (hs : Sound w)
    (hport : port ∈ w.recyclable.keys) :
    Sound w' ∧ ∀ p ∈ w.recyclable.keys, p ≠ port → p ∈ w'.recyclable.keys := by
  have hdrop : ∀ w₁ : World, w₁.recyclable = w.recyclable → ∀ p ∈ w.recyclable.keys, p ≠ port →
      p ∈ (w₁.dropRecyclable port).recyclable.keys := by
    intro w₁ hw₁ p hp hne
    obtain ⟨k, hk⟩ := Dict.mem_keys.mp hp
    rw [World.dropRecyclable, hw₁]
    exact Dict.mem_keys.mpr ⟨k, Dict.mem_items_erase.mpr ⟨hk, hne⟩⟩
  unfold returnPort at h
  split at h
  · split at h
    · cases h
      exact ⟨hs, fun _ hp _ => hp⟩
    · cases h
      exact ⟨hs.recycle hport, hdrop w rfl⟩
  split at h
  · cases h
    exact ⟨hs, fun _ hp _ => hp⟩
  split at h
  · cases h
    exact ⟨hs, fun _ hp _ => hp⟩
  next w₁ hremove =>
    obtain ⟨hs₁, hsame₁⟩ := hs.removeSubports hremove
    split at h
    · cases h
      exact ⟨hs₁.dropRecyclable port, hdrop w₁ hsame₁.recyclable⟩
    · obtain ⟨hs₂, hforgot⟩ : Sound (w₁.forget port) ∧ Forgot w₁ (w₁.forget port) :=
        hs₁.forget (.inr (hsame₁.recyclable ▸ hport))
      have hrec : (w₁.forget port).recyclable = w.recyclable :=
        hforgot.recyclable.trans hsame₁.recyclable
      split at h
      · cases h
        exact ⟨hs₂, fun p hp _ => hrec ▸ hp⟩
      · next hdelete =>
        cases h
        obtain ⟨hs₃, hsame₃⟩ := hs₂.deletePort hdelete
        exact ⟨hs₃.dropRecyclable port, hdrop _ (hsame₃.recyclable.trans hrec)⟩

theorem returnPorts_sound {cfg : Config} {out : Recycling} : ∀ {es : List (PortId × PoolKey)}
    {w w' : World} {raised : Bool}, returnPorts cfg out es w = (w', raised) → Sound w →
    (es.map Prod.fst).Nodup → (∀ e ∈ es, e.1 ∈ w.recyclable.keys) → Sound w'
  | [], _, _, _, h, hs, _, _ => by
    cases h
    exact hs
  | (port, key) :: es, w, w', raised, h, hs, hnodup, hes => by
    rw [List.map_cons, List.nodup_cons] at hnodup
    rw [returnPorts] at h
    cases hr : returnPort cfg out w port key with
    | mk w₁ stop =>
      obtain ⟨hs₁, hkeep⟩ := returnPort_sound hr hs (hes _ List.mem_cons_self)
      rw [hr] at h
      cases stop with
      | true =>
        cases h
        exact hs₁
      | false =>
        refine returnPorts_sound h hs₁ hnodup.2 fun e he => ?_
        refine hkeep _ (hes e (List.mem_cons_of_mem _ he)) fun heq => hnodup.1 ?_
        exact List.mem_map.mpr ⟨e, he, heq⟩

theorem triggerReturnToPool_sound {cfg : Config} {out : Recycling} {raised : Bool} (hs : Sound w)
    (h : triggerReturnToPool cfg out w = (w', raised)) : Sound w' := by
  unfold triggerReturnToPool at h
  split at h
  · cases h
    exact hs
  · exact returnPorts_sound h hs w.recyclable.nodup fun e he => List.mem_map.mpr ⟨e, he, rfl⟩

theorem foldl_forget_sound : ∀ {ports : List PortId} {w : World}, Sound w →
    (∀ p ∈ ports, p ∈ w.available.map Prod.snd) →
    Sound (ports.foldl World.forget w) ∧
      (ports.foldl World.forget w).available = w.available
  | [], _, hs, _ => ⟨hs, rfl⟩
  | port :: ports, w, hs, hports => by
    obtain ⟨hs₁, hforgot⟩ := hs.forget (.inl (hports port List.mem_cons_self))
    rw [List.foldl_cons]
    obtain ⟨hs₂, havailable⟩ := foldl_forget_sound hs₁ fun p hp => by
      rw [hforgot.available]
      exact hports p (List.mem_cons_of_mem _ hp)
    exact ⟨hs₂, havailable.trans hforgot.available⟩

/-- Ports leave the pools. -/
theorem Sound.unfile (hs : Sound w) {p : PoolKey × PortId → Bool} :
    Sound { w with available := w.available.filter p } := by
  have hsub : ((w.available.filter p).map Prod.snd).Sublist (w.available.map Prod.snd) :=
    List.filter_sublist.map _
  refine hs.mono (hs.toBooks.shrink ?_ hs.agree rfl hs.known.2.1 (fun _ h => h) fun _ h => h)
    (fun x hx => ?_) (fun _ _ h => h) fun _ h => h
  · exact ((hsub.append_right _).append_left _).subperm
  · exact hx.imp_right fun h => ⟨h.1, h.2.imp_left fun h => hsub.subset h⟩

theorem Sound.dropPool (hs : Sound w) (key : PoolKey) : Sound (w.dropPool key) := by
  refine Sound.unfile (foldl_forget_sound hs fun p hp => ?_).1
  obtain ⟨e, he, rfl⟩ := List.mem_map.mp hp
  exact List.mem_map.mpr ⟨e, (List.mem_filter.mp he).1, rfl⟩

theorem deletePools_sound {out : Recycling} : ∀ {keys : List PoolKey} {w w' : World}
    {ports : Option (List PortId)}, deletePools out keys w = (w', ports) → Sound w → Sound w'
  | [], _, _, _, h, hs => by
    cases h
    exact hs
  | key :: keys, w, w', ports, h, hs => by
    rw [deletePools] at h
    split at h
    · cases h
      exact hs
    split at h
    · cases h
      exact deletePools_sound rfl (hs.dropPool key)
    · cases h
      exact hs
    · next hremove =>
      cases h
      exact deletePools_sound rfl ((hs.removeSubports hremove).1.dropPool key)

theorem deleteNetworkPools_sound {cfg : Config} {out : Recycling} {keys : List PoolKey}
    (hs : Sound w) : Sound (deleteNetworkPools cfg out keys w) := by
  unfold deleteNetworkPools
  split
  · next htrigger => exact triggerReturnToPool_sound hs htrigger
  · next htrigger =>
    have hs₁ := triggerReturnToPool_sound hs htrigger
    split
    · next hpools => exact deletePools_sound hpools hs₁
    · next hpools => exact (deletePools_sound hpools hs₁).deletePorts.1

/-- One subport of `free_pool`, whose port no pod holds and whose id no other VIF has. -/
theorem freeSubport_sound {out : Freeing} {s : PortId × Nat} (hs : Sound w)
    (hheld : ∀ x ∈ w.held, x.id ∉ out.active ∨ x.id ∈ out.inUse)
    (hown : ∀ x, w.Uses x → s.2 = x.vlanId → s.1 = x.id) :
    Sound (freeSubport out w s) ∧ (∀ x, (freeSubport out w s).Uses x → w.Uses x) ∧
      (freeSubport out w s).held = w.held := by
  unfold freeSubport
  split
  · exact ⟨hs, fun _ h => h, rfl⟩
  next hlisted =>
    split
    · exact ⟨hs, fun _ h => h, rfl⟩
    next w₁ hremove =>
      obtain ⟨hs₁, hsame₁⟩ := hs.removeSubports hremove
      split
      · exact ⟨hs₁, fun x => (hsame₁.uses x).mp, hsame₁.held⟩
      next w₂ hdelete =>
        obtain ⟨hs₂, hsame₂⟩ := hs₁.deletePort hdelete
        have hsame : SameBooks w w₂ := hsame₁.trans hsame₂
        have hnot : ∀ x ∈ w₂.held, x.id ≠ s.1 := by
          intro x hx hid
          rw [hsame.held] at hx
          exact hlisted (hid ▸ hheld x hx)
        dsimp only
        split
        · next hnone =>
          -- nobody knows the port, so nobody uses its id
          refine ⟨hs₂.release fun x hx hv => ?_, fun x => (hsame.uses x).mp, hsame.held⟩
          have hid := hown x ((hsame.uses x).mp hx) hv.symm
          rcases hx with hx | ⟨hget, -⟩
          · exact hnot x hx hid.symm
          · rw [← hid] at hget
            rw [show (w₂.release s.2).existing = w₂.existing from rfl, hget] at hnone
            cases hnone
        · obtain ⟨hs₃, huses⟩ := hs₂.forgetAs hnot fun x hx hv =>
            (hown x ((hsame.uses x).mp hx) hv.symm).symm
          cases out.unfiled s.1 with
          | false => exact ⟨hs₃, fun x hx => (hsame.uses x).mp (huses x hx), hsame.held⟩
          | true =>
            refine ⟨hs₃.unfile, fun x hx => (hsame.uses x).mp (huses x ?_), hsame.held⟩
            refine hx.imp_right fun h => ⟨h.1, h.2.imp_left fun h => ?_⟩
            exact (List.filter_sublist.map _).subset h

theorem freeSubports_sound {out : Freeing} : ∀ {subs : List (PortId × Nat)} {w : World}, Sound w →
    (∀ x ∈ w.held, x.id ∉ out.active ∨ x.id ∈ out.inUse) →
    (∀ s ∈ subs, ∀ x, w.Uses x → s.2 = x.vlanId → s.1 = x.id) →
    Sound (subs.foldl (freeSubport out) w)
  | [], _, hs, _, _ => hs
  | s :: subs, w, hs, hheld, hown => by
    obtain ⟨hs₁, huses, hheld₁⟩ := freeSubport_sound hs hheld (hown s List.mem_cons_self)
    rw [List.foldl_cons]
    refine freeSubports_sound hs₁ (hheld₁ ▸ hheld) fun t ht x hx => ?_
    exact hown t (List.mem_cons_of_mem _ ht) x (huses x hx)

theorem freePool_sound {out : Freeing} (hs : Sound w)
    (hheld : ∀ x ∈ w.held, x.id ∉ out.active ∨ x.id ∈ out.inUse) : Sound (freePool out w) := by
  unfold freePool
  split
  · exact hs
  · dsimp only
    generalize out.active.filter _ = leftover
    obtain ⟨hs₁, hsame⟩ : Sound (deletePorts out.delete leftover w) ∧ _ := hs.deletePorts
    refine freeSubports_sound hs₁ (hsame.held ▸ hheld) fun s hsub x hx => ?_
    exact hs.attached s hsub x ((hsame.uses x).mp hx)

/-! ## Activation and release -/

/-- The release of a VIF: only a VIF in use with the same id could lose it. -/
theorem releaseVif_sound {out : Releasing} {vif : Vif} (hs : Sound w)
    (hvif : vif ∈ w.held ∨ ∀ x, w.Uses x → x.vlanId ≠ vif.vlanId) :
    Sound (releaseVif out vif w) := by
  have hs₁ := hs.unhold vif
  have hfree : ∀ x, World.Uses { w with held := w.held.filter (· ≠ vif) } x →
      x.vlanId ≠ vif.vlanId := by
    intro x hx hv
    have hxw : w.Uses x := hx.imp_left fun h => (List.mem_filter.mp h).1
    rcases hvif with hvif | hvif
    · have heq := hs.toBooks.unique hxw (.inl hvif) (hs.distinct x vif hxw (.inl hvif) hv)
      subst heq
      rcases hx with hx | hx
      · simpa using (List.mem_filter.mp hx).2
      · exact hs.toBooks.not_filed hvif hx.2
    · exact hvif x hxw hv
  unfold releaseVif
  dsimp only
  split
  · exact hs₁
  split
  · exact hs₁
  next w₂ hremove =>
    obtain ⟨hs₂, hsame₂⟩ := hs₁.removeSubports hremove
    have hs₃ := hs₂.release fun x hx => hfree x ((hsame₂.uses x).mp hx)
    split
    · exact hs₃
    · next hdelete => exact (hs₃.deletePort hdelete).1

/-- `_add_subport` with an id of its own, while Neutron does not fail but with a Conflict. -/
theorem addSubport_requested {alloc : Allocator} {out : Attaching} {port : PortId} {v : Nat}
    (hs : Sound w) (hown : ∀ x, w.Uses x → v = x.vlanId → port = x.id)
    (hadd : (out.add 1 = none ∧ port ∈ w.ports) ∨ out.add 1 = some .conflict) :
    Sound (addSubport alloc out port (some v) maxRetryCount 1 w).1 := by
  have hanswer : attemptAnswer out 1 = out.add 1 := if_pos rfl
  have hnotFound : ∀ e, addTrunkSubports (out.add 1) [(port, v)] w = .error e → e = .conflict := by
    intro e he
    rcases hadd with ⟨hnone, hport⟩ | hconflict
    · rw [hnone, addTrunkSubports] at he
      split at he
      · cases he
        rfl
      · rw [if_neg (by simpa using hport)] at he
        cases he
    · rw [hconflict] at he
      cases he
      rfl
  rw [maxRetryCount, addSubport, attemptVlanId, hanswer]
  dsimp only
  cases hr : addTrunkSubports (out.add 1) [(port, v)] w with
  | ok w₁ =>
    refine (hs.addTrunkSubports hr fun s hsub x hx hv => ?_).1
    rw [List.mem_singleton] at hsub
    subst hsub
    exact hown x hx hv
  | error e =>
    cases hnotFound e hr
    exact hs

/-- The reattachment of a held VIF, unless Neutron fails other than with a Conflict. -/
theorem activateVif_sound {alloc : Allocator} {out : Activating} {vif : Vif} (hs : Sound w)
    (hvif : vif ∈ w.held)
    (hadd : out.reattaches = true → (out.attaching.add 1 = none ∧ vif.id ∈ w.ports) ∨
      out.attaching.add 1 = some .conflict) :
    Sound (activateVif alloc out vif w).1 := by
  unfold activateVif
  split
  · exact hs
  split
  · exact hs
  split
  · exact hs
  split
  · exact hs
  split
  · exact hs
  split
  · exact hs
  next hactive hport hstatus htimeout hparent w₁ hremove =>
    obtain ⟨hs₁, hsame₁⟩ := hs.removeSubports hremove
    have hreattach : out.reattaches = true := by
      simp only [Activating.reattaches]
      simp_all
    have hports : w₁.ports = w.ports := by
      rcases removeSubports_eq_ok hremove with rfl | rfl <;> rfl
    have hs₂ : Sound
        (addSubport alloc out.attaching vif.id (some vif.vlanId) maxRetryCount 1 w₁).1 := by
      refine addSubport_requested hs₁ (fun x hx hv => ?_) (by rw [hports]; exact hadd hreattach)
      have hused : w₁.Uses vif := (hsame₁.uses vif).mpr (.inl hvif)
      exact hs₁.distinct vif x hused hx hv
    split
    · next hr =>
      rw [hr] at hs₂
      exact hs₂
    · next hr =>
      rw [hr] at hs₂
      exact hs₂

/-! ## Runs -/

theorem sound_of_started (h : Started w) : Sound w := by
  have huses : ∀ x, ¬ w.Uses x := by
    rintro x (hx | ⟨hx, -⟩)
    · rw [h.held] at hx
      cases hx
    · rw [h.existing] at hx
      cases hx
  have hplaces : w.places = [] := by
    rw [World.places, h.held, h.available, h.recyclable]
    rfl
  refine ⟨⟨hplaces ▸ List.nodup_nil, fun x hx => ?_, fun p hp => ?_, fun p hp => ?_, h.known⟩,
    fun x hx => absurd hx (huses x), fun x _ hx => absurd hx (huses x),
    fun _ _ x hx => absurd hx (huses x)⟩
  · rw [h.held] at hx
    cases hx
  · rw [hplaces] at hp
    cases hp
  · rw [h.existing] at hp
    cases hp

/-- What a step has to meet for the ids in use to stay reserved: a reattachment does not
fail other than with a Conflict, a VIF that is released is held or has an id that no VIF
in use has, a VIF that is given back to the pool is held or is still to be recycled, and
`free_pool` finds the VIFs of pods in some KuryrPort. -/
def KeepsIds (w : World) : Action → Prop
  | .activate vif out => out.reattaches = true →
      (out.attaching.add 1 = none ∧ vif.id ∈ w.ports) ∨ out.attaching.add 1 = some .conflict
  | .release vif _ => vif ∈ w.held ∨ ∀ x, w.Uses x → x.vlanId ≠ vif.vlanId
  | .recycle _ vif => vif ∈ w.held ∨
      (vif.id ∈ w.recyclable.keys ∧ (w.existing.get? vif.id).isSome = true)
  | .free out => ∀ x ∈ w.held, x.id ∉ out.active ∨ x.id ∈ out.inUse
  | _ => True

theorem step_sound {alloc : Allocator} {cfg : Config} {a : Action} (hs : Sound w)
    (hok : KeepsIds w a) (h : w.step alloc cfg a = some w') : Sound w' := by
  cases a with
  | requestVif out =>
    rw [World.step] at h
    split at h
    · next hfresh =>
      split at h
      · next hr =>
        cases h
        exact (requestVif_sound hs hfresh hr).1
      · next hr =>
        cases h
        exact (requestVif_sound hs hfresh hr).2 _ rfl
    · cases h
  | populate key out =>
    rw [World.step] at h
    split at h
    · next hfresh =>
      cases h
      exact populatePool_sound hs hfresh.1 hfresh.2
    · cases h
  | take key port updated =>
    rw [World.step] at h
    split at h
    · next hport =>
      cases h
      exact getPortFromPool_sound hs hport
    · cases h
  | activate vif out =>
    rw [World.step] at h
    split at h
    · next hvif =>
      cases h
      exact activateVif_sound hs hvif hok
    · cases h
  | release vif out =>
    rw [World.step] at h
    split at h
    · cases h
      exact releaseVif_sound hs hok
    · cases h
  | recycle key vif =>
    rw [World.step] at h
    split at h
    · cases h
      rcases hok with hvif | ⟨hvif, hexisting⟩
      · exact recycleVif_held hs hvif
      · exact recycleVif_again hs hvif hexisting
    · cases h
  | trigger out =>
    cases h
    exact triggerReturnToPool_sound hs rfl
  | deleteNetwork keys out =>
    cases h
    exact deleteNetworkPools_sound hs
  | free out =>
    cases h
    exact freePool_sound hs hok

/-! ## Failed requests -/

/-- The ids and the ports are as before. -/
def Undone (w w' : World) : Prop :=
  (∀ v, v ∈ w'.reserved ↔ v ∈ w.reserved) ∧ ∀ p, p ∈ w'.ports ↔ p ∈ w.ports

/-- What a request for VIFs has to meet to leave nothing behind when it fails. Once the
port of `request_vif` is created, a failed binding is undone only if `delete_port`
succeeds, and nothing else that fails is undone. `request_vifs` does not release its ids
after a failed binding, and ignores that a port could not be deleted. -/
def Clean (alloc : Allocator) (w : World) : Action → Prop
  | .requestVif out => out.parent = true → out.create = none →
      if out.bindingFailed then out.delete = none
      else out.attaching.trunk 1 = true ∧
        (alloc.pick w.reserved w.inUseVlanIds).isSome = true ∧ out.attaching.add 1 = none
  | .populate _ out => out.create = none → out.bindingFailed = false ∧
      (out.add = none ∨ ∀ p ∈ out.ports, out.delete p = none)
  | _ => True

/-- A new port is not attached. -/
theorem Books.not_attached (hb : Books w) {p : PortId} (hp : p ∉ w.known) : ¬ w.Attached p := by
  intro h
  obtain ⟨s, hs, rfl⟩ := List.mem_map.mp h
  exact hp (hb.known.2.2.2 s hs)

/-- Neutron attaches new ports with ids that are free on the trunk. -/
theorem addTrunkSubports_ok {subs : List (PortId × Nat)}
    (h : ∀ s ∈ subs, ¬ w.Attached s.1 ∧ s.2 ∉ w.inUseVlanIds ∧ s.1 ∈ w.ports) :
    addTrunkSubports none subs w = .ok { w with subports := w.subports ++ subs } := by
  rw [addTrunkSubports, if_neg, if_neg]
  · rintro ⟨s, hs, hport⟩
    exact hport (h s hs).2.2
  · rintro ⟨s, hs, hattached | hid⟩
    · exact (h s hs).1 hattached
    · exact (h s hs).2.1 hid

theorem requestVif_undone {alloc : Allocator} {out : Requesting} {e : Raised} (hb : Books w)
    (hfresh : Fresh w [out.port]) (hclean : Clean alloc w (.requestVif out))
    (h : requestVif alloc out w = (w', .error e)) : Undone w w' := by
  have hport : out.port ∉ w.known := hfresh.2 _ (List.mem_singleton_self _)
  have hattached : ¬ (w.createPorts [out.port]).Attached out.port := hb.not_attached hport
  unfold requestVif at h
  cases hparent : out.parent with
  | false =>
    rw [hparent] at h
    cases h
    exact ⟨fun _ => Iff.rfl, fun _ => Iff.rfl⟩
  | true =>
    rw [hparent] at h
    simp only [Bool.not_true, Bool.false_eq_true, if_false] at h
    cases hcreate : out.create with
    | some e' =>
      rw [hcreate] at h
      cases h
      exact ⟨fun _ => Iff.rfl, fun _ => Iff.rfl⟩
    | none =>
      rw [hcreate] at h
      dsimp only at h
      have hclean := hclean hparent hcreate
      cases hbinding : out.bindingFailed with
      | true =>
        rw [hbinding] at h hclean
        rw [if_pos rfl] at h hclean
        rw [hclean, deletePort, if_neg hattached] at h
        cases h
        refine ⟨fun _ => Iff.rfl, fun p => ?_⟩
        have hne : p ∈ w.ports → p ≠ out.port := fun hp h => hport (h ▸ hb.known.2.2.1 p hp)
        simp only [World.createPorts, List.mem_filter, List.mem_append, List.mem_singleton]
        constructor
        · rintro ⟨hp | hp, hkept⟩
          · exact hp
          · simp [hp] at hkept
        · exact fun hp => ⟨.inl hp, by simpa using hne hp⟩
      | false =>
        rw [hbinding] at h hclean
        simp only [Bool.false_eq_true, if_false] at h hclean
        obtain ⟨htrunk, hpick, hadd⟩ := hclean
        obtain ⟨v, hv⟩ := Option.isSome_iff_exists.mp hpick
        -- nothing is left that could fail
        have hok : ∃ w₁, addSubport alloc out.attaching out.port none maxRetryCount 1
            (w.createPorts [out.port]) = (w₁, .ok v) := by
          rw [maxRetryCount, addSubport, attemptVlanId, htrunk]
          rw [show (w.createPorts [out.port]).reserved = w.reserved from rfl,
            show (w.createPorts [out.port]).inUseVlanIds = w.inUseVlanIds from rfl, hv]
          simp only [Bool.not_true, Bool.false_eq_true, if_false]
          rw [attemptAnswer, if_pos rfl, hadd, addTrunkSubports_ok]
          · exact ⟨_, rfl⟩
          · intro s hs
            rw [List.mem_singleton] at hs
            subst hs
            exact ⟨hattached, (alloc.fresh hv).2,
              List.mem_append_right _ (List.mem_singleton_self _)⟩
        obtain ⟨w₁, hok⟩ := hok
        rw [hok] at h
        cases h

theorem releaseAll_eq : ∀ {ids : List Nat} {w : World},
    w.releaseAll ids = { w with reserved := w.reserved.filter (· ∉ ids) }
  | [], w => by simp [World.releaseAll]
  | v :: ids, w => by
    rw [World.releaseAll, List.foldl_cons]
    show (w.release v).releaseAll ids = _
    rw [releaseAll_eq, World.release]
    simp only [List.filter_filter]
    congr 1
    refine List.filter_congr fun u _ => ?_
    simp [Bool.and_comm]

/-- `delete_ports` where every request succeeds. -/
theorem deletePorts_eq {answer : PortId → Option Sdk} : ∀ {ports : List PortId} {w : World},
    (∀ p ∈ ports, answer p = none ∧ ¬ w.Attached p) →
    deletePorts answer ports w = { w with ports := w.ports.filter (· ∉ ports) }
  | [], w, _ => by simp [deletePorts]
  | port :: ports, w, h => by
    obtain ⟨hanswer, hattached⟩ := h port List.mem_cons_self
    rw [deletePorts, List.foldl_cons, hanswer, deletePort, if_neg hattached]
    have hrest : deletePorts answer ports { w with ports := w.ports.filter (· ≠ port) } = _ :=
      deletePorts_eq fun p hp => h p (List.mem_cons_of_mem _ hp)
    refine hrest.trans ?_
    simp only [List.filter_filter]
    congr 1
    refine List.filter_congr fun u _ => ?_
    simp [Bool.and_comm]

theorem requestVifs_undone {alloc : Allocator} {key : PoolKey} {out : Creation}
    {r : Except Raised (List Vif)} (hb : Books w) (hfresh : Fresh w out.ports)
    (hnum : out.numPorts ≤ out.ports.length) (hclean : Clean alloc w (.populate key out))
    (h : requestVifs alloc out w = (w', r)) (hr : ∀ vifs, r = .ok vifs → vifs = []) :
    Undone w w' := by
  have hback : ∀ {ids : List Nat}, Picked out w ids → ∀ v,
      v ∈ (ids.reverse ++ w.reserved).filter (· ∉ ids) ↔ v ∈ w.reserved := by
    intro ids hpicked v
    simp only [List.mem_filter, List.mem_append, List.mem_reverse, decide_eq_true_eq]
    constructor
    · rintro ⟨hv | hv, hnot⟩
      · exact absurd hv hnot
      · exact hv
    · exact fun hv => ⟨.inr hv, fun hid => (hpicked.ids v hid).1 hv⟩
  cases vifsRequested h with
  | nothing => exact ⟨fun _ => Iff.rfl, fun _ => Iff.rfl⟩
  | @notCreated ids e hpicked hcreate =>
    rw [releaseAll_eq]
    exact ⟨hback hpicked, fun _ => Iff.rfl⟩
  | @unbound ids _ e hpicked hcreate hbinding hd =>
    rw [(hclean hcreate).1] at hbinding
    cases hbinding
  | @notAdded ids e hpicked hcreate hbinding hadd =>
    have hnew : ∀ p ∈ out.ports.take ids.length, p ∉ w.known := fun p hp =>
      hfresh.2 p (List.mem_of_mem_take hp)
    rcases (hclean hcreate).2 with hnone | hdelete
    · -- new ports and free ids: Neutron attaches them
      rw [hnone, addTrunkSubports_ok] at hadd
      · cases hadd
      · intro s hs
        obtain ⟨hport, hid⟩ := List.of_mem_zip hs
        exact ⟨hb.not_attached (hnew _ hport), (hpicked.ids _ hid).2,
          List.mem_append_right _ hport⟩
    · rw [deletePorts_eq, releaseAll_eq]
      · refine ⟨hback hpicked, fun p => ?_⟩
        simp only [World.createPorts, World.reserveAll, List.mem_filter, List.mem_append,
          decide_eq_true_eq]
        constructor
        · rintro ⟨hp | hp, hnot⟩
          · exact hp
          · exact absurd hp hnot
        · exact fun hp => ⟨.inl hp, fun hin => hnew p hin (hb.known.2.2.1 p hp)⟩
      · intro p hp
        exact ⟨hdelete p (List.mem_of_mem_take hp), hb.not_attached (hnew p hp)⟩
  | @added ids _ hpicked hadd =>
    -- ids were picked, so VIFs are returned
    have hnil := hr _ rfl
    have hlength := congrArg List.length hnil
    rw [List.length_map, List.length_zip, List.length_take, List.length_nil] at hlength
    have hpos : 0 < ids.length := List.length_pos_of_ne_nil hpicked.some
    have hle := hpicked.length
    omega

/-! ## Reserved while in use -/

/-- A VIF that a pod holds, or that is available in a pool. -/
def World.InUse (w : World) (x : Vif) : Prop :=
  x ∈ w.held ∨ (w.existing.get? x.id = some x.vlanId ∧ x.id ∈ w.available.map Prod.snd)

/-- The condition on the steps of a run. -/
def Meets (alloc : Allocator) (w : World) (a : Action) : Prop := KeepsIds w a ∧ Clean alloc w a

/-- In every run whose steps meet the condition: the id of a VIF in use is reserved, and
no other VIF in use and no other subport of the trunk has it; and `request_vif` and
`request_vifs`, when they raise or return no VIF, leave neither an id nor a port. -/
theorem vlanSystem_reserved {alloc : Allocator} {cfg : Config}
    (h : Reach (vlanSystem alloc cfg) (Meets alloc) w) :
    (∀ x, w.InUse x → x.vlanId ∈ w.reserved ∧
      (∀ y, w.InUse y → y.vlanId = x.vlanId → y.id = x.id) ∧
      ∀ s ∈ w.subports, s.2 = x.vlanId → s.1 = x.id) ∧
    (∀ out w' e, Meets alloc w (.requestVif out) → Fresh w [out.port] →
      requestVif alloc out w = (w', .error e) → Undone w w') ∧
    ∀ key out w' r, Meets alloc w (.populate key out) → Fresh w out.ports →
      out.numPorts ≤ out.ports.length → requestVifs alloc out w = (w', r) →
      (∀ vifs, r = .ok vifs → vifs = []) → Undone w w' := by
  have hs : Sound w := Reach.invariant (I := Sound) (fun _ => sound_of_started)
    (fun _ _ _ hs hok hstep => step_sound hs hok.1 hstep) h
  have huses : ∀ {x}, w.InUse x → w.Uses x := fun hx => hx.imp_right fun h => ⟨h.1, .inl h.2⟩
  refine ⟨fun x hx => ⟨hs.reserved x (huses hx), fun y hy hv => ?_, fun s hsub hv => ?_⟩,
    fun out w' e hok hfresh hr => ?_, fun key out w' r hok hfresh hnum hr hnone => ?_⟩
  · exact hs.distinct y x (huses hy) (huses hx) hv
  · exact hs.attached s hsub x (huses hx) hv
  · exact requestVif_undone hs.toBooks hfresh hok.2 hr
  · exact requestVifs_undone hs.toBooks hfresh hnum hok.2 hr hnone

/-! ## Runs of one trunk -/

/-- The first free id from 1 to 4094. -/
def firstFree : Allocator where
  pick reserved inUse := (List.range' 1 4094).find? fun v => v ∉ reserved ∧ v ∉ inUse
  fresh h := by
    have hv := List.find?_some h
    simpa using hv

def defaultConfig : Config := ⟨false, 0⟩

/-- A trunk without subports. -/
def bareTrunk : World := ⟨[], [], [], [], Dict.empty, [], Dict.empty, [], []⟩

theorem bareTrunk_started : Started bareTrunk :=
  ⟨rfl, rfl, rfl, rfl, rfl, fun _ h => absurd h List.not_mem_nil,
    fun _ h => absurd h List.not_mem_nil⟩

/-- Requests that all succeed. -/
def attaches : Attaching := ⟨fun _ => true, fun _ => none⟩

def requestPort (port : PortId) : Requesting := ⟨true, none, port, false, none, attaches⟩

theorem vlanSystem_reserved_requested :
    ∃ w, Reach (vlanSystem firstFree defaultConfig) (Meets firstFree) w ∧
      w.held = [⟨"p1", 1⟩] ∧ w.InUse ⟨"p1", 1⟩ ∧ 1 ∈ w.reserved := by
  have hmeets : Meets firstFree bareTrunk (.requestVif (requestPort "p1")) :=
    ⟨trivial, fun _ _ => ⟨rfl, by decide +kernel, rfl⟩⟩
  have hreach : Reach (vlanSystem firstFree defaultConfig) (Meets firstFree)
      ⟨["p1"], ["p1"], [("p1", 1)], [1], Dict.empty, [], Dict.empty, [⟨"p1", 1⟩], [⟨"p1", 1⟩]⟩ :=
    (Reach.init bareTrunk_started).step hmeets rfl
  exact ⟨_, hreach, rfl, .inl List.mem_cons_self,
    ((vlanSystem_reserved hreach).1 ⟨"p1", 1⟩ (.inl List.mem_cons_self)).1⟩

/-- A subport that stays down is attached anew, which fails. -/
def failingReattachment : Activating where
  active := false
  port := true
  statusActive := false
  timedOut := true
  parent := true
  remove := none
  attaching := ⟨fun _ => true, fun _ => some .other⟩

/-- One new port for a pool, whose binding fails. -/
def failingBinding : Creation where
  parent := true
  trunk := true
  numPorts := 1
  create := none
  ports := ["p1"]
  bindingFailed := true
  add := none
  delete _ := none

/-- A failed reattachment releases the id of a VIF that a pod holds, and the next pod is
given the same id; and `request_vifs` raises after a failed binding with its id still
reserved. -/
theorem vlanSystem_gives_id_twice :
    (∃ w, Reach (vlanSystem firstFree defaultConfig) (fun _ _ => True) w ∧
      (⟨"p1", 1⟩ : Vif) ∈ w.held ∧ (⟨"p2", 1⟩ : Vif) ∈ w.held ∧ ("p2", 1) ∈ w.subports) ∧
    ∃ w', requestVifs firstFree failingBinding bareTrunk = (w', .error .notReady) ∧
      1 ∈ w'.reserved ∧ 1 ∉ bareTrunk.reserved := by
  have hrun : execute (World.step firstFree defaultConfig) bareTrunk
      [.requestVif (requestPort "p1"), .activate ⟨"p1", 1⟩ failingReattachment,
        .requestVif (requestPort "p2")] =
      some ⟨["p1", "p2"], ["p1", "p2"], [("p2", 1)], [1], Dict.empty, [], Dict.empty,
        [⟨"p1", 1⟩, ⟨"p2", 1⟩], [⟨"p1", 1⟩, ⟨"p2", 1⟩]⟩ := rfl
  have hreach := Reach.execute (T := vlanSystem firstFree defaultConfig)
    (fun _ _ _ h => ⟨trivial, h⟩) (Reach.init bareTrunk_started) hrun
  refine ⟨⟨_, hreach, List.mem_cons_self, List.mem_cons_of_mem _ List.mem_cons_self,
    List.mem_cons_self⟩, ⟨[], ["p1"], [], [1], Dict.empty, [], Dict.empty, [], []⟩, rfl,
    List.mem_cons_self, List.not_mem_nil⟩

end NestedVlan

end KuryrKubernetes
