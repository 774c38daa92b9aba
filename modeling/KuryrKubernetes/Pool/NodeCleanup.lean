import KuryrKubernetes.Pool.Conservation

/-!
# Ports of removed nodes

`_trigger_removed_nodes_ports_cleanup` (`controller/drivers/vif_pool.py`) runs every ten
minutes and deletes the ports that Neutron lists as DOWN, unless it meets them for the
first time. What it has met is kept in one list for all iterations.

- `Cleanup`: what Neutron answers in one iteration. A listing may raise after some of its
  ports, and so may the deletion of a subport; either ends the iteration.
- `triggerCleanup`: one iteration. It also forgets the VIFs of the ports it deletes.
- `Cleanup.sightings`: the candidates of an iteration in the order in which they are
  listed. An iteration is one loop over them (`triggerCleanup_eq`).
- `previousAt`, `deletedAt`: the iterations one after the other. The pools may change in
  any way in between.
-/

namespace KuryrKubernetes

namespace NodeCleanup

open Dicts

/-! ## One iteration -/

/-- A port as it is listed, with the `subnet_id` of each of its `fixed_ips`. The owner is
`none` for `''`, and a missing `binding_host_id` is empty. -/
structure DownPort where
  id : PortId
  owner : Option DeviceOwner
  subnets : List (Option String)
  bindingHostId : String
deriving DecidableEq, Repr

/-- The ports the SDK yields, and whether the listing ends after them or raises. -/
structure Listing where
  ports : List DownPort
  complete : Bool

/-- One iteration: whether the pools are recovered, the ids of the subnets (`none` if that
request fails), the two listings and the answers to `c_utils.delete_port` and to
`os_net.delete_port`. -/
structure Cleanup where
  recovered : Bool
  subnets : Option (List String)
  detached : Listing
  existing : Listing
  removal : PortId → Removal
  deleted : PortId → Bool

/-- The pools, `previous_ports_to_remove`, and the ports deleted so far. -/
structure Sweep where
  pool : Pool
  previous : List PortId
  deleted : List PortId

/-- The VIF is forgotten before the port is deleted; `false` if that raises. -/
def Sweep.remove (s : Sweep) (id : PortId) (answer : Removal) : Sweep × Bool :=
  let s := { s with pool := s.pool.dropExisting id }
  match answer with
  | .deleted => ({ s with previous := s.previous.erase id, deleted := s.deleted ++ [id] }, true)
  | .kept => (s, true)
  | .raised => (s, false)

/-- A candidate in either loop. A port that is met for the first time is only noted. -/
def visit (removable : Bool) (answer : Removal) (id : PortId) (s : Sweep) : Sweep × Bool :=
  if id ∉ s.previous then ({ s with previous := s.previous ++ [id] }, true)
  else if removable then s.remove id answer
  else (s, true)

/-- Detached subports have lost their owner, or still carry the one of a subport. -/
def DownPort.mayBeDetached (p : DownPort) : Bool := p.owner = none || p.owner = some .subport

/-- The one address of the port is in a subnet of pods. -/
def DownPort.inSubnets (p : DownPort) (ids : List String) : Bool :=
  match p.subnets with
  | [some id] => id ∈ ids
  | _ => false

/-- The loop over `detached_subports` (vif_pool.py:582–607). -/
def visitDetached (it : Cleanup) (ids : List String) (p : DownPort) (s : Sweep) : Sweep × Bool :=
  if p.mayBeDetached then visit (p.inSubnets ids) (it.removal p.id) p.id s else (s, true)

/-- The loop over `existing_ports` (vif_pool.py:620–637). -/
def visitExisting (it : Cleanup) (p : DownPort) (s : Sweep) : Sweep × Bool :=
  visit (p.bindingHostId = "") (if it.deleted p.id then .deleted else .kept) p.id s

/-- A loop that an exception ends; `false` is returned then. -/
def visitAll {α : Type} (f : α → Sweep → Sweep × Bool) : List α → Sweep → Sweep × Bool
  | [], s => (s, true)
  | p :: ps, s =>
    match f p s with
    | (s, true) => visitAll f ps s
    | (s, false) => (s, false)

/-- A loop over a listing. -/
def visitListing (f : DownPort → Sweep → Sweep × Bool) (l : Listing) (s : Sweep) : Sweep × Bool :=
  match visitAll f l.ports s with
  | (s, true) => (s, l.complete)
  | (s, false) => (s, false)

/-- `_trigger_removed_nodes_ports_cleanup` (vif_pool.py:548–637); `false` when it raises.
`tags` when resource tags are configured. -/
def triggerCleanup (tags : Bool) (it : Cleanup) (s : Sweep) : Sweep × Bool :=
  if !it.recovered then (s, true)
  else if tags then
    match it.subnets with
    | none => (s, false)
    | some ids =>
      match visitListing (visitDetached it ids) it.detached s with
      | (s, true) => visitListing (visitExisting it) it.existing s
      | (s, false) => (s, false)
  else visitListing (visitExisting it) it.existing s

/-! ## Sightings -/

/-- A candidate with what would happen to it if it had been met before. -/
structure Sighting where
  id : PortId
  removable : Bool
  answer : Removal
deriving DecidableEq, Repr

def Cleanup.sightDetached (it : Cleanup) (ids : List String) (p : DownPort) : Sighting :=
  ⟨p.id, p.inSubnets ids, it.removal p.id⟩

def Cleanup.sightExisting (it : Cleanup) (p : DownPort) : Sighting :=
  ⟨p.id, p.bindingHostId = "", if it.deleted p.id then .deleted else .kept⟩

/-- The candidates Neutron reports in an iteration. -/
def Cleanup.sightings (tags : Bool) (it : Cleanup) : List Sighting :=
  if !it.recovered then []
  else if tags then
    match it.subnets with
    | none => []
    | some ids =>
      (it.detached.ports.filter DownPort.mayBeDetached).map (it.sightDetached ids) ++
        if it.detached.complete then it.existing.ports.map it.sightExisting else []
  else it.existing.ports.map it.sightExisting

def Cleanup.reported (tags : Bool) (it : Cleanup) : List PortId :=
  (it.sightings tags).map Sighting.id

def Sighting.visit (x : Sighting) (s : Sweep) : Sweep × Bool :=
  NodeCleanup.visit x.removable x.answer x.id s

theorem visitAll_append {α : Type} {f : α → Sweep → Sweep × Bool} {ps qs : List α} {s : Sweep} :
    visitAll f (ps ++ qs) s =
      match visitAll f ps s with
      | (s, true) => visitAll f qs s
      | (s, false) => (s, false) := by
  induction ps generalizing s with
  | nil => rfl
  | cons p ps ih =>
    simp only [List.cons_append, visitAll]
    cases hp : f p s with
    | mk s' ok =>
      cases ok with
      | true => exact ih
      | false => rfl

theorem visitAll_existing (it : Cleanup) (ps : List DownPort) (s : Sweep) :
    visitAll (visitExisting it) ps s = visitAll Sighting.visit (ps.map it.sightExisting) s := by
  induction ps generalizing s with
  | nil => rfl
  | cons p ps ih =>
    simp only [List.map_cons, visitAll, ih]
    rfl

theorem visitAll_detached (it : Cleanup) (ids : List String) (ps : List DownPort) (s : Sweep) :
    visitAll (visitDetached it ids) ps s =
      visitAll Sighting.visit
        ((ps.filter DownPort.mayBeDetached).map (it.sightDetached ids)) s := by
  induction ps generalizing s with
  | nil => rfl
  | cons p ps ih =>
    by_cases hp : p.mayBeDetached = true
    · rw [List.filter_cons_of_pos hp, List.map_cons, visitAll, visitAll, visitDetached, if_pos hp]
      simp only [ih]
      rfl
    · rw [List.filter_cons_of_neg hp, visitAll, visitDetached, if_neg hp]
      exact ih s

/-- **An iteration is one loop** over its candidates. -/
theorem triggerCleanup_eq (tags : Bool) (it : Cleanup) (s : Sweep) :
    (triggerCleanup tags it s).1 = (visitAll Sighting.visit (it.sightings tags) s).1 := by
  unfold triggerCleanup Cleanup.sightings
  split
  · rfl
  · split
    · split
      · rfl
      · rename_i ids _
        rw [visitAll_append, visitListing, visitAll_detached]
        cases hd : visitAll Sighting.visit
            ((it.detached.ports.filter DownPort.mayBeDetached).map (it.sightDetached ids)) s with
        | mk s' ok =>
          cases ok with
          | false => rfl
          | true =>
            cases hc : it.detached.complete with
            | false => rfl
            | true =>
              simp only [visitListing, visitAll_existing, if_true]
              split <;> simp_all
    · simp only [visitListing, visitAll_existing]
      split <;> simp_all

/-! ## What an iteration remembers and deletes -/

/-- What one candidate does: it is noted, kept, or removed. -/
theorem visit_cases (x : Sighting) (s : Sweep) :
    (x.id ∉ s.previous ∧ (x.visit s).1.previous = s.previous ++ [x.id] ∧
        (x.visit s).1.deleted = s.deleted ∧ (x.visit s).2 = true) ∨
      (x.id ∈ s.previous ∧ (x.removable = true → x.answer ≠ .deleted) ∧
        (x.visit s).1.previous = s.previous ∧ (x.visit s).1.deleted = s.deleted ∧
        (x.answer ≠ .raised → (x.visit s).2 = true)) ∨
      (x.id ∈ s.previous ∧ x.removable = true ∧ x.answer = .deleted ∧
        (x.visit s).1.previous = s.previous.erase x.id ∧
        (x.visit s).1.deleted = s.deleted ++ [x.id] ∧ (x.visit s).2 = true) := by
  unfold Sighting.visit visit
  split
  · rename_i hnew
    exact .inl ⟨hnew, rfl, rfl, rfl⟩
  · rename_i hknown
    rw [not_not] at hknown
    split
    · rename_i hremovable
      cases hanswer : x.answer with
      | deleted => exact .inr (.inr ⟨hknown, hremovable, rfl, rfl, rfl, rfl⟩)
      | kept => exact .inr (.inl ⟨hknown, fun _ => nofun, rfl, rfl, fun _ => rfl⟩)
      | raised => exact .inr (.inl ⟨hknown, fun _ => nofun, rfl, rfl, fun h => absurd rfl h⟩)
    · rename_i hremovable
      exact .inr (.inl ⟨hknown, fun h => absurd h hremovable, rfl, rfl, fun _ => rfl⟩)

/-- Only candidates are noted. -/
theorem mem_previous_visit {x : Sighting} {s : Sweep} {id : PortId}
    (h : id ∈ (x.visit s).1.previous) : id ∈ s.previous ∨ id = x.id := by
  rcases visit_cases x s with ⟨-, hprev, -⟩ | ⟨-, -, hprev, -⟩ | ⟨-, -, -, hprev, -⟩
  · rw [hprev, List.mem_append, List.mem_singleton] at h
    exact h
  · exact .inl (hprev ▸ h)
  · rw [hprev] at h
    exact .inl (List.mem_of_mem_erase h)

theorem mem_previous_visitAll {xs : List Sighting} {s : Sweep} {id : PortId}
    (h : id ∈ (visitAll Sighting.visit xs s).1.previous) :
    id ∈ s.previous ∨ id ∈ xs.map Sighting.id := by
  induction xs generalizing s with
  | nil => exact .inl h
  | cons x xs ih =>
    have hx : ∀ {id : PortId}, id ∈ (x.visit s).1.previous →
        id ∈ s.previous ∨ id ∈ (x :: xs).map Sighting.id := by
      intro id hid
      exact (mem_previous_visit hid).imp_right fun he => List.mem_cons.mpr (.inl he)
    rw [visitAll] at h
    cases hv : x.visit s with
    | mk s' ok =>
      rw [hv] at h hx
      cases ok with
      | false => exact hx h
      | true => exact (ih h).elim hx fun hmem => .inr (List.mem_cons_of_mem _ hmem)

/-- A candidate at its place in the list. -/
def Sighted (xs before : List Sighting) (x : Sighting) : Prop := ∃ rest, xs = before ++ x :: rest

/-- **What an iteration deletes** was noted before it, or earlier in it. -/
theorem mem_deleted_visitAll {xs : List Sighting} {s : Sweep} {id : PortId}
    (h : id ∈ (visitAll Sighting.visit xs s).1.deleted) :
    id ∈ s.deleted ∨ ∃ before x, Sighted xs before x ∧ x.id = id ∧ x.removable = true ∧
      x.answer = .deleted ∧ (id ∈ s.previous ∨ id ∈ before.map Sighting.id) := by
  induction xs generalizing s with
  | nil => exact .inl h
  | cons x xs ih =>
    -- what the first candidate deletes is in the first place of the list
    have hx : ∀ {id : PortId}, id ∈ (x.visit s).1.deleted →
        id ∈ s.deleted ∨ ∃ before y, Sighted (x :: xs) before y ∧ y.id = id ∧
          y.removable = true ∧ y.answer = .deleted ∧
          (id ∈ s.previous ∨ id ∈ before.map Sighting.id) := by
      intro id hid
      rcases visit_cases x s with ⟨-, -, hdel, -⟩ | ⟨-, -, -, hdel, -⟩ | ⟨hk, hr, ha, -, hdel, -⟩
      · exact .inl (hdel ▸ hid)
      · exact .inl (hdel ▸ hid)
      · rw [hdel, List.mem_append, List.mem_singleton] at hid
        rcases hid with hid | rfl
        · exact .inl hid
        · exact .inr ⟨[], x, ⟨xs, rfl⟩, rfl, hr, ha, .inl hk⟩
    rw [visitAll] at h
    cases hv : x.visit s with
    | mk s' ok =>
      rw [hv] at h hx
      cases ok with
      | false => exact hx h
      | true =>
        rcases ih h with hid | ⟨before, y, ⟨rest, rfl⟩, hy, hr, ha, hseen⟩
        · exact hx hid
        · refine .inr ⟨x :: before, y, ⟨rest, rfl⟩, hy, hr, ha, ?_⟩
          rcases hseen with hprev | hbefore
          · have hprev' : id ∈ (x.visit s).1.previous := by
              rw [hv]
              exact hprev
            exact (mem_previous_visit hprev').imp_right fun he => List.mem_cons.mpr (.inl he)
          · exact .inr (List.mem_cons_of_mem _ hbefore)

/-- Nothing raises in a quiet loop, so it is the loop over its parts. -/
theorem visitAll_cons_quiet {x : Sighting} {xs : List Sighting} {s : Sweep}
    (hquiet : x.answer ≠ .raised) :
    visitAll Sighting.visit (x :: xs) s = visitAll Sighting.visit xs (x.visit s).1 := by
  have hok : (x.visit s).2 = true := by
    rcases visit_cases x s with ⟨-, -, -, h⟩ | ⟨-, -, -, -, h⟩ | ⟨-, -, -, -, -, h⟩
    · exact h
    · exact h hquiet
    · exact h
  rw [visitAll]
  cases hv : x.visit s with
  | mk s' ok =>
    rw [hv] at hok
    cases hok
    rfl

/-- A port known to the list, by now or by an earlier deletion. -/
def Sweep.Knows (s : Sweep) (id : PortId) : Prop := id ∈ s.previous ∨ id ∈ s.deleted

theorem Sweep.Knows.visit {s : Sweep} {id : PortId} (h : s.Knows id) (x : Sighting) :
    (x.visit s).1.Knows id := by
  rcases visit_cases x s with ⟨-, hp, hd, -⟩ | ⟨-, -, hp, hd, -⟩ | ⟨-, -, -, hp, hd, -⟩
  · rw [Sweep.Knows, hp, hd]
    exact h.imp_left (List.mem_append_left _)
  · rw [Sweep.Knows, hp, hd]
    exact h
  · rw [Sweep.Knows, hp, hd]
    rcases h with h | h
    · by_cases he : id = x.id
      · exact .inr (List.mem_append_right _ (List.mem_singleton.mpr he))
      · exact .inl ((List.mem_erase_of_ne he).mpr h)
    · exact .inr (List.mem_append_left _ h)

theorem knows_of_visit (x : Sighting) (s : Sweep) : (x.visit s).1.Knows x.id := by
  rcases visit_cases x s with ⟨-, hp, -⟩ | ⟨hk, -, hp, -⟩ | ⟨-, -, -, -, hd, -⟩
  · exact .inl (hp ▸ List.mem_append_right _ (List.mem_singleton_self _))
  · exact .inl (hp ▸ hk)
  · exact .inr (hd ▸ List.mem_append_right _ (List.mem_singleton_self _))

/-- Where nothing raises, a candidate is known at the end. -/
theorem knows_visitAll {xs : List Sighting} {s : Sweep} (hquiet : ∀ x ∈ xs, x.answer ≠ .raised)
    {id : PortId} (hseen : s.Knows id ∨ id ∈ xs.map Sighting.id) :
    (visitAll Sighting.visit xs s).1.Knows id := by
  induction xs generalizing s with
  | nil => exact hseen.resolve_right List.not_mem_nil
  | cons x xs ih =>
    rw [visitAll_cons_quiet (hquiet x List.mem_cons_self)]
    refine ih (fun y hy => hquiet y (List.mem_cons_of_mem _ hy)) ?_
    rcases hseen with hknown | hmem
    · exact .inl (hknown.visit x)
    · rcases List.mem_cons.mp hmem with rfl | hmem
      · exact .inl (knows_of_visit x s)
      · exact .inr hmem

theorem deleted_subset_visitAll {xs : List Sighting} {s : Sweep} :
    s.deleted ⊆ (visitAll Sighting.visit xs s).1.deleted := by
  induction xs generalizing s with
  | nil => exact fun _ h => h
  | cons x xs ih =>
    have hx : s.deleted ⊆ (x.visit s).1.deleted := by
      rcases visit_cases x s with ⟨-, -, hd, -⟩ | ⟨-, -, -, hd, -⟩ | ⟨-, -, -, -, hd, -⟩
      · rw [hd]
        exact fun _ h => h
      · rw [hd]
        exact fun _ h => h
      · rw [hd]
        exact List.subset_append_left _ _
    rw [visitAll]
    cases hv : x.visit s with
    | mk s' ok =>
      rw [hv] at hx
      cases ok with
      | false => exact hx
      | true => exact fun _ h => ih (hx h)

/-- Where nothing raises, a known port is deleted when its turn comes. -/
theorem deleted_of_known {before xs : List Sighting} {x : Sighting} {s : Sweep}
    (hx : Sighted xs before x) (hquiet : ∀ y ∈ xs, y.answer ≠ .raised)
    (hremovable : x.removable = true) (hanswer : x.answer = .deleted)
    (hknown : s.Knows x.id ∨ x.id ∈ before.map Sighting.id) :
    x.id ∈ (visitAll Sighting.visit xs s).1.deleted := by
  obtain ⟨rest, rfl⟩ := hx
  have hbefore : (visitAll Sighting.visit before s).1.Knows x.id :=
    knows_visitAll (fun y hy => hquiet y (List.mem_append_left _ hy)) hknown
  have hsplit : (visitAll Sighting.visit (before ++ x :: rest) s).1 =
      (visitAll Sighting.visit rest (x.visit (visitAll Sighting.visit before s).1).1).1 := by
    clear hbefore hknown
    induction before generalizing s with
    | nil =>
      exact congrArg Prod.fst (visitAll_cons_quiet (hquiet x List.mem_cons_self))
    | cons y before ih =>
      have hy := hquiet y List.mem_cons_self
      rw [List.cons_append, visitAll_cons_quiet hy, visitAll_cons_quiet hy]
      exact ih fun z hz => hquiet z (List.mem_cons_of_mem _ hz)
  rw [hsplit]
  refine deleted_subset_visitAll ?_
  rcases visit_cases x (visitAll Sighting.visit before s).1 with
    ⟨hnew, -, hd, -⟩ | ⟨-, hkept, -⟩ | ⟨-, -, -, -, hd, -⟩
  · rw [hd]
    exact hbefore.resolve_left hnew
  · exact absurd hanswer (hkept hremovable)
  · rw [hd]
    exact List.mem_append_right _ (List.mem_singleton_self _)

/-! ## One iteration after the other -/

section Iterations

variable (tags : Bool) (its : ℕ → Cleanup) (pools : ℕ → Pool)

/-- `previous_ports_to_remove` before the `n`-th iteration. -/
def previousAt : ℕ → List PortId
  | 0 => []
  | n + 1 => (triggerCleanup tags (its n) ⟨pools n, previousAt n, []⟩).1.previous

/-- The ports the `n`-th iteration deletes. -/
def deletedAt (n : ℕ) : List PortId :=
  (triggerCleanup tags (its n) ⟨pools n, previousAt tags its pools n, []⟩).1.deleted

/-- A port is deleted only if the iteration before reported it as well. -/
def DeletesSeenTwice : Prop :=
  ∀ n, ∀ id ∈ deletedAt tags its pools n, ∃ m, n = m + 1 ∧ id ∈ (its m).reported tags

/-- A port that was reported before, in any iteration, and is about to be deleted, was
reported in the last iteration. -/
def SteadyCandidates : Prop :=
  ∀ n before x, Sighted ((its n).sightings tags) before x → x.removable = true →
    x.answer = .deleted →
    (x.id ∈ before.map Sighting.id ∨ ∃ m < n, x.id ∈ (its m).reported tags) →
    ∃ m, n = m + 1 ∧ x.id ∈ (its m).reported tags

/-- Nothing raises, and a deleted port is not listed again. -/
structure Undisturbed : Prop where
  quiet : ∀ n, ∀ x ∈ (its n).sightings tags, x.answer ≠ .raised
  gone : ∀ n, ∀ id ∈ deletedAt tags its pools n, ∀ m > n, id ∉ (its m).reported tags

variable {tags its pools}

/-- What is noted was reported at some time. -/
theorem reported_of_previousAt {n : ℕ} {id : PortId} (h : id ∈ previousAt tags its pools n) :
    ∃ m < n, id ∈ (its m).reported tags := by
  induction n with
  | zero => cases h
  | succ n ih =>
    rw [previousAt, triggerCleanup_eq] at h
    rcases mem_previous_visitAll h with hprev | hnow
    · obtain ⟨m, hm, hid⟩ := ih hprev
      exact ⟨m, Nat.lt_succ_of_lt hm, hid⟩
    · exact ⟨n, Nat.lt_succ_self n, hnow⟩

/-- What was reported stays noted until it is deleted. -/
theorem previousAt_of_reported (h : Undisturbed tags its pools) {m n : ℕ} {id : PortId}
    (hm : m < n) (hid : id ∈ (its m).reported tags)
    (hkept : ∀ k < n, id ∉ deletedAt tags its pools k) : id ∈ previousAt tags its pools n := by
  induction n with
  | zero => exact absurd hm (Nat.not_lt_zero m)
  | succ n ih =>
    have hknown : (⟨pools n, previousAt tags its pools n, []⟩ : Sweep).Knows id ∨
        id ∈ (its n).reported tags := by
      rcases Nat.lt_succ_iff_lt_or_eq.mp hm with hlt | rfl
      · exact .inl (.inl (ih hlt fun k hk => hkept k (Nat.lt_succ_of_lt hk)))
      · exact .inr hid
    have hnot := hkept n (Nat.lt_succ_self n)
    rw [deletedAt, triggerCleanup_eq] at hnot
    rw [previousAt, triggerCleanup_eq]
    exact (knows_visitAll (h.quiet n) hknown).resolve_right hnot

/-- **Ports are deleted in their second iteration in a row** wherever reported ports stay
reported, and where nothing disturbs the iterations only there. -/
theorem deletes_seen_twice :
    (SteadyCandidates tags its → DeletesSeenTwice tags its pools) ∧
      (Undisturbed tags its pools →
        (DeletesSeenTwice tags its pools ↔ SteadyCandidates tags its)) := by
  have hsteady : SteadyCandidates tags its → DeletesSeenTwice tags its pools := by
    intro h n id hid
    rw [deletedAt, triggerCleanup_eq] at hid
    rcases mem_deleted_visitAll hid with hnil | ⟨before, x, hx, rfl, hremovable, hanswer, hseen⟩
    · cases hnil
    · refine h n before x hx hremovable hanswer ?_
      rcases hseen with hprev | hbefore
      · exact .inr (reported_of_previousAt hprev)
      · exact .inl hbefore
  refine ⟨hsteady, fun hundisturbed => ⟨fun h n before x hx hremovable hanswer hseen => ?_,
    hsteady⟩⟩
  refine h n x.id ?_
  rw [deletedAt, triggerCleanup_eq]
  refine deleted_of_known hx (hundisturbed.quiet n) hremovable hanswer ?_
  rcases hseen with hbefore | ⟨m, hm, hid⟩
  · exact .inr hbefore
  · refine .inl (.inl (previousAt_of_reported hundisturbed hm hid fun k hk hdel => ?_))
    -- a deleted port would not be listed now
    obtain ⟨rest, hrest⟩ := hx
    refine hundisturbed.gone k x.id hdel n hk ?_
    rw [Cleanup.reported, hrest]
    exact List.mem_map_of_mem (List.mem_append_right _ List.mem_cons_self)

end Iterations

/-! ## A port that is DOWN, and one that is DOWN again -/

/-- An iteration that lists one unbound port, or none. -/
def portListed (down : Bool) : Cleanup where
  recovered := true
  subnets := some ["subnet"]
  detached := ⟨[], true⟩
  existing := ⟨if down then [⟨"port", some .kuryr, [some "subnet"], ""⟩] else [], true⟩
  removal := fun _ => .deleted
  deleted := fun _ => true

theorem portListed_sightings (tags down : Bool) :
    (portListed down).sightings tags = if down then [⟨"port", true, .deleted⟩] else [] := by
  cases tags <;> cases down <;> rfl

theorem steadyCandidates_twoInARow : SteadyCandidates true fun n => portListed (n < 2) := by
  intro n before x hx _ _ hseen
  obtain ⟨rest, hrest⟩ := hx
  rw [portListed_sightings] at hrest
  by_cases hn : n < 2
  · rw [decide_eq_true hn, if_pos rfl] at hrest
    -- the port is alone in its listing
    obtain ⟨rfl, rfl, -⟩ : before = [] ∧ x = ⟨"port", true, .deleted⟩ ∧ rest = [] := by
      cases before with
      | nil =>
        cases hrest
        exact ⟨rfl, rfl, rfl⟩
      | cons y before => simp at hrest
    obtain ⟨m, hm, -⟩ := hseen.resolve_left List.not_mem_nil
    refine ⟨0, by omega, ?_⟩
    rw [Cleanup.reported, portListed_sightings]
    exact List.mem_singleton_self _
  · rw [decide_eq_false hn, if_neg Bool.false_ne_true] at hrest
    simp at hrest

/-- Listed in two iterations in a row, the port is deleted in the second one. -/
theorem deletes_seen_twice_twoInARow :
    SteadyCandidates true (fun n => portListed (n < 2)) ∧
      DeletesSeenTwice true (fun n => portListed (n < 2)) (fun _ => Pool.empty) ∧
      deletedAt true (fun n => portListed (n < 2)) (fun _ => Pool.empty) 1 = ["port"] :=
  ⟨steadyCandidates_twoInARow, deletes_seen_twice.1 steadyCandidates_twoInARow, by decide +kernel⟩

/-- DOWN in the first iteration, in use during the second and DOWN again in the third, the
port is deleted in the third. -/
theorem deletes_reused_port :
    deletedAt true (fun n => portListed (n = 0 ∨ n = 2)) (fun _ => Pool.empty) 2 = ["port"] ∧
      (portListed (decide (1 = 0 ∨ 1 = 2))).reported true = [] ∧
      ¬ DeletesSeenTwice true (fun n => portListed (n = 0 ∨ n = 2)) (fun _ => Pool.empty) := by
  have hdel : deletedAt true (fun n => portListed (n = 0 ∨ n = 2)) (fun _ => Pool.empty) 2 =
      ["port"] := by decide +kernel
  refine ⟨hdel, rfl, fun h => ?_⟩
  obtain ⟨m, hm, hid⟩ := h 2 "port" (hdel ▸ List.mem_singleton_self _)
  obtain rfl : m = 1 := by omega
  cases hid

end NodeCleanup

end KuryrKubernetes
