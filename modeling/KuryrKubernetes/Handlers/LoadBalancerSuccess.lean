import KuryrKubernetes.Handlers.LoadBalancerAgreement
import KuryrKubernetes.Handlers.LoadBalancerIntegrity
import KuryrKubernetes.Handlers.LoadBalancerLookup

/-!
# Passes in which every call succeeds

`Obliging` is a driver and an API that never fail: patches are applied, resources
come with the attributes that were asked for, and the load balancer service has one
listener for each slot and does not reuse the id of a recorded pool.

For such a world each step function has one total-correctness statement, from a
status in memory that is also stored (`InSync`) for the removals, and from one that
is stored over a `base` for the additions: after a change of address, `base` is what
the patches have not overwritten yet.
-/

namespace KuryrKubernetes

namespace LoadBalancer

open Effect

/-! ## The world -/

/-- The call returned, and did not touch the stored status. -/
def Reply.Succeeds {α : Type} (r : Reply α) (P : α → Prop) : Prop :=
  r.cleaned = false ∧ ∃ a, r.outcome = some a ∧ P a

/-- All driver and patch calls succeed, with the requested attributes. -/
structure Obliging (env : Env) : Prop where
  doubleListeners : env.doubleListenersSupported = true
  sctp : env.sctpSupported = true
  patch : ∀ w, env.patchCrd w = .applied
  balancer : ∀ w, (env.ensureLoadbalancer w).Succeeds fun _ => True
  /-- The listener of the slot if there is one, a new one otherwise. -/
  listener : ∀ w lb p, (w.crd.status.listenerList.map Listener.id).Nodup →
    (w.crd.status.listenerList.map Listener.slot).Nodup →
    (env.ensureListener w lb p).Succeeds fun r => ∃ l, r = some l ∧
      l.timeoutClientData = w.crd.spec.timeoutClientData ∧
      l.timeoutMemberData = w.crd.spec.timeoutMemberData ∧
      ∀ l' ∈ w.crd.status.listenerList, l'.id = l.id ↔ l'.slot = p.slot
  /-- The pool of a listener without one is no recorded pool, nor that of a recorded
  member. -/
  pool : ∀ w lb l, l.id ∉ w.crd.status.poolList.map Pool.listenerId →
    (env.ensurePool w lb l).Succeeds fun r => ∃ id, r = some id ∧
      id ∉ w.crd.status.poolList.map Pool.id ∧ id ∉ w.stored.memberList.map Member.poolId
  member : ∀ w lb pool name ip subnet,
    (env.ensureMember w lb pool name ip subnet).Succeeds fun r => r.isSome
  releaseBalancer : ∀ w lb, (env.releaseLoadbalancer w lb).Succeeds fun _ => True
  releaseListener : ∀ w lb l, (env.releaseListener w lb l).Succeeds fun _ => True
  releasePool : ∀ w lb p, (env.releasePool w lb p).Succeeds fun _ => True
  releaseMember : ∀ w lb m, (env.releaseMember w lb m).Succeeds fun _ => True
  disassociatePubIp : ∀ w info, (env.disassociatePubIp w info).Succeeds fun _ => True
  releasePubIp : ∀ w info, (env.releasePubIp w info).Succeeds fun _ => True
  securityGroups : ∀ w, (env.serviceSecurityGroups w).Succeeds fun r => r.isSome
  pod : ∀ w ip ns, (env.getPodByIp w ip ns).Succeeds fun _ => True
  node : ∀ w ip, (env.nodesSubnet w ip).Succeeds fun _ => True
  podSubnet : ∀ w pod ip, (env.podSubnet w pod ip).Succeeds fun r => r.isSome
  /-- In layer 2 mode an address without a pod is the address of a node. -/
  nodeSubnet : env.l2MemberMode = true → ∀ w w' ip ns,
    (env.getPodByIp w ip ns).outcome = some none →
      (env.nodesSubnet w' ip).Succeeds fun r => r.isSome
  nodeStable : ∀ w w' ip subnet, (env.nodesSubnet w ip).outcome = some (some subnet) →
    (env.nodesSubnet w' ip).Succeeds fun r => r.isSome

/-- Total correctness. -/
abbrev Total {α : Type} (P : World → Prop) (x : Handler α) (Q : α → World → Prop) : Prop :=
  Triple P x Q fun _ _ => False

/-- The object in memory and the stored status. -/
def At (c : Crd) (stored : Status) (w : World) : Prop := w.crd = c ∧ w.stored = stored

/-- The status in memory is stored. -/
abbrev InSync (c : Crd) : World → Prop := At c c.status

variable {α β : Type} {env : Env} {c : Crd} {stored : Status}

theorem total_call {cl : Call} {reply : World → Reply α} {P : α → Prop}
    (h : ∀ w, At c stored w → (reply w).Succeeds P) :
    Total (At c stored) (call cl reply) fun a w => At c stored w ∧ P a := by
  intro w hw
  obtain ⟨hcleaned, a, hout, hP⟩ := h w hw
  rw [call_of_some hout]
  refine ⟨⟨hw.1, ?_⟩, hP⟩
  show storedAfter w (reply w) = stored
  rw [storedAfter, hcleaned]
  exact hw.2

theorem total_getStatus :
    Total (At c stored) getStatus fun st w => At c stored w ∧ st = c.status := by
  intro w hw
  exact ⟨hw, by rw [← hw.1]⟩

theorem total_theBalancer {lb : Balancer} (hlb : c.status.loadbalancer = some lb) :
    Total (At c stored) theBalancer fun b w => At c stored w ∧ b = lb := by
  refine Triple.keep total_getStatus fun st hst => ?_
  subst hst
  rw [hlb]
  exact Triple.pure fun w hw => ⟨hw, rfl⟩

theorem total_updateStatus {f : Status → Status} :
    Total (At c stored) (updateStatus f) fun _ w =>
      At { c with status := f c.status } stored w := by
  refine Triple.modify fun w hw => ⟨?_, hw.2⟩
  show (w.withStatus (f w.crd.status)).crd = _
  rw [← hw.1]
  rfl

theorem total_patchStatus (henv : Obliging env) :
    Total (At c stored) (patchStatus env) fun b w =>
      b = true ∧ At c (stored.patched c.status) w := by
  intro w hw
  have hrun : patchStatus env w
      = .ok true (w.record (.patchStatus true) (w.stored.patched w.crd.status)) := by
    simp only [patchStatus, henv.patch w]
  rw [hrun]
  refine ⟨rfl, hw.1, ?_⟩
  show w.stored.patched w.crd.status = _
  rw [hw.1, hw.2]

theorem total_get_bind {f : World → Handler α} {Q : α → World → Prop}
    (h : ∀ w, At c stored w → Total (fun t => t = w) (f w) Q) :
    Total (At c stored) (get >>= f) Q :=
  Triple.get_bind h

/-! ## The removals -/

/-- The end of a removal. -/
def dropped (c : Crd) (removed : List String) (f : Status → Status) : Crd :=
  if removed = [] then c else { c with status := f c.status }

theorem total_dropRemoved (henv : Obliging env) {removed : List String} {f : Status → Status}
    (hcovers : (f c.status).Covers c.status) :
    Total (InSync c) (dropRemoved env removed f) fun _ w => InSync (dropped c removed f) w := by
  unfold dropRemoved dropped
  split
  · exact Triple.pure fun w hw => hw
  · refine Triple.bind total_updateStatus fun _ => ?_
    refine (total_patchStatus henv).post fun b w hw => ⟨hw.2.1, ?_⟩
    rw [hw.2.2]
    exact Status.patched_eq hcovers

theorem total_requireListeners (h : c.status.poolList ≠ [] → c.status.listeners ≠ none) :
    Total (InSync c) requireListeners fun _ w => InSync c w ∧ True := by
  refine Triple.keep total_getStatus fun st hst => ?_
  subst hst
  rw [if_neg fun hc => h hc.1 hc.2]
  exact Triple.pure fun w hw => ⟨hw, trivial⟩

/-- The ids of what a removal releases. -/
def released (id : α → String) (keep : α → Prop) [DecidablePred keep] (as : List α) : List String :=
  as.filterMap fun a => if keep a then none else some (id a)

theorem mem_released {id : α → String} {keep : α → Prop} [DecidablePred keep] {as : List α}
    {x : String} : x ∈ released id keep as ↔ ∃ a ∈ as, ¬ keep a ∧ id a = x := by
  simp only [released, List.mem_filterMap, Option.ite_none_left_eq_some, Option.some.injEq]

/-- With distinct ids, what is dropped is what was released. -/
theorem filter_notMem_released {id : α → String} {keep : α → Prop} [DecidablePred keep]
    {as : List α} (hids : (as.map id).Nodup) :
    (as.filter fun a => id a ∉ released id keep as) = as.filter keep := by
  refine List.filter_congr fun a ha => decide_eq_decide.mpr ?_
  rw [mem_released]
  constructor
  · intro h
    by_contra hk
    exact h ⟨a, ha, hk, rfl⟩
  · rintro hk ⟨b, hb, hkb, hid⟩
    rw [List.inj_on_of_nodup_map hids hb ha hid] at hkb
    exact hkb hk

/-- The loop of a removal. -/
theorem total_gather {f : α → Handler (Option String)} {keep : α → Prop} [DecidablePred keep]
    {id : α → String} {as : List α}
    (hkeep : ∀ a ∈ as, keep a → Total (At c stored) (f a) fun b w => At c stored w ∧ b = none)
    (hrelease : ∀ a ∈ as, ¬ keep a →
      Total (At c stored) (f a) fun b w => At c stored w ∧ b = some (id a)) :
    Total (At c stored) (gather f as) fun bs w => At c stored w ∧ bs = released id keep as := by
  have hloop : Total (At c stored) (gather f as) fun bs w => At c stored w ∧
      Gathered (fun a b => b = if keep a then none else some (id a)) as bs := Triple.gather ?_
  · exact hloop.post fun bs w hw => ⟨hw.1, hw.2.eq_filterMap⟩
  · intro a ha
    by_cases hk : keep a
    · simp only [hk, if_true]
      exact hkeep a ha hk
    · simp only [hk, if_false]
      exact hrelease a ha hk

/-- The object with the ports named that a pool serves. -/
def Crd.named (c : Crd) : Crd :=
  { c with spec := { c.spec with
      ports := (nameSpecPorts c.status.listenerList c.status.poolList c.spec.ports []).1 } }

theorem named_keys (c : Crd) :
    c.named.spec.ports.map SpecPort.key = c.spec.ports.map SpecPort.key :=
  nameSpecPorts_key

/-- `removed_ids` of `_remove_unused_members`. -/
def Crd.removedMembers (c : Crd) : List String :=
  c.status.memberList.filterMap fun m =>
    if (removalTargets c).contains m.identity then none else some m.id

theorem removedMembers_eq (c : Crd) : c.removedMembers =
    released Member.id (fun m => m.identity ∈ removalTargets c) c.status.memberList := by
  simp only [Crd.removedMembers, released, List.contains_iff_mem]

/-- The object after `_remove_unused_members`. -/
def Crd.prunedMembers (c : Crd) : Crd :=
  dropped c.named c.removedMembers fun st =>
    { st with members := some (st.memberList.filter fun m => m.id ∉ c.removedMembers) }

/-- The object after `_remove_unused_pools`. -/
def Crd.prunedPools (c : Crd) : Crd :=
  let removed := released Pool.id (fun p => isPoolInSpec c p) c.status.poolList
  dropped c removed fun st =>
    { st with
      pools := some (st.poolList.filter fun p => p.id ∉ removed)
      members := some (st.memberList.filter fun m => m.poolId ∉ removed) }

/-- The object after `_remove_unused_listeners`. -/
def Crd.prunedListeners (c : Crd) : Crd :=
  let removed := released Listener.id (fun l => l.id ∈ c.status.poolList.map Pool.listenerId)
    c.status.listenerList
  dropped c removed fun st =>
    { st with listeners := some (st.listenerList.filter fun l => l.id ∉ removed) }

/-- A release of something recorded, by the driver. -/
theorem total_release {cl : Call} {reply : World → Balancer → Reply Unit} {id : String}
    (hlb : c.status.loadbalancer ≠ none)
    (h : ∀ w lb, (reply w lb).Succeeds fun _ => True) :
    Total (At c stored) (do
      let lb ← theBalancer
      call cl fun w => reply w lb
      return some id) fun b w => At c stored w ∧ b = some id := by
  obtain ⟨lb, hlb⟩ := Option.ne_none_iff_exists'.mp hlb
  refine Triple.keep (total_theBalancer hlb) fun b hb => ?_
  refine Triple.keep (total_call fun w _ => h w b) fun _ _ => ?_
  exact Triple.pure fun w hw => ⟨hw, rfl⟩

theorem total_removeUnusedMembers (henv : Obliging env) (hname : c.name ≠ "kubernetes")
    (hlisteners : c.status.poolList ≠ [] → c.status.listeners ≠ none)
    (hlb : c.status.memberList ≠ [] → c.status.loadbalancer ≠ none) :
    Total (InSync c) (removeUnusedMembers env) fun _ w => InSync c.prunedMembers w := by
  unfold removeUnusedMembers
  refine Triple.keep (total_requireListeners hlisteners) fun _ _ => ?_
  refine total_get_bind fun w hw => ?_
  obtain ⟨rfl, hstored⟩ := hw
  -- the ports are named in memory only
  have hnamed : InSync w.crd.named { w with crd := w.crd.named } := ⟨rfl, hstored⟩
  refine Triple.bind (Q := fun _ w' => InSync w.crd.named w')
    (Triple.modify fun t ht => by rw [ht]; exact hnamed) fun _ => ?_
  have hloop : Total (InSync w.crd.named) (gather (releaseUnusedMember env
      (removalTargets w.crd)) w.crd.status.memberList) fun bs t => InSync w.crd.named t ∧
        bs = released Member.id (fun m => m.identity ∈ removalTargets w.crd)
          w.crd.status.memberList := total_gather ?_ ?_
  · refine Triple.bind hloop fun bs t ht => ?_
    obtain ⟨ht, rfl⟩ := ht
    rw [← removedMembers_eq]
    exact total_dropRemoved henv ⟨id, id, id, fun _ => rfl, id⟩ t ht
  · intro m _ hm
    unfold releaseUnusedMember
    rw [if_pos hm]
    exact Triple.pure fun t ht => ⟨ht, rfl⟩
  · intro m hmem hm
    unfold releaseUnusedMember
    rw [if_neg hm]
    have hkeeps : Total (InSync w.crd.named) (keepsNode env m)
        fun b t => InSync w.crd.named t ∧ b = false := by
      refine total_get_bind fun t ht => ?_
      have hne : t.crd.name ≠ "kubernetes" := by
        rw [ht.1]
        exact hname
      rw [if_neg hne]
      exact Triple.pure fun u hu => ⟨hu ▸ ht, rfl⟩
    refine Triple.keep hkeeps fun b hb => ?_
    rw [hb, if_neg Bool.false_ne_true]
    exact total_release (hlb (List.ne_nil_of_mem hmem)) fun w lb => henv.releaseMember w lb m

theorem total_removeUnusedPools (henv : Obliging env)
    (hlisteners : c.status.poolList ≠ [] → c.status.listeners ≠ none)
    (hlb : c.status.poolList ≠ [] → c.status.loadbalancer ≠ none) :
    Total (InSync c) (removeUnusedPools env) fun _ w => InSync c.prunedPools w := by
  unfold removeUnusedPools
  refine Triple.keep (total_requireListeners hlisteners) fun _ _ => ?_
  refine total_get_bind fun w hw => ?_
  obtain ⟨rfl, hstored⟩ := hw
  have hloop : Total (InSync w.crd) (gather (releaseUnusedPool env w.crd) w.crd.status.poolList)
      fun bs t => InSync w.crd t ∧
        bs = released Pool.id (fun p => isPoolInSpec w.crd p) w.crd.status.poolList :=
    total_gather ?_ ?_
  · refine Triple.bind (hloop.pre fun t ht => by rw [ht]; exact ⟨rfl, hstored⟩) fun bs t ht => ?_
    obtain ⟨ht, rfl⟩ := ht
    exact total_dropRemoved henv ⟨id, id, fun _ => rfl, fun _ => rfl, id⟩ t ht
  · intro p _ hp
    unfold releaseUnusedPool
    rw [if_pos hp]
    exact Triple.pure fun t ht => ⟨ht, rfl⟩
  · intro p hmem hp
    unfold releaseUnusedPool
    rw [if_neg hp]
    exact total_release (hlb (List.ne_nil_of_mem hmem)) fun w lb => henv.releasePool w lb p

theorem total_removeUnusedListeners (henv : Obliging env)
    (hlb : c.status.listenerList ≠ [] → c.status.loadbalancer ≠ none) :
    Total (InSync c) (removeUnusedListeners env) fun _ w => InSync c.prunedListeners w := by
  unfold removeUnusedListeners
  refine Triple.keep total_getStatus fun st hst => ?_
  subst hst
  have hloop : Total (InSync c) (gather (releaseUnusedListener env
      (c.status.poolList.map Pool.listenerId)) c.status.listenerList) fun bs t => InSync c t ∧
        bs = released Listener.id (fun l => l.id ∈ c.status.poolList.map Pool.listenerId)
          c.status.listenerList := total_gather ?_ ?_
  · refine Triple.bind hloop fun bs t ht => ?_
    obtain ⟨ht, rfl⟩ := ht
    exact total_dropRemoved henv ⟨id, fun _ => rfl, id, id, id⟩ t ht
  · intro l _ hl
    unfold releaseUnusedListener
    rw [if_pos hl]
    exact Triple.pure fun t ht => ⟨ht, rfl⟩
  · intro l hmem hl
    unfold releaseUnusedListener
    rw [if_neg hl]
    exact total_release (hlb (List.ne_nil_of_mem hmem)) fun w lb => henv.releaseListener w lb l

/-! ### What is left -/

/-- What earlier runs leave, for a spec with distinct slots and names: integrity, one
listener for a slot, one pool for a listener, and nothing without a load balancer. -/
structure Tidy (c : Crd) : Prop extends
    Integral c.status.listenerList c.status.poolList c.status.memberList where
  slots : (c.spec.ports.map SpecPort.slot).Nodup
  names : (c.spec.ports.map fun p => p.name.join).Nodup
  listenerSlots : (c.status.listenerList.map Listener.slot).Nodup
  poolListeners : (c.status.poolList.map Pool.listenerId).Nodup
  balancer : c.status.loadbalancer = none → c.status.listenerList = []

/-- One listener for a slot and one pool for a listener: one pool for a slot. -/
theorem serving_unique {listeners : List Listener} {pools : List Pool}
    (hlisteners : (listeners.map Listener.slot).Nodup) (hpools : (pools.map Pool.listenerId).Nodup)
    (slot : Protocol × Nat) (p p' : Pool) (hp : Serving listeners pools slot p)
    (hp' : Serving listeners pools slot p') : p = p' := by
  obtain ⟨hp, l, hl, hid, hslot⟩ := hp
  obtain ⟨hp', l', hl', hid', hslot'⟩ := hp'
  obtain rfl : l = l' := List.inj_on_of_nodup_map hlisteners hl hl' (hslot.trans hslot'.symm)
  exact List.inj_on_of_nodup_map hpools hp hp' (hid.symm.trans hid')

theorem Tidy.unambiguous (h : Tidy c) :
    Unambiguous c.spec.ports c.status.listenerList c.status.poolList where
  slots := h.slots
  names := h.names
  listenerIds := h.listenerIds
  serving := serving_unique h.listenerSlots h.poolListeners

theorem listeners_ne_none {st : Status} (h : st.listenerList ≠ []) : st.listeners ≠ none := by
  intro hnone
  rw [Status.listenerList, hnone] at h
  exact h rfl

theorem Tidy.listeners_of_pools (h : Tidy c) (hpools : c.status.poolList ≠ []) :
    c.status.listenerList ≠ [] := by
  obtain ⟨p, hp⟩ := List.exists_mem_of_ne_nil _ hpools
  obtain ⟨l, hl, _⟩ := List.mem_map.mp (h.poolListener p hp)
  exact List.ne_nil_of_mem hl

theorem Tidy.pools_of_members (h : Tidy c) (hmembers : c.status.memberList ≠ []) :
    c.status.poolList ≠ [] := by
  obtain ⟨m, hm⟩ := List.exists_mem_of_ne_nil _ hmembers
  obtain ⟨p, hp, _⟩ := List.mem_map.mp (h.memberPool m hm)
  exact List.ne_nil_of_mem hp

theorem isPoolInSpec_iff {pool : Pool} (hpool : pool ∈ c.status.poolList) :
    isPoolInSpec c pool = true ↔
      ∃ p ∈ c.spec.ports, Serving c.status.listenerList c.status.poolList p.slot pool := by
  have hport : ∀ l : Listener, (portOf c.spec.ports l).isSome = true ↔
      ∃ p ∈ c.spec.ports, l.slot = p.slot := by
    intro l
    rw [portOf, List.findIdx?_isSome, List.any_eq_true]
    refine exists_congr fun p => and_congr_right fun _ => ?_
    rw [decide_eq_true_iff, Listener.slot, SpecPort.slot, Prod.mk.injEq]
    exact ⟨fun h => ⟨h.2.symm, h.1.symm⟩, fun h => ⟨h.2.symm, h.1.symm⟩⟩
  rw [isPoolInSpec, List.any_eq_true]
  constructor
  · rintro ⟨l, hl, hmatch⟩
    obtain ⟨hid, hsome⟩ := of_decide_eq_true hmatch
    obtain ⟨p, hp, hslot⟩ := (hport l).mp hsome
    exact ⟨p, hp, hpool, l, hl, hid, hslot⟩
  · rintro ⟨p, hp, _, l, hl, hid, hslot⟩
    exact ⟨l, hl, decide_eq_true ⟨hid, (hport l).mpr ⟨p, hp, hslot⟩⟩⟩

theorem dropped_same {g : Status → β} {removed : List String} {f : Status → Status}
    (hf : g (f c.status) = g c.status) : g (dropped c removed f).status = g c.status := by
  unfold dropped
  split
  · rfl
  · exact hf

theorem dropped_filter {g : Status → List β} {key : β → String} {removed : List String}
    {f : Status → Status} (hf : g (f c.status) = (g c.status).filter fun b => key b ∉ removed) :
    g (dropped c removed f).status = (g c.status).filter fun b => key b ∉ removed := by
  unfold dropped
  split
  · rename_i hnil
    rw [hnil, List.filter_eq_self.mpr]
    exact fun b _ => decide_eq_true List.not_mem_nil
  · exact hf

theorem dropped_frame (c : Crd) (removed : List String) (f : Status → Status) :
    (dropped c removed f).ns = c.ns ∧ (dropped c removed f).name = c.name ∧
      (dropped c removed f).spec = c.spec := by
  unfold dropped
  split
  · exact ⟨rfl, rfl, rfl⟩
  · exact ⟨rfl, rfl, rfl⟩

/-- The object `c'` is what the three removals leave of `c`. -/
structure Pruned (c c' : Crd) : Prop where
  ns : c'.ns = c.ns
  name : c'.name = c.name
  spec : c'.spec = c.named.spec
  loadbalancer : c'.status.loadbalancer = c.status.loadbalancer
  members : c'.status.memberList =
    c.status.memberList.filter fun m => m.identity ∈ removalTargets c
  pools : c'.status.poolList = c.status.poolList.filter (isPoolInSpec c)
  listeners : c'.status.listenerList =
    c.status.listenerList.filter fun l => l.id ∈ c'.status.poolList.map Pool.listenerId

def Crd.pruned (c : Crd) : Crd := c.prunedMembers.prunedPools.prunedListeners

theorem prunedMembers_members (h : Tidy c) : c.prunedMembers.status.memberList =
    c.status.memberList.filter fun m => m.identity ∈ removalTargets c := by
  have hdrop : c.prunedMembers.status.memberList = c.status.memberList.filter fun m =>
      m.id ∉ c.removedMembers :=
    dropped_filter (g := Status.memberList) rfl
  rw [hdrop, removedMembers_eq]
  exact filter_notMem_released h.memberIds

/-- The later removals see the pools of the spec as the first one did. -/
theorem isPoolInSpec_prunedMembers {pool : Pool} (hpool : pool ∈ c.status.poolList) :
    isPoolInSpec c.prunedMembers pool = isPoolInSpec c pool := by
  have hlisteners : c.prunedMembers.status.listenerList = c.status.listenerList :=
    dropped_same (g := Status.listenerList) rfl
  have hpools : c.prunedMembers.status.poolList = c.status.poolList :=
    dropped_same (g := Status.poolList) rfl
  have hspec : c.prunedMembers.spec = c.named.spec := (dropped_frame _ _ _).2.2
  have hslots := slots_of_keys (named_keys c)
  have hport : ∀ {qs qs' : List SpecPort}, qs.map SpecPort.slot = qs'.map SpecPort.slot →
      (∃ p ∈ qs, Serving c.status.listenerList c.status.poolList p.slot pool) →
      ∃ p ∈ qs', Serving c.status.listenerList c.status.poolList p.slot pool := by
    rintro qs qs' hqs ⟨p, hp, hserving⟩
    have hmem : p.slot ∈ qs'.map SpecPort.slot := hqs ▸ List.mem_map_of_mem hp
    obtain ⟨q, hq, hslot⟩ := List.mem_map.mp hmem
    exact ⟨q, hq, hslot ▸ hserving⟩
  rw [Bool.eq_iff_iff, isPoolInSpec_iff hpool, isPoolInSpec_iff (hpools.symm ▸ hpool), hspec,
    hlisteners, hpools]
  exact ⟨hport hslots, hport hslots.symm⟩

theorem prunedPools_pools (h : Tidy c) :
    c.prunedMembers.prunedPools.status.poolList = c.status.poolList.filter (isPoolInSpec c) := by
  have hpools : c.prunedMembers.status.poolList = c.status.poolList :=
    dropped_same (g := Status.poolList) rfl
  have hdrop : c.prunedMembers.prunedPools.status.poolList =
      c.prunedMembers.status.poolList.filter fun p => p.id ∉ released Pool.id
        (fun p => isPoolInSpec c.prunedMembers p) c.prunedMembers.status.poolList :=
    dropped_filter (g := Status.poolList) rfl
  rw [hdrop, filter_notMem_released (by rw [hpools]; exact h.poolIds), hpools]
  refine List.filter_congr fun p hp => ?_
  rw [isPoolInSpec_prunedMembers hp, Bool.decide_eq_true]

/-- Wanted members belong to pools that stay. -/
theorem prunedPools_members (h : Tidy c) : c.prunedMembers.prunedPools.status.memberList =
    c.prunedMembers.status.memberList := by
  have hdrop : c.prunedMembers.prunedPools.status.memberList =
      c.prunedMembers.status.memberList.filter fun m => m.poolId ∉ released Pool.id
        (fun p => isPoolInSpec c.prunedMembers p) c.prunedMembers.status.poolList :=
    dropped_filter (g := Status.memberList) rfl
  rw [hdrop, List.filter_eq_self]
  intro m hm
  rw [prunedMembers_members h] at hm
  have hwanted := (identity_mem_removalTargets h.unambiguous).mp
    (of_decide_eq_true (List.mem_filter.mp hm).2)
  obtain ⟨e, _, pool, ⟨p, hp, _, hserving⟩, hidentity⟩ := hwanted
  rw [decide_eq_true_iff, mem_released]
  rintro ⟨pool', hpool', hout, hid⟩
  have hpools : c.prunedMembers.status.poolList = c.status.poolList :=
    dropped_same (g := Status.poolList) rfl
  rw [hpools] at hpool'
  have hsame : pool.id = pool'.id := by
    simp only [Member.identity, Prod.mk.injEq, Option.some.injEq] at hidentity
    rw [hid, hidentity.2.2.2]
  obtain rfl := List.inj_on_of_nodup_map h.poolIds hserving.1 hpool' hsame
  rw [isPoolInSpec_prunedMembers hpool'] at hout
  exact hout ((isPoolInSpec_iff hpool').mpr ⟨p, hp, hserving⟩)

/-- **The three removals.** -/
theorem Tidy.pruned (h : Tidy c) : Pruned c c.pruned := by
  obtain ⟨hns₁, hname₁, hspec₁⟩ := dropped_frame c.named _ _
  obtain ⟨hns₂, hname₂, hspec₂⟩ := dropped_frame c.prunedMembers _ _
  obtain ⟨hns₃, hname₃, hspec₃⟩ := dropped_frame c.prunedMembers.prunedPools _ _
  have hlb₁ : c.prunedMembers.status.loadbalancer = c.status.loadbalancer :=
    dropped_same (g := Status.loadbalancer) rfl
  have hlb₂ : c.prunedMembers.prunedPools.status.loadbalancer = _ :=
    dropped_same (g := Status.loadbalancer) rfl
  have hlb₃ : c.pruned.status.loadbalancer = _ := dropped_same (g := Status.loadbalancer) rfl
  have hmembers₃ : c.pruned.status.memberList = _ := dropped_same (g := Status.memberList) rfl
  have hpools₃ : c.pruned.status.poolList = _ := dropped_same (g := Status.poolList) rfl
  have hlisteners₁ : c.prunedMembers.status.listenerList = c.status.listenerList :=
    dropped_same (g := Status.listenerList) rfl
  have hlisteners₂ : c.prunedMembers.prunedPools.status.listenerList = _ :=
    dropped_same (g := Status.listenerList) rfl
  have hlisteners₃ : c.pruned.status.listenerList = _ :=
    dropped_filter (g := Status.listenerList) rfl
  refine ⟨hns₃.trans (hns₂.trans hns₁), hname₃.trans (hname₂.trans hname₁),
    hspec₃.trans (hspec₂.trans hspec₁), hlb₃.trans (hlb₂.trans hlb₁), ?_, ?_, ?_⟩
  · rw [hmembers₃, prunedPools_members h, prunedMembers_members h]
  · rw [hpools₃, prunedPools_pools h]
  · rw [hlisteners₃, filter_notMem_released, hlisteners₂, hlisteners₁, hpools₃]
    rw [hlisteners₂, hlisteners₁]
    exact h.listenerIds

end LoadBalancer

end KuryrKubernetes
