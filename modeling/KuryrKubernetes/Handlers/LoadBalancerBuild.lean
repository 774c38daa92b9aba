import KuryrKubernetes.Handlers.LoadBalancerSuccess

/-!
# Listeners and pools of an obliging world

After the removals a pass makes the load balancer, one listener for each port of the
spec and one pool for each listener (`Built`). Meanwhile the stored status is the one
in memory laid over a `base`: nothing, or, if the address has changed, what was
stored before.

In a built status all of this has nothing left to do (`syncLbaasPools_of_built`).
-/

namespace KuryrKubernetes

namespace LoadBalancer

open Effect

variable {env : Env} {c c' : Crd} {base : Status}

/-! ## Laying over -/

namespace Status

theorem empty_overlay (st : Status) : Status.overlay {} st = st := by
  simp [overlay]

theorem or_or_eq {α : Type} {a b d : Option α} (h : b.isSome → a.isSome) :
    a.or (b.or d) = a.or d := by
  cases a with
  | some a => rfl
  | none =>
    cases b with
    | none => rfl
    | some b => cases h rfl

/-- A patch with the keys of the last one, and more. -/
theorem patched_overlay {st st' : Status} (hcovers : st'.Covers st) (hne : st' ≠ {}) :
    (base.overlay st).patched st' = base.overlay st' := by
  rw [patched, if_neg hne]
  simp only [overlay, or_or_eq hcovers.loadbalancer, or_or_eq hcovers.listeners,
    or_or_eq hcovers.pools, or_or_eq hcovers.members, or_or_eq hcovers.servicePubIpInfo]

end Status

/-- The stored status is the one in memory over `base`. -/
def Over (base : Status) (w : World) : Prop := w.stored = base.overlay w.crd.status

theorem total_patchStatus_over (henv : Obliging env) {st : Status} (hcovers : c.status.Covers st)
    (hne : c.status ≠ {}) :
    Total (At c (base.overlay st)) (patchStatus env) fun b w =>
      b = true ∧ w.crd = c ∧ Over base w := by
  refine (total_patchStatus henv).post fun b w hw => ⟨hw.1, hw.2.1, ?_⟩
  rw [Over, hw.2.2, hw.2.1]
  exact Status.patched_overlay hcovers hne

/-! ## The load balancer -/

/-- The load balancer is at another address than the spec wants. -/
def Crd.Moved (c : Crd) : Prop := ∃ lb, c.status.loadbalancer = some lb ∧ some lb.ip ≠ c.spec.ip

/-- What the rest of a pass uses of a load balancer. -/
def Balancer.place (lb : Balancer) : String × Option String := (lb.ip, lb.subnetId)

/-- The object `c'` has a load balancer at the address of the spec. -/
structure Placed (c : Crd) (base : Status) (c' : Crd) : Prop where
  ns : c'.ns = c.ns
  name : c'.name = c.name
  spec : c'.spec = c.spec
  loadbalancer : ∃ lb, c'.status.loadbalancer = some lb ∧ some lb.ip = c.spec.ip ∧
    (c.status.loadbalancer = some lb ∨ lb.subnetId = c.spec.subnetId)
  kept : ¬ c.Moved → base = {} ∧ c'.status.listeners = c.status.listeners ∧
    c'.status.pools = c.status.pools ∧ c'.status.members = c.status.members
  moved : c.Moved → base = c.status ∧ c'.status.OnlyBalancer

theorem total_ensureBalancer (henv : Obliging env) {ip : String} {stored : Status}
    (hip : c.spec.ip = some ip) :
    Total (At c stored) (ensureBalancer env) fun _ w => ∃ lb, lb.ip = ip ∧
      lb.subnetId = c.spec.subnetId ∧
      At { c with status := { c.status with loadbalancer := some lb } } stored w := by
  refine total_get_bind fun w hw => ?_
  obtain ⟨rfl, rfl⟩ := hw
  simp only [hip]
  refine Triple.bind ((total_call (c := w.crd) (fun w _ => henv.balancer w)).pre
    fun t ht => by rw [ht]; exact ⟨rfl, rfl⟩) fun r => ?_
  refine Triple.conseq (total_updateStatus (c := w.crd)) (fun t ht => ht.1) (fun _ t ht => ?_)
    fun _ _ he => he
  exact ⟨_, rfl, rfl, ht⟩

theorem total_releaseBalancer (henv : Obliging env) {stored : Status} (lb : Balancer) :
    Total (At c stored) (releaseBalancer env lb) fun _ w => At c stored w ∧ True := by
  refine Triple.keep total_getStatus fun st _ => ?_
  cases hinfo : st.servicePubIpInfo with
  | none => exact total_call fun w _ => henv.releaseBalancer w lb
  | some info =>
    refine Triple.keep (total_call fun w _ => henv.disassociatePubIp w info) fun _ _ => ?_
    refine Triple.keep (total_call fun w _ => henv.releasePubIp w info) fun _ _ => ?_
    exact total_call fun w _ => henv.releaseBalancer w lb

/-- `_sync_lbaas_loadbalancer` leaves a load balancer at the address of the spec. -/
theorem total_syncLbaasLoadbalancer (henv : Obliging env) (hip : c.spec.ip.isSome) :
    Total (InSync c) (syncLbaasLoadbalancer env) fun _ w =>
      ∃ base, Over base w ∧ Placed c base w.crd := by
  obtain ⟨ip, hip⟩ := Option.isSome_iff_exists.mp hip
  refine total_get_bind fun w hw => ?_
  obtain ⟨rfl, hstored⟩ := hw
  have hsync : ∀ t, t = w → InSync w.crd t := by
    rintro t rfl
    exact ⟨rfl, hstored⟩
  cases hlb : w.crd.status.loadbalancer with
  | none =>
    have hmoved : ¬ w.crd.Moved := by
      rintro ⟨lb, hsome, _⟩
      rw [hlb] at hsome
      cases hsome
    simp only [hlb]
    refine Triple.bind ((total_ensureBalancer henv hip).pre hsync) fun _ t ht => ?_
    obtain ⟨lb, hlbip, hsubnet, ht⟩ := ht
    refine (total_patchStatus henv).post (fun b u hu => ?_) t ht
    refine ⟨{}, ?_, ?_⟩
    · rw [Over, Status.empty_overlay, hu.2.2, hu.2.1]
      exact Status.patched_eq ⟨fun _ => rfl, id, id, id, id⟩
    · rw [hu.2.1]
      refine ⟨rfl, rfl, rfl, ⟨lb, rfl, ?_, .inr hsubnet⟩, fun _ => ⟨rfl, rfl, rfl, rfl⟩,
        fun h => absurd h hmoved⟩
      rw [hlbip, hip]
  | some lb =>
    simp only [hlb]
    split
    · rename_i hne
      have hmoved : w.crd.Moved := ⟨lb, hlb, hne⟩
      refine Triple.bind ((total_releaseBalancer henv lb).pre hsync) fun _ => ?_
      refine Triple.bind (total_updateStatus.pre fun t ht => ht.1) fun _ => ?_
      refine Triple.bind (total_ensureBalancer henv hip) fun _ t ht => ?_
      obtain ⟨lb', hlbip, hsubnet, ht⟩ := ht
      refine (total_patchStatus henv).post (fun b u hu => ?_) t ht
      refine ⟨w.crd.status, ?_, ?_⟩
      · rw [Over, hu.2.2, hu.2.1, Status.patched, if_neg]
        intro hempty
        cases hempty
      · rw [hu.2.1]
        refine ⟨rfl, rfl, rfl, ⟨lb', rfl, ?_, .inr hsubnet⟩, fun h => absurd hmoved h,
          fun _ => ⟨rfl, ⟨rfl, rfl, rfl, rfl⟩⟩⟩
        rw [hlbip, hip]
    · rename_i heq
      refine Triple.pure fun t ht => ⟨{}, ?_, ?_⟩
      · rw [Over, Status.empty_overlay, ht]
        exact hstored
      · rw [ht]
        refine ⟨rfl, rfl, rfl, ⟨lb, hlb, not_not.mp heq, .inl hlb⟩, fun _ => ⟨rfl, rfl, rfl, rfl⟩,
          ?_⟩
        rintro ⟨lb', hsome, hne⟩
        rw [hlb, Option.some.injEq] at hsome
        exact absurd (hsome ▸ hne) heq

theorem nodup_map_concat {α κ : Type} {f : α → κ} {as : List α} {a : α} (h : (as.map f).Nodup)
    (ha : f a ∉ as.map f) : ((as ++ [a]).map f).Nodup := by
  rw [List.map_append, List.map_singleton, List.nodup_append]
  refine ⟨h, List.nodup_singleton _, ?_⟩
  rintro x hx y hy rfl
  exact ha (List.mem_singleton.mp hy ▸ hx)

/-! ## Listeners -/

/-- The loop of `_add_new_listeners`, started with `c`, before the ports in `rest`. -/
structure ListenerRun (c : Crd) (rest : List SpecPort) (c' : Crd) : Prop where
  ns : c'.ns = c.ns
  name : c'.name = c.name
  spec : c'.spec = c.spec
  place : c'.status.loadbalancer.map Balancer.place = c.status.loadbalancer.map Balancer.place
  pools : c'.status.pools = c.status.pools
  members : c'.status.members = c.status.members
  todo : ∀ p ∈ rest, p ∈ c.spec.ports
  ids : (c'.status.listenerList.map Listener.id).Nodup
  slots : (c'.status.listenerList.map Listener.slot).Nodup
  inSpec : ∀ l ∈ c'.status.listenerList, ∃ p ∈ c.spec.ports, l.slot = p.slot
  served : ∀ p ∈ c.spec.ports, p ∈ rest ∨ ∃ l ∈ c'.status.listenerList, l.Serves c.spec p
  /-- Pools keep their listeners. -/
  kept : ∀ l ∈ c.status.listenerList, ∃ l' ∈ c'.status.listenerList, l'.id = l.id ∧ l'.slot = l.slot

/-- What `_add_new_listeners` records. -/
def Status.recorded (st : Status) (clears : Bool) (l : Listener) : Status :=
  let st := if clears then st.setSecurityGroups [] else st
  { st with listeners := some (recordListener st.listenerList l) }

theorem Status.recorded_frame (st : Status) (clears : Bool) (l : Listener) :
    (st.recorded clears l).loadbalancer.map Balancer.place = st.loadbalancer.map Balancer.place ∧
      (st.recorded clears l).pools = st.pools ∧ (st.recorded clears l).members = st.members ∧
      (st.recorded clears l).listenerList = recordListener st.listenerList l := by
  unfold Status.recorded
  split
  · refine ⟨?_, rfl, rfl, rfl⟩
    show (st.loadbalancer.map _).map _ = _
    rw [Option.map_map]
    rfl
  · exact ⟨rfl, rfl, rfl, rfl⟩

theorem Status.recorded_covers (st : Status) (clears : Bool) (l : Listener) :
    (st.recorded clears l).Covers st := by
  unfold Status.recorded
  split
  · refine ⟨fun h => ?_, fun _ => rfl, id, id, id⟩
    show (st.setSecurityGroups []).loadbalancer.isSome
    rw [Status.isSome_setSecurityGroups]
    exact h
  · exact ⟨id, fun _ => rfl, id, id, id⟩

/-- A listener of a slot that had none, or the same one with other timeouts. -/
theorem ListenerRun.record {p : SpecPort} {rest : List SpecPort} (h : ListenerRun c (p :: rest) c')
    {l : Listener} (clears : Bool) (hslot : l.slot = p.slot)
    (hserves : l.Serves c.spec p)
    (hnew : ∀ l' ∈ c'.status.listenerList, l'.id = l.id ↔ l'.slot = p.slot) :
    ListenerRun c rest { c' with status := c'.status.recorded clears l } := by
  obtain ⟨hplace, hpools, hmembers, hlist⟩ := c'.status.recorded_frame clears l
  rw [recordListener_eq h.ids] at hlist
  have hold : ∀ l' ∈ c'.status.listenerList, l'.id ≠ l.id →
      l' ∈ (c'.status.recorded clears l).listenerList := by
    intro l' hl' hne
    rw [hlist]
    exact List.mem_append_left _ (List.mem_filter.mpr ⟨hl', decide_eq_true hne⟩)
  have hl : l ∈ (c'.status.recorded clears l).listenerList := by
    rw [hlist]
    exact List.mem_append_right _ List.mem_cons_self
  -- a listener that stays keeps clear of the id and of the slot of the new one
  have hclear : ∀ l' ∈ c'.status.listenerList.filter (fun x => x.id ≠ l.id),
      l' ∈ c'.status.listenerList ∧ l'.id ≠ l.id ∧ l'.slot ≠ l.slot := by
    intro l' hl'
    obtain ⟨hl', hne⟩ := List.mem_filter.mp hl'
    have hne := of_decide_eq_true hne
    exact ⟨hl', hne, fun hs => hne ((hnew l' hl').mpr (hs.trans hslot))⟩
  refine ⟨h.ns, h.name, h.spec, hplace.trans h.place, hpools.trans h.pools,
    hmembers.trans h.members, fun q hq => h.todo q (List.mem_cons_of_mem _ hq), ?_, ?_, ?_, ?_, ?_⟩
  · show ((c'.status.recorded clears l).listenerList.map Listener.id).Nodup
    rw [hlist]
    refine nodup_map_concat (h.ids.sublist (List.filter_sublist.map _)) fun hmem => ?_
    obtain ⟨l', hl', hid⟩ := List.mem_map.mp hmem
    exact (hclear l' hl').2.1 hid
  · show ((c'.status.recorded clears l).listenerList.map Listener.slot).Nodup
    rw [hlist]
    refine nodup_map_concat (h.slots.sublist (List.filter_sublist.map _)) fun hmem => ?_
    obtain ⟨l', hl', hslot'⟩ := List.mem_map.mp hmem
    exact (hclear l' hl').2.2 hslot'
  · intro l' hl'
    have hl' : l' ∈ (c'.status.recorded clears l).listenerList := hl'
    rw [hlist, List.mem_append] at hl'
    rcases hl' with hl' | hl'
    · exact h.inSpec l' (hclear l' hl').1
    · rw [List.mem_singleton.mp hl']
      exact ⟨p, h.todo p List.mem_cons_self, hslot⟩
  · intro q hq
    rcases h.served q hq with hrest | ⟨l', hl', hserves'⟩
    · rcases List.mem_cons.mp hrest with rfl | hrest
      · exact .inr ⟨l, hl, hserves⟩
      · exact .inl hrest
    · by_cases hid : l'.id = l.id
      · -- the listener of `q` was that of `p`, so `q` is served by the new one
        have hslot' := (hnew l' hl').mp hid
        refine .inr ⟨l, hl, ?_⟩
        have hport : l'.port = p.port := congrArg Prod.snd hslot'
        have hprotocol : l'.protocol = p.protocol := congrArg Prod.fst hslot'
        exact ⟨hserves.1.trans (hport.symm.trans hserves'.1),
          hserves.2.1.trans (hprotocol.symm.trans hserves'.2.1), hserves.2.2⟩
      · exact .inr ⟨l', hold l' hl' hid, hserves'⟩
  · intro l₀ hl₀
    obtain ⟨l', hl', hid, hslot'⟩ := h.kept l₀ hl₀
    by_cases hsame : l'.id = l.id
    · refine ⟨l, hl, hsame.symm.trans hid, ?_⟩
      rw [hslot, ← hslot', (hnew l' hl').mp hsame]
    · exact ⟨l', hold l' hl' hsame, hid, hslot'⟩

/-- One iteration. -/
theorem total_addNewListener (henv : Obliging env) {p : SpecPort} {rest : List SpecPort}
    {changed : Bool} (hlb : c.status.loadbalancer.isSome) :
    Total (fun w => ListenerRun c (p :: rest) w.crd ∧ Over base w) (addNewListener env p changed)
      (Exit (fun _ => False) fun _ w => ListenerRun c rest w.crd ∧ Over base w) := by
  refine Triple.get_bind fun w hw => ?_
  obtain ⟨hrun, hover⟩ := hw
  have hat : ∀ t, t = w → At w.crd (base.overlay w.crd.status) t := by
    rintro t rfl
    exact ⟨rfl, hover⟩
  simp only
  split
  · rename_i hserved
    refine Triple.pure fun t ht => ?_
    rw [ht]
    refine ⟨⟨hrun.ns, hrun.name, hrun.spec, hrun.place, hrun.pools, hrun.members,
      fun q hq => hrun.todo q (List.mem_cons_of_mem _ hq), hrun.ids, hrun.slots, hrun.inSpec,
      fun q hq => ?_, hrun.kept⟩, hover⟩
    obtain ⟨l, hl, hserves⟩ := List.any_eq_true.mp hserved
    rw [hrun.spec] at hserves
    rcases hrun.served q hq with hrest | hserved
    · rcases List.mem_cons.mp hrest with rfl | hrest
      · exact .inr ⟨l, hl, of_decide_eq_true hserves⟩
      · exact .inl hrest
    · exact .inr hserved
  · rw [if_neg (fun h => Bool.false_ne_true (h.2.symm.trans henv.doubleListeners)),
      if_neg (fun h => Bool.false_ne_true (h.2.symm.trans henv.sctp))]
    obtain ⟨lb, hsome⟩ : ∃ lb, w.crd.status.loadbalancer = some lb := by
      obtain ⟨lb₀, hlb₀⟩ := Option.isSome_iff_exists.mp hlb
      have hplace := hrun.place
      rw [hlb₀] at hplace
      obtain ⟨lb, hlb, _⟩ := Option.map_eq_some_iff.mp hplace
      exact ⟨lb, hlb⟩
    rw [hsome]
    simp only
    have hcall : Total (At w.crd (base.overlay w.crd.status))
        (call (.ensure .listener) fun w => env.ensureListener w lb p) fun r t =>
          At w.crd (base.overlay w.crd.status) t ∧ ∃ l, r = some l ∧
            l.timeoutClientData = c.spec.timeoutClientData ∧
            l.timeoutMemberData = c.spec.timeoutMemberData ∧
            ∀ l' ∈ w.crd.status.listenerList, l'.id = l.id ↔ l'.slot = p.slot := by
      refine total_call fun t ht => ?_
      have hreply := henv.listener t lb p (by rw [ht.1]; exact hrun.ids)
        (by rw [ht.1]; exact hrun.slots)
      rw [ht.1, hrun.spec] at hreply
      exact hreply
    refine Triple.bind (hcall.pre hat) fun r t ht => ?_
    obtain ⟨ht, r, rfl, hclient, hmember, hnew⟩ := ht
    simp only
    refine Triple.bind total_updateStatus (fun _ => ?_) t ht
    have hcovers := w.crd.status.recorded_covers r.clearsSecurityGroups
      ⟨r.id, p.protocol, p.port, r.timeoutClientData, r.timeoutMemberData⟩
    refine Triple.bind (total_patchStatus_over henv hcovers ?_) fun b u hu => ?_
    · intro hempty
      have hlisteners := congrArg Status.listeners hempty
      cases hlisteners
    · obtain ⟨rfl, hcrd, hover⟩ := hu
      refine ⟨?_, hover⟩
      rw [hcrd]
      exact hrun.record _ rfl ⟨rfl, rfl, hclient, hmember⟩ hnew

/-- `_add_new_listeners`. -/
theorem total_addNewListeners (henv : Obliging env) (hlb : c.status.loadbalancer.isSome)
    (hids : (c.status.listenerList.map Listener.id).Nodup)
    (hslots : (c.status.listenerList.map Listener.slot).Nodup)
    (hinSpec : ∀ l ∈ c.status.listenerList, ∃ p ∈ c.spec.ports, l.slot = p.slot) :
    Total (At c (base.overlay c.status)) (addNewListeners env) fun _ w =>
      ListenerRun c [] w.crd ∧ Over base w := by
  refine total_get_bind fun w hw => ?_
  obtain ⟨rfl, hover⟩ := hw
  have hmem : ∀ p, p ∈ sortedPorts w.crd.spec.ports ↔ p ∈ w.crd.spec.ports := by
    intro p
    exact List.mem_insertionSort _
  have hloop : Total (fun t => ListenerRun w.crd (sortedPorts w.crd.spec.ports) t.crd ∧ Over base t)
      (sweep (addNewListener env) (sortedPorts w.crd.spec.ports) false)
      (Exit (fun _ => False) fun _ t => ListenerRun w.crd [] t.crd ∧ Over base t) :=
    Triple.sweep (I := fun rest _ t => ListenerRun w.crd rest t.crd ∧ Over base t)
      (fun p rest changed => total_addNewListener henv hlb) _ _
  refine Triple.bind (hloop.pre ?_) fun r => ?_
  · rintro t rfl
    exact ⟨⟨rfl, rfl, rfl, rfl, rfl, rfl, fun p hp => (hmem p).mp hp, hids, hslots, hinSpec,
      fun p hp => .inl ((hmem p).mpr hp), fun l hl => ⟨l, hl, rfl, rfl⟩⟩, hover⟩
  · cases r with
    | none => exact fun _ hs => hs.elim
    | some b => exact Triple.pure fun t ht => ht

/-! ## Pools -/

/-- The loop of `_add_new_pools`, started with `c`, before the listeners in `rest`. -/
structure PoolRun (c : Crd) (base : Status) (rest : List Listener) (c' : Crd) : Prop where
  frame : c' = { c with status := { c.status with pools := c'.status.pools } }
  todo : (rest.map Listener.id).Nodup
  known : ∀ l ∈ rest, l ∈ c.status.listenerList
  ids : (c'.status.poolList.map Pool.id).Nodup
  listeners : (c'.status.poolList.map Pool.listenerId).Nodup
  poolListener : ∀ p ∈ c'.status.poolList, p.listenerId ∈ c.status.listenerList.map Listener.id
  pooled : ∀ l ∈ c.status.listenerList, l ∈ rest ∨ l.id ∈ c'.status.poolList.map Pool.listenerId
  lacking : ∀ l ∈ rest, l.id ∉ c.status.poolList.map Pool.listenerId →
    l.id ∉ c'.status.poolList.map Pool.listenerId
  kept : ∀ p ∈ c.status.poolList, p ∈ c'.status.poolList
  /-- New pools are not those of stored members. -/
  fresh : ∀ p ∈ c'.status.poolList, p ∈ c.status.poolList ∨
    p.id ∉ (base.overlay c.status).memberList.map Member.poolId

section PoolRun

variable {l : Listener} {rest : List Listener}

theorem PoolRun.tail (h : PoolRun c base (l :: rest) c')
    (hl : l.id ∈ c'.status.poolList.map Pool.listenerId) : PoolRun c base rest c' where
  frame := h.frame
  todo := (List.nodup_cons.mp h.todo).2
  known := fun x hx => h.known x (List.mem_cons_of_mem _ hx)
  ids := h.ids
  listeners := h.listeners
  poolListener := h.poolListener
  pooled := by
    intro x hx
    rcases h.pooled x hx with hx | hx
    · rcases List.mem_cons.mp hx with rfl | hx
      · exact .inr hl
      · exact .inl hx
    · exact .inr hx
  lacking := fun x hx => h.lacking x (List.mem_cons_of_mem _ hx)
  kept := h.kept
  fresh := h.fresh

/-- A pool for the listener at hand. -/
theorem PoolRun.add (h : PoolRun c base (l :: rest) c') {id : String}
    (hl : l.id ∉ c'.status.poolList.map Pool.listenerId) (hid : id ∉ c'.status.poolList.map Pool.id)
    (hmember : id ∉ (base.overlay c.status).memberList.map Member.poolId) :
    PoolRun c base rest { c' with status := { c'.status with
      pools := some (c'.status.poolList ++ [⟨id, l.id⟩]) } } := by
  have hlast : ∀ {p : Pool}, p ∈ c'.status.poolList ++ [(⟨id, l.id⟩ : Pool)] ↔
      p ∈ c'.status.poolList ∨ p = ⟨id, l.id⟩ := by
    intro p
    rw [List.mem_append, List.mem_singleton]
  have hmap : ∀ {x : Listener},
    x.id ∈ (c'.status.poolList ++ [(⟨id, l.id⟩ : Pool)]).map Pool.listenerId ↔
      x.id ∈ c'.status.poolList.map Pool.listenerId ∨ x.id = l.id := by
    intro x
    rw [List.map_append, List.mem_append]
    exact or_congr Iff.rfl List.mem_singleton
  obtain ⟨hnotin, hrest⟩ := List.nodup_cons.mp h.todo
  refine ⟨?_, hrest, fun x hx => h.known x (List.mem_cons_of_mem _ hx), nodup_map_concat h.ids hid,
    nodup_map_concat h.listeners hl, ?_, ?_, ?_, fun p hp => hlast.mpr (.inl (h.kept p hp)), ?_⟩
  · rw [h.frame]
  · intro p hp
    rcases hlast.mp hp with hp | rfl
    · exact h.poolListener p hp
    · exact List.mem_map_of_mem (h.known l List.mem_cons_self)
  · intro x hx
    rcases h.pooled x hx with hx | hx
    · rcases List.mem_cons.mp hx with rfl | hx
      · exact .inr (hmap.mpr (.inr rfl))
      · exact .inl hx
    · exact .inr (hmap.mpr (.inl hx))
  · intro x hx hnone hin
    rcases hmap.mp hin with hin | hin
    · exact h.lacking x (List.mem_cons_of_mem _ hx) hnone hin
    · exact hnotin (hin ▸ List.mem_map_of_mem hx)
  · intro p hp
    rcases hlast.mp hp with hp | rfl
    · exact h.fresh p hp
    · exact .inr hmember

theorem total_addNewPool (henv : Obliging env) {changed : Bool}
    (hlb : c.status.loadbalancer.isSome) :
    Total (fun w => PoolRun c base (l :: rest) w.crd ∧ Over base w)
      (addNewPool env (c.status.poolList.map Pool.listenerId) l changed)
      (Exit (fun _ => False) fun _ w => PoolRun c base rest w.crd ∧ Over base w) := by
  unfold addNewPool
  split
  · rename_i hcurrent
    refine Triple.pure fun w hw => ⟨hw.1.tail ?_, hw.2⟩
    obtain ⟨p, hp, hpl⟩ := List.mem_map.mp hcurrent
    exact hpl ▸ List.mem_map_of_mem (hw.1.kept p hp)
  · rename_i hcurrent
    rintro w ⟨hrun, hover⟩
    obtain ⟨lb, hlb⟩ := Option.isSome_iff_exists.mp hlb
    have hsome : w.crd.status.loadbalancer = some lb := by
      rw [hrun.frame]
      exact hlb
    have hlack := hrun.lacking l List.mem_cons_self hcurrent
    have hmembers : (base.overlay w.crd.status).memberList =
      (base.overlay c.status).memberList := by
      rw [hrun.frame]
      rfl
    have hcall : Total (At w.crd (base.overlay w.crd.status))
        (call (.ensure .pool) fun w => env.ensurePool w lb l) fun r t =>
          At w.crd (base.overlay w.crd.status) t ∧ ∃ id, r = some id ∧
            id ∉ w.crd.status.poolList.map Pool.id ∧
            id ∉ (base.overlay c.status).memberList.map Member.poolId := by
      refine total_call fun t ht => ?_
      have hreply := henv.pool t lb l (by rw [ht.1]; exact hlack)
      rw [ht.1, ht.2, hmembers] at hreply
      exact hreply
    refine Triple.keep (total_theBalancer hsome) (fun b hb => ?_) w ⟨rfl, hover⟩
    subst hb
    refine Triple.bind hcall fun r t ht => ?_
    obtain ⟨ht, id, rfl, hid, hmember⟩ := ht
    refine Triple.bind total_updateStatus (fun _ => ?_) t ht
    refine Triple.bind (total_patchStatus_over henv ⟨fun h => h, fun h => h, fun _ => rfl,
      fun h => h, fun h => h⟩ ?_) fun b u hu => ?_
    · intro hempty
      have hpools := congrArg Status.pools hempty
      cases hpools
    · obtain ⟨rfl, hcrd, hover⟩ := hu
      refine ⟨?_, hover⟩
      rw [hcrd]
      exact hrun.add hlack hid hmember

end PoolRun

/-- `_add_new_pools`. -/
theorem total_addNewPools (henv : Obliging env) (hlb : c.status.loadbalancer.isSome)
    (hintegral : Integral c.status.listenerList c.status.poolList [])
    (hpools : (c.status.poolList.map Pool.listenerId).Nodup) :
    Total (At c (base.overlay c.status)) (addNewPools env) fun _ w =>
      PoolRun c base [] w.crd ∧ Over base w := by
  refine Triple.keep total_getStatus fun st hst => ?_
  subst hst
  have hloop : Total (fun t => PoolRun c base c.status.listenerList t.crd ∧ Over base t)
      (sweep (addNewPool env (c.status.poolList.map Pool.listenerId)) c.status.listenerList false)
      (Exit (fun _ => False) fun _ t => PoolRun c base [] t.crd ∧ Over base t) :=
    Triple.sweep (I := fun rest _ t => PoolRun c base rest t.crd ∧ Over base t)
      (fun l rest changed => total_addNewPool henv hlb) _ _
  refine Triple.bind (hloop.pre ?_) fun r => ?_
  · rintro t ⟨rfl, hover⟩
    exact ⟨⟨rfl, hintegral.listenerIds, fun l hl => hl, hintegral.poolIds, hpools,
      hintegral.poolListener, fun l hl => .inl hl, fun _ _ h => h, fun p hp => hp,
      fun p hp => .inl hp⟩, hover⟩
  · cases r with
    | none => exact fun _ hs => hs.elim
    | some b => exact Triple.pure fun t ht => ht

/-! ## All of it -/

/-- The load balancer is at the address of the spec, with one listener for each port
and one pool for each listener. -/
structure Built (c : Crd) : Prop where
  slots : (c.spec.ports.map SpecPort.slot).Nodup
  names : (c.spec.ports.map fun p => p.name.join).Nodup
  balancer : ∃ lb, c.status.loadbalancer = some lb ∧ some lb.ip = c.spec.ip
  listenerIds : (c.status.listenerList.map Listener.id).Nodup
  listenerSlots : (c.status.listenerList.map Listener.slot).Nodup
  inSpec : ∀ l ∈ c.status.listenerList, l.slot ∈ c.spec.ports.map SpecPort.slot
  served : ∀ slot ∈ c.spec.ports.map SpecPort.slot, ∃ l ∈ c.status.listenerList, l.slot = slot ∧
    l.timeoutClientData = c.spec.timeoutClientData ∧ l.timeoutMemberData = c.spec.timeoutMemberData
  poolIds : (c.status.poolList.map Pool.id).Nodup
  poolListeners : (c.status.poolList.map Pool.listenerId).Nodup
  poolListener : ∀ p ∈ c.status.poolList, p.listenerId ∈ c.status.listenerList.map Listener.id
  pooled : ∀ l ∈ c.status.listenerList, l.id ∈ c.status.poolList.map Pool.listenerId

/-- Everything but the members and the names of ports that have none. -/
theorem Built.congr (h : Built c)
    (hkeys : c'.spec.ports.map SpecPort.key = c.spec.ports.map SpecPort.key)
    (hspec : c'.spec = { c.spec with ports := c'.spec.ports })
    (hlb : c'.status.loadbalancer.map Balancer.ip = c.status.loadbalancer.map Balancer.ip)
    (hlisteners : c'.status.listenerList = c.status.listenerList)
    (hpools : c'.status.poolList = c.status.poolList) : Built c' := by
  have hslots := slots_of_keys hkeys
  obtain ⟨lb, hsome, hip⟩ := h.balancer
  have hsame : c'.spec.ip = c.spec.ip ∧ c'.spec.timeoutClientData = c.spec.timeoutClientData ∧
      c'.spec.timeoutMemberData = c.spec.timeoutMemberData := by
    rw [hspec]
    exact ⟨rfl, rfl, rfl⟩
  obtain ⟨hip', hclient, hmember⟩ := hsame
  constructor
  case balancer =>
    rw [hsome] at hlb
    obtain ⟨lb', hlb', hsameIp⟩ := Option.map_eq_some_iff.mp hlb
    exact ⟨lb', hlb', by rw [hsameIp, hip, hip']⟩
  all_goals simp only [hslots, names_of_keys hkeys, hlisteners, hpools, hclient, hmember]
  · exact h.slots
  · exact h.names
  · exact h.listenerIds
  · exact h.listenerSlots
  · exact h.inSpec
  · exact h.served
  · exact h.poolIds
  · exact h.poolListeners
  · exact h.poolListener
  · exact h.pooled

theorem Built.unambiguous (h : Built c) :
    Unambiguous c.spec.ports c.status.listenerList c.status.poolList where
  slots := h.slots
  names := h.names
  listenerIds := h.listenerIds
  serving := serving_unique h.listenerSlots h.poolListeners

/-- What `_sync_lbaas_pools` leaves of the object `c`, whose unused members are gone. -/
structure Rebuilt (c : Crd) (base : Status) (c' : Crd) : Prop where
  ns : c'.ns = c.ns
  name : c'.name = c.name
  spec : c'.spec = c.named.spec
  built : Built c'
  subnet : ∃ lb, c'.status.loadbalancer = some lb ∧
    (c.status.loadbalancer.map Balancer.subnetId = some lb.subnetId ∨ lb.subnetId = c.spec.subnetId)
  listeners : (base.overlay c'.status).listenerList = c'.status.listenerList
  pools : (base.overlay c'.status).poolList = c'.status.poolList
  kept : ¬ c.Moved → base = {} ∧
    (c'.status.memberList = c.status.memberList.filter fun m => m.identity ∈ removalTargets c) ∧
    ∀ p ∈ c.spec.ports, ∀ pool, Serving c.status.listenerList c.status.poolList p.slot pool →
      Serving c'.status.listenerList c'.status.poolList p.slot pool
  moved : c.Moved → c'.status.members = none ∧
    ∀ m ∈ base.memberList, m.poolId ∉ c'.status.poolList.map Pool.id

theorem overlay_list {α : Type} {old new : Option (List α)}
    (h : new.getD [] = [] → old.getD [] = []) :
    (new.or old).getD [] = new.getD [] := by
  cases new with
  | some as => rfl
  | none => exact h rfl

section Assembly

variable {c₁ c₂ c₃ c₄ : Crd}

/-- Listeners left by the removals are on ports of the spec. -/
theorem Pruned.inSpec (h : Pruned c c₁) (htidy : Tidy c) :
    ∀ l ∈ c₁.status.listenerList, ∃ p ∈ c₁.spec.ports, l.slot = p.slot := by
  intro l hl
  rw [h.listeners] at hl
  obtain ⟨hl, hpool⟩ := List.mem_filter.mp hl
  obtain ⟨pool, hpool, hid⟩ := List.mem_map.mp (of_decide_eq_true hpool)
  rw [h.pools] at hpool
  obtain ⟨hpool, hspec⟩ := List.mem_filter.mp hpool
  obtain ⟨p, hp, _, l', hl', hid', hslot⟩ := (isPoolInSpec_iff hpool).mp hspec
  obtain rfl := List.inj_on_of_nodup_map htidy.listenerIds hl hl' (hid.symm.trans hid'.symm)
  have hmem : p.slot ∈ c₁.spec.ports.map SpecPort.slot := by
    rw [h.spec, slots_of_keys (named_keys c)]
    exact List.mem_map_of_mem hp
  obtain ⟨p', hp', hsame⟩ := List.mem_map.mp hmem
  exact ⟨p', hp', hslot.trans hsame.symm⟩

/-- Without ports nothing is left. -/
theorem Pruned.nil (h : Pruned c c₁) (htidy : Tidy c) (hports : c₁.spec.ports = []) :
    c₁.status.listenerList = [] ∧ c₁.status.poolList = [] := by
  have hlisteners : c₁.status.listenerList = [] := by
    rw [List.eq_nil_iff_forall_not_mem]
    intro l hl
    obtain ⟨p, hp, _⟩ := h.inSpec htidy l hl
    rw [hports] at hp
    cases hp
  refine ⟨hlisteners, ?_⟩
  rw [List.eq_nil_iff_forall_not_mem]
  intro pool hpool
  obtain ⟨l, hl, hid⟩ : ∃ l ∈ c.status.listenerList, l.id = pool.listenerId := by
    rw [h.pools] at hpool
    exact List.mem_map.mp (htidy.poolListener pool (List.mem_filter.mp hpool).1)
  have hmem : l ∈ c₁.status.listenerList := by
    rw [h.listeners]
    exact List.mem_filter.mpr ⟨hl, decide_eq_true (hid ▸ List.mem_map_of_mem hpool)⟩
  rw [hlisteners] at hmem
  cases hmem

/-- Pools that serve a port survive the removals. -/
theorem Pruned.serving (h : Pruned c c₁) {p : SpecPort} (hp : p ∈ c.spec.ports) {pool : Pool}
    (hserving : Serving c.status.listenerList c.status.poolList p.slot pool) :
    Serving c₁.status.listenerList c₁.status.poolList p.slot pool := by
  obtain ⟨hpool, l, hl, hid, hslot⟩ := hserving
  have hkept : pool ∈ c₁.status.poolList := by
    rw [h.pools]
    exact List.mem_filter.mpr
      ⟨hpool, (isPoolInSpec_iff hpool).mpr ⟨p, hp, hpool, l, hl, hid, hslot⟩⟩
  refine ⟨hkept, l, ?_, hid, hslot⟩
  rw [h.listeners]
  exact List.mem_filter.mpr ⟨hl, decide_eq_true (hid ▸ List.mem_map_of_mem hkept)⟩

theorem Pruned.moved_iff (h : Pruned c c₁) : c₁.Moved ↔ c.Moved := by
  unfold Crd.Moved
  rw [h.loadbalancer, h.spec]
  exact Iff.rfl

theorem Pruned.integral (h : Pruned c c₁) (htidy : Tidy c) :
    Integral c₁.status.listenerList c₁.status.poolList [] where
  listenerIds := by
    rw [h.listeners]
    exact htidy.listenerIds.sublist (List.filter_sublist.map _)
  poolIds := by
    rw [h.pools]
    exact htidy.poolIds.sublist (List.filter_sublist.map _)
  memberIds := List.nodup_nil
  poolListener := by
    intro pool hpool
    have hpool' := hpool
    rw [h.pools] at hpool'
    obtain ⟨l, hl, hid⟩ := List.mem_map.mp (htidy.poolListener pool (List.mem_filter.mp hpool').1)
    rw [← hid, h.listeners]
    refine List.mem_map_of_mem (List.mem_filter.mpr ⟨hl, decide_eq_true ?_⟩)
    rw [hid]
    exact List.mem_map_of_mem hpool
  memberPool := fun m hm => by cases hm

theorem Placed.lists (h : Placed c₁ base c₂) :
    (¬ c₁.Moved ∧ c₂.status.listenerList = c₁.status.listenerList ∧
      c₂.status.poolList = c₁.status.poolList) ∨
    (c₁.Moved ∧ c₂.status.listenerList = [] ∧ c₂.status.poolList = []) := by
  by_cases hmoved : c₁.Moved
  · have honly := (h.moved hmoved).2
    refine .inr ⟨hmoved, ?_, ?_⟩
    · rw [Status.listenerList, honly.listeners]
      rfl
    · rw [Status.poolList, honly.pools]
      rfl
  · obtain ⟨_, hlisteners, hpools, _⟩ := h.kept hmoved
    refine .inl ⟨hmoved, ?_, ?_⟩
    · rw [Status.listenerList, hlisteners]
      rfl
    · rw [Status.poolList, hpools]
      rfl

theorem ListenerRun.integral {rest : List SpecPort} (h : ListenerRun c₂ rest c₃)
    (hintegral : Integral c₂.status.listenerList c₂.status.poolList []) :
    Integral c₃.status.listenerList c₃.status.poolList [] := by
  have hpools : c₃.status.poolList = c₂.status.poolList := by
    rw [Status.poolList, h.pools]
    rfl
  refine ⟨h.ids, ?_, List.nodup_nil, ?_, fun m hm => by cases hm⟩
  · rw [hpools]
    exact hintegral.poolIds
  · intro pool hpool
    rw [hpools] at hpool
    obtain ⟨l, hl, hid⟩ := List.mem_map.mp (hintegral.poolListener pool hpool)
    obtain ⟨l', hl', hid', _⟩ := h.kept l hl
    rw [← hid, ← hid']
    exact List.mem_map_of_mem hl'

theorem ListenerRun.serving {rest : List SpecPort} (h : ListenerRun c₂ rest c₃)
    {slot : Protocol × Nat} {pool : Pool}
    (hserving : Serving c₂.status.listenerList c₂.status.poolList slot pool) :
    Serving c₃.status.listenerList c₃.status.poolList slot pool := by
  obtain ⟨hpool, l, hl, hid, hslot⟩ := hserving
  obtain ⟨l', hl', hid', hslot'⟩ := h.kept l hl
  refine ⟨?_, l', hl', hid'.trans hid, hslot'.trans hslot⟩
  rw [Status.poolList, h.pools]
  exact hpool

theorem PoolRun.listenerList {rest : List Listener} (h : PoolRun c₃ base rest c₄) :
    c₄.status.listenerList = c₃.status.listenerList := by
  rw [h.frame]
  rfl

theorem PoolRun.serving {rest : List Listener} (h : PoolRun c₃ base rest c₄)
    {slot : Protocol × Nat} {pool : Pool}
    (hserving : Serving c₃.status.listenerList c₃.status.poolList slot pool) :
    Serving c₄.status.listenerList c₄.status.poolList slot pool := by
  obtain ⟨hpool, l, hl, hid, hslot⟩ := hserving
  refine ⟨h.kept pool hpool, l, ?_, hid, hslot⟩
  rw [h.listenerList]
  exact hl

/-- All listeners and pools are there at the end of the loops. -/
theorem PoolRun.built (hpools : PoolRun c₃ base [] c₄) (hlisteners : ListenerRun c₂ [] c₃)
    (hslots : (c₂.spec.ports.map SpecPort.slot).Nodup)
    (hnames : (c₂.spec.ports.map fun p => p.name.join).Nodup)
    (hlb : ∃ lb, c₂.status.loadbalancer = some lb ∧ some lb.ip = c₂.spec.ip) : Built c₄ := by
  have hlist := hpools.listenerList
  have hspec : c₄.spec = c₂.spec := by
    rw [hpools.frame, ← hlisteners.spec]
  obtain ⟨lb, hsome, hip⟩ := hlb
  constructor
  case balancer =>
    have hplace := hlisteners.place
    rw [hsome] at hplace
    obtain ⟨lb', hlb', hsame⟩ := Option.map_eq_some_iff.mp hplace
    refine ⟨lb', ?_, ?_⟩
    · rw [hpools.frame]
      exact hlb'
    · have hsameIp : lb'.ip = lb.ip := congrArg Prod.fst hsame
      rw [hsameIp, hip, hspec]
  case poolIds => exact hpools.ids
  case poolListeners => exact hpools.listeners
  all_goals simp only [hspec, hlist]
  case slots => exact hslots
  case names => exact hnames
  case listenerIds => exact hlisteners.ids
  case listenerSlots => exact hlisteners.slots
  case inSpec =>
    intro l hl
    obtain ⟨p, hp, hslot⟩ := hlisteners.inSpec l hl
    exact List.mem_map.mpr ⟨p, hp, hslot.symm⟩
  case served =>
    intro slot hslot
    obtain ⟨p, hp, rfl⟩ := List.mem_map.mp hslot
    rcases hlisteners.served p hp with hnil | ⟨l, hl, hserves⟩
    · cases hnil
    · refine ⟨l, hl, ?_, hserves.2.2⟩
      rw [Listener.slot, SpecPort.slot, hserves.1, hserves.2.1]
  case poolListener => exact hpools.poolListener
  case pooled =>
    intro l hl
    exact (hpools.pooled l hl).resolve_left List.not_mem_nil

/-- The steps of `_sync_lbaas_pools` one after the other. -/
theorem rebuilt_of_runs (htidy : Tidy c) (hpruned : Pruned c c₁) (hplaced : Placed c₁ base c₂)
    (hlisteners : ListenerRun c₂ [] c₃) (hpools : PoolRun c₃ base [] c₄) : Rebuilt c base c₄ := by
  have hframe := hpools.frame
  have hspec₂ : c₂.spec = c.named.spec := hplaced.spec.trans hpruned.spec
  have hspec₄ : c₄.spec = c₂.spec := by
    rw [hframe, ← hlisteners.spec]
  have hmembers₄ : c₄.status.members = c₂.status.members := by
    rw [hframe, ← hlisteners.members]
  have hkeys : c₂.spec.ports.map SpecPort.key = c.spec.ports.map SpecPort.key := by
    rw [hspec₂]
    exact named_keys c
  have hbuilt : Built c₄ := by
    refine hpools.built hlisteners ?_ ?_ ?_
    · rw [slots_of_keys hkeys]
      exact htidy.slots
    · rw [names_of_keys hkeys]
      exact htidy.names
    · obtain ⟨lb, hlb, hip, _⟩ := hplaced.loadbalancer
      exact ⟨lb, hlb, by rw [hip, hplaced.spec]⟩
  have hports : c₄.status.listenerList = [] → c₁.spec.ports = [] := by
    intro hnil
    rw [← hplaced.spec, ← hspec₄, List.eq_nil_iff_forall_not_mem]
    intro p hp
    obtain ⟨l, hl, _⟩ := hbuilt.served p.slot (List.mem_map_of_mem hp)
    rw [hnil] at hl
    cases hl
  have hlistenersNil : c₄.status.poolList = [] → c₄.status.listenerList = [] := by
    intro hnil
    rw [List.eq_nil_iff_forall_not_mem]
    intro l hl
    have hpooled := hbuilt.pooled l hl
    rw [hnil] at hpooled
    cases hpooled
  -- what was stored before a change of address is overwritten
  have hbase : ∀ {α : Type} (g : Status → List α), g {} = [] →
      (c₁.spec.ports = [] → g c₁.status = []) → c₁.spec.ports = [] → g base = [] := by
    intro α g hempty hnil hnone
    by_cases hmoved : c₁.Moved
    · rw [(hplaced.moved hmoved).1]
      exact hnil hnone
    · rw [(hplaced.kept hmoved).1]
      exact hempty
  refine ⟨?_, ?_, hspec₄.trans hspec₂, hbuilt, ?_, ?_, ?_, ?_, ?_⟩
  · rw [hframe]
    exact hlisteners.ns.trans (hplaced.ns.trans hpruned.ns)
  · rw [hframe]
    exact hlisteners.name.trans (hplaced.name.trans hpruned.name)
  · obtain ⟨lb, hlb, _, hor⟩ := hplaced.loadbalancer
    have hplace := hlisteners.place
    rw [hlb] at hplace
    obtain ⟨lb', hlb', hsame⟩ := Option.map_eq_some_iff.mp hplace
    have hsubnet : lb'.subnetId = lb.subnetId := congrArg Prod.snd hsame
    refine ⟨lb', ?_, ?_⟩
    · rw [hframe]
      exact hlb'
    · rw [hsubnet, ← hpruned.loadbalancer]
      refine hor.imp (fun h => ?_) fun h => ?_
      · rw [h]
        rfl
      · rw [h, hpruned.spec]
        rfl
  · refine overlay_list fun hnil => ?_
    exact hbase Status.listenerList rfl (fun h => (hpruned.nil htidy h).1) (hports hnil)
  · refine overlay_list fun hnil => ?_
    exact hbase Status.poolList rfl (fun h => (hpruned.nil htidy h).2) (hports (hlistenersNil hnil))
  · intro hmoved
    rw [← hpruned.moved_iff] at hmoved
    obtain ⟨hempty, hl, hp, hm⟩ := hplaced.kept hmoved
    refine ⟨hempty, ?_, fun p hport pool hserving => ?_⟩
    · rw [← hpruned.members, Status.memberList, hmembers₄, hm]
      rfl
    · have hserving₂ : Serving c₂.status.listenerList c₂.status.poolList p.slot pool := by
        rw [Status.listenerList, Status.poolList, hl, hp]
        exact hpruned.serving hport hserving
      exact hpools.serving (hlisteners.serving hserving₂)
  · intro hmoved
    rw [← hpruned.moved_iff] at hmoved
    have honly := (hplaced.moved hmoved).2
    have hnone : c₄.status.members = none := hmembers₄.trans honly.members
    refine ⟨hnone, fun m hm hin => ?_⟩
    obtain ⟨p, hp, hid⟩ := List.mem_map.mp hin
    have hnone₃ : c₃.status.members = none := hlisteners.members.trans honly.members
    rcases hpools.fresh p hp with hold | hfresh
    · rw [Status.poolList, hlisteners.pools, honly.pools] at hold
      cases hold
    · refine hfresh (hid ▸ List.mem_map_of_mem ?_)
      show m ∈ (c₃.status.members.or base.members).getD []
      rw [hnone₃]
      exact hm

end Assembly

theorem Tidy.listeners_ne_none (h : Tidy c) (hpools : c.status.poolList ≠ []) :
    c.status.listeners ≠ none :=
  LoadBalancer.listeners_ne_none (h.listeners_of_pools hpools)

theorem Tidy.balancer_ne_none (h : Tidy c) (hlisteners : c.status.listenerList ≠ []) :
    c.status.loadbalancer ≠ none :=
  fun hnone => hlisteners (h.balancer hnone)

/-- `_sync_lbaas_listeners`, after the removals. -/
theorem total_placeListeners (henv : Obliging env) (htidy : Tidy c) (hip : c.spec.ip.isSome) :
    Total (InSync c.prunedMembers.prunedPools) (syncLbaasListeners env) fun _ w =>
      ∃ base c₂, Placed c.pruned base c₂ ∧ ListenerRun c₂ [] w.crd ∧ Over base w := by
  have hpruned := htidy.pruned
  have hlisteners : c.prunedMembers.prunedPools.status.listenerList = c.status.listenerList := by
    have hsame : c.prunedMembers.status.listenerList = c.status.listenerList :=
      dropped_same (g := Status.listenerList) rfl
    rw [← hsame]
    exact dropped_same (g := Status.listenerList) rfl
  have hlb : c.prunedMembers.prunedPools.status.loadbalancer = c.status.loadbalancer := by
    have hsame : c.prunedMembers.status.loadbalancer = c.status.loadbalancer :=
      dropped_same (g := Status.loadbalancer) rfl
    rw [← hsame]
    exact dropped_same (g := Status.loadbalancer) rfl
  have hip' : c.pruned.spec.ip.isSome := by
    rw [hpruned.spec]
    exact hip
  refine Triple.bind (total_removeUnusedListeners henv ?_) fun _ => ?_
  · rw [hlisteners, hlb]
    exact htidy.balancer_ne_none
  · refine Triple.bind (total_syncLbaasLoadbalancer henv hip') fun _ w hw => ?_
    obtain ⟨base, hover, hplaced⟩ := hw
    have hplaced : Placed c.pruned base w.crd := hplaced
    have hrun : Total (At w.crd (base.overlay w.crd.status)) (addNewListeners env) fun _ t =>
        ListenerRun w.crd [] t.crd ∧ Over base t := by
      refine total_addNewListeners henv ?_ ?_ ?_ ?_
      · obtain ⟨lb, hlb, _⟩ := hplaced.loadbalancer
        rw [hlb]
        rfl
      all_goals rcases hplaced.lists with ⟨_, hl, _⟩ | ⟨_, hl, _⟩
      all_goals rw [hl]
      · exact (hpruned.integral htidy).listenerIds
      · exact List.nodup_nil
      · rw [hpruned.listeners]
        exact htidy.listenerSlots.sublist (List.filter_sublist.map _)
      · exact List.nodup_nil
      · rw [hplaced.spec]
        exact hpruned.inSpec htidy
      · exact fun l hl => by cases hl
    refine Triple.bind hrun (fun _ => ?_) w ⟨rfl, hover⟩
    exact Triple.pure fun t ht => ⟨base, w.crd, hplaced, ht.1, ht.2⟩

/-- **`_sync_lbaas_pools`** after the removal of members. -/
theorem total_syncLbaasPools (henv : Obliging env) (htidy : Tidy c) (hip : c.spec.ip.isSome) :
    Total (InSync c.prunedMembers) (syncLbaasPools env) fun _ w =>
      ∃ base, Over base w ∧ Rebuilt c base w.crd := by
  have hpruned := htidy.pruned
  have hpools : c.prunedMembers.status.poolList = c.status.poolList :=
    dropped_same (g := Status.poolList) rfl
  have hlisteners : c.prunedMembers.status.listeners = c.status.listeners :=
    dropped_same (g := Status.listeners) rfl
  have hlb : c.prunedMembers.status.loadbalancer = c.status.loadbalancer :=
    dropped_same (g := Status.loadbalancer) rfl
  refine Triple.bind (total_removeUnusedPools henv ?_ ?_) fun _ => ?_
  · rw [hpools, hlisteners]
    exact htidy.listeners_ne_none
  · rw [hpools, hlb]
    exact fun h => htidy.balancer_ne_none (htidy.listeners_of_pools h)
  · refine Triple.bind (total_placeListeners henv htidy hip) fun _ w hw => ?_
    obtain ⟨base, c₂, hplaced, hrun, hover⟩ := hw
    have hintegral₂ : Integral c₂.status.listenerList c₂.status.poolList [] := by
      rcases hplaced.lists with ⟨_, hl, hp⟩ | ⟨_, hl, hp⟩
      · rw [hl, hp]
        exact hpruned.integral htidy
      · rw [hl, hp]
        exact ⟨List.nodup_nil, List.nodup_nil, List.nodup_nil,
          fun p hp => absurd hp List.not_mem_nil,
          fun m hm => absurd hm List.not_mem_nil⟩
    have hrunPools : Total (At w.crd (base.overlay w.crd.status)) (addNewPools env) fun _ t =>
        PoolRun w.crd base [] t.crd ∧ Over base t := by
      refine total_addNewPools henv ?_ (hrun.integral hintegral₂) ?_
      · obtain ⟨lb, hlb, _⟩ := hplaced.loadbalancer
        have hplace := hrun.place
        rw [hlb] at hplace
        obtain ⟨lb', hlb', _⟩ := Option.map_eq_some_iff.mp hplace
        rw [hlb']
        rfl
      · rw [Status.poolList, hrun.pools]
        show (c₂.status.poolList.map Pool.listenerId).Nodup
        rcases hplaced.lists with ⟨_, _, hp⟩ | ⟨_, _, hp⟩
        · rw [hp, hpruned.pools]
          exact htidy.poolListeners.sublist (List.filter_sublist.map _)
        · rw [hp]
          exact List.nodup_nil
    refine Triple.bind hrunPools (fun _ => ?_) w ⟨rfl, hover⟩
    exact Triple.pure fun t ht => ⟨base, ht.2, rebuilt_of_runs htidy hpruned hplaced hrun ht.1⟩

/-! ## Nothing left to do -/

section Built

variable {w : World}

theorem requireListeners_run (h : w.crd.status.poolList ≠ [] → w.crd.status.listeners ≠ none) :
    requireListeners w = .ok () w := by
  rw [requireListeners, run_bind_ok (show getStatus w = .ok w.crd.status w from rfl)]
  rw [if_neg fun hc => h hc.1 hc.2]
  rfl

theorem dropRemoved_nil {f : Status → Status} : dropRemoved env [] f w = .ok false w := by
  rw [dropRemoved, if_pos rfl]
  rfl

theorem Built.listeners_ne_none (h : Built c) (hpools : c.status.poolList ≠ []) :
    c.status.listeners ≠ none := by
  obtain ⟨p, hp⟩ := List.exists_mem_of_ne_nil _ hpools
  obtain ⟨l, hl, _⟩ := List.mem_map.mp (h.poolListener p hp)
  exact LoadBalancer.listeners_ne_none (List.ne_nil_of_mem hl)

theorem removeUnusedPools_of_built (h : Built w.crd) : removeUnusedPools env w = .ok false w := by
  have hgather : gather (releaseUnusedPool env w.crd) w.crd.status.poolList w = .ok [] w := by
    refine gather_of_none fun p hp => ?_
    obtain ⟨l, hl, hid⟩ := List.mem_map.mp (h.poolListener p hp)
    obtain ⟨q, hq, hslot⟩ := List.mem_map.mp (h.inSpec l hl)
    have hspec := (isPoolInSpec_iff hp).mpr ⟨q, hq, hp, l, hl, hid, hslot.symm⟩
    rw [releaseUnusedPool, if_pos hspec]
    rfl
  rw [removeUnusedPools, run_bind_ok (requireListeners_run h.listeners_ne_none),
    run_bind_ok (show (get : Handler World) w = .ok w w from rfl), run_bind_ok hgather]
  exact dropRemoved_nil

theorem removeUnusedListeners_of_built (h : Built w.crd) :
    removeUnusedListeners env w = .ok false w := by
  have hgather : gather (releaseUnusedListener env (w.crd.status.poolList.map Pool.listenerId))
      w.crd.status.listenerList w = .ok [] w := by
    refine gather_of_none fun l hl => ?_
    rw [releaseUnusedListener, if_pos (h.pooled l hl)]
    rfl
  rw [removeUnusedListeners, run_bind_ok (show getStatus w = .ok w.crd.status w from rfl),
    run_bind_ok hgather]
  exact dropRemoved_nil

theorem syncLbaasLoadbalancer_of_built (h : Built w.crd) :
    syncLbaasLoadbalancer env w = .ok false w := by
  obtain ⟨lb, hlb, hip⟩ := h.balancer
  rw [syncLbaasLoadbalancer, run_bind_ok (show (get : Handler World) w = .ok w w from rfl)]
  simp only [hlb]
  rw [if_neg (not_not.mpr hip)]
  rfl

theorem addNewListeners_of_built (h : Built w.crd) : addNewListeners env w = .ok false w := by
  have hsweep : sweep (addNewListener env) (sortedPorts w.crd.spec.ports) false w
      = .ok (some false) w := by
    refine sweep_of_some fun p hp changed => ?_
    have hp : p ∈ w.crd.spec.ports := (List.mem_insertionSort _).mp hp
    obtain ⟨l, hl, hslot, htimeouts⟩ := h.served p.slot (List.mem_map_of_mem hp)
    have hserves : l.Serves w.crd.spec p :=
      ⟨congrArg Prod.snd hslot, congrArg Prod.fst hslot, htimeouts⟩
    rw [addNewListener, run_bind_ok (show (get : Handler World) w = .ok w w from rfl)]
    simp only
    rw [if_pos (List.any_eq_true.mpr ⟨l, hl, decide_eq_true hserves⟩)]
    rfl
  rw [addNewListeners, run_bind_ok (show (get : Handler World) w = .ok w w from rfl),
    run_bind_ok hsweep]
  rfl

theorem addNewPools_of_built (h : Built w.crd) : addNewPools env w = .ok false w := by
  have hsweep : sweep (addNewPool env (w.crd.status.poolList.map Pool.listenerId))
      w.crd.status.listenerList false w = .ok (some false) w := by
    refine sweep_of_some fun l hl changed => ?_
    rw [addNewPool, if_pos (h.pooled l hl)]
    rfl
  rw [addNewPools, run_bind_ok (show getStatus w = .ok w.crd.status w from rfl), run_bind_ok hsweep]
  rfl

/-- **In a built status `_sync_lbaas_pools` does nothing.** -/
theorem syncLbaasPools_of_built (h : Built w.crd) : syncLbaasPools env w = .ok false w := by
  have hlisteners : syncLbaasListeners env w = .ok false w := by
    rw [syncLbaasListeners, run_bind_ok (removeUnusedListeners_of_built h),
      run_bind_ok (syncLbaasLoadbalancer_of_built h), run_bind_ok (addNewListeners_of_built h)]
    rfl
  rw [syncLbaasPools, run_bind_ok (removeUnusedPools_of_built h), run_bind_ok hlisteners,
    run_bind_ok (addNewPools_of_built h)]
  rfl

end Built

end LoadBalancer

end KuryrKubernetes
