import KuryrKubernetes.Handlers.LoadBalancerMoves

/-!
# Which pool serves a port name

Removal and addition find the pool of a port name in different ways: `spec_ports`
is filled from the pools, through their listeners, and fills in missing names on
its way; `pool_by_tgt_name` is filled from the ports that have a name. Where no two
ports share a slot (protocol and number) or a name, and no two pools serve one slot
(`Unambiguous`), both are the relation `Assigned`.
-/

namespace KuryrKubernetes

namespace LoadBalancer

/-- Protocol and number of a listener. -/
def Listener.slot (l : Listener) : Protocol × Nat := (l.protocol, l.port)

/-- Protocol and number of a port. -/
def SpecPort.slot (p : SpecPort) : Protocol × Nat := (p.protocol, p.port)

/-- The pool serves the slot. -/
def Serving (listeners : List Listener) (pools : List Pool) (slot : Protocol × Nat) (pool : Pool) :
    Prop :=
  pool ∈ pools ∧ ∃ l ∈ listeners, l.id = pool.listenerId ∧ l.slot = slot

/-- The pool serves the port of that name. -/
def Assigned (ports : List SpecPort) (listeners : List Listener) (pools : List Pool)
    (name : Option PortName) (pool : Pool) : Prop :=
  ∃ p ∈ ports, p.name.join = name ∧ Serving listeners pools p.slot pool

/-- Slots and names tell the ports apart, and slots the pools. -/
structure Unambiguous (ports : List SpecPort) (listeners : List Listener) (pools : List Pool) :
    Prop where
  slots : (ports.map SpecPort.slot).Nodup
  names : (ports.map fun p => p.name.join).Nodup
  listenerIds : (listeners.map Listener.id).Nodup
  serving : ∀ slot p p', Serving listeners pools slot p → Serving listeners pools slot p' → p = p'

variable {ports ports' : List SpecPort} {listeners : List Listener} {pools : List Pool}

/-- Names that are missing and names that are null make no difference. -/
theorem assigned_congr (h : ports.map SpecPort.key = ports'.map SpecPort.key)
    {name : Option PortName} {pool : Pool} :
    Assigned ports listeners pools name pool ↔ Assigned ports' listeners pools name pool := by
  have hdir : ∀ {qs qs' : List SpecPort}, qs.map SpecPort.key = qs'.map SpecPort.key →
      Assigned qs listeners pools name pool → Assigned qs' listeners pools name pool := by
    rintro qs qs' hkey ⟨p, hp, hname, hserving⟩
    have hmem : p.key ∈ qs'.map SpecPort.key := hkey ▸ List.mem_map_of_mem hp
    obtain ⟨q, hq, hpq⟩ := List.mem_map.mp hmem
    simp only [SpecPort.key, Prod.mk.injEq] at hpq
    refine ⟨q, hq, hpq.1.trans hname, ?_⟩
    have hslot : q.slot = p.slot := by
      rw [SpecPort.slot, SpecPort.slot, hpq.2.1, hpq.2.2]
    rw [hslot]
    exact hserving
  exact ⟨hdir h, hdir h.symm⟩

theorem slots_of_keys (h : ports.map SpecPort.key = ports'.map SpecPort.key) :
    ports.map SpecPort.slot = ports'.map SpecPort.slot := by
  have hslot : ∀ qs : List SpecPort, qs.map SpecPort.slot = (qs.map SpecPort.key).map Prod.snd := by
    intro qs
    rw [List.map_map]
    rfl
  rw [hslot, hslot, h]

theorem names_of_keys (h : ports.map SpecPort.key = ports'.map SpecPort.key) :
    (ports.map fun p => p.name.join) = ports'.map fun p => p.name.join := by
  have hname : ∀ qs : List SpecPort,
      (qs.map fun p => p.name.join) = (qs.map SpecPort.key).map Prod.fst := by
    intro qs
    rw [List.map_map]
    rfl
  rw [hname, hname, h]

/-- Under one name there is one pool. -/
theorem Unambiguous.assigned_unique (h : Unambiguous ports listeners pools)
    {name : Option PortName} {p p' : Pool} (hp : Assigned ports listeners pools name p)
    (hp' : Assigned ports listeners pools name p') : p = p' := by
  obtain ⟨q, hq, hname, hserving⟩ := hp
  obtain ⟨q', hq', hname', hserving'⟩ := hp'
  obtain rfl : q = q' := List.inj_on_of_nodup_map h.names hq hq' (hname.trans hname'.symm)
  exact h.serving q.slot p p' hserving hserving'

/-- A dictionary in which a key has one value finds it. -/
theorem lookup_eq_some_of_mem {κ ν : Type} [BEq κ] [LawfulBEq κ] {l : List (κ × ν)} {k : κ} {v : ν}
    (h : (k, v) ∈ l) (hunique : ∀ v', (k, v') ∈ l → v' = v) : l.lookup k = some v := by
  cases hl : l.lookup k with
  | none =>
    rw [List.lookup_eq_none_iff] at hl
    exact absurd (hl _ h) (by simp)
  | some v' => rw [hunique v' (mem_of_lookup hl)]

/-! ## Addition -/

theorem lsnrById_eq_some (hids : (listeners.map Listener.id).Nodup) {id : String} {l : Listener} :
    lsnrById listeners id = some l ↔ l ∈ listeners ∧ l.id = id := by
  constructor
  · intro h
    refine ⟨List.mem_reverse.mp (List.mem_of_find?_eq_some h), ?_⟩
    simpa using List.find?_some h
  · rintro ⟨hl, hid⟩
    cases hfind : lsnrById listeners id with
    | none =>
      rw [lsnrById, List.find?_eq_none] at hfind
      exact absurd (decide_eq_true hid) (hfind l (List.mem_reverse.mpr hl))
    | some l' =>
      have hl' := List.mem_reverse.mp (List.mem_of_find?_eq_some hfind)
      have hid' : l'.id = id := by simpa using List.find?_some hfind
      rw [List.inj_on_of_nodup_map hids hl' hl (hid'.trans hid.symm)]

theorem mem_poolByLsnrPort_iff {st : Status} (hids : (st.listenerList.map Listener.id).Nodup)
    {slot : Protocol × Nat} {pool : Pool} :
    (slot, pool) ∈ poolByLsnrPort st ↔ Serving st.listenerList st.poolList slot pool := by
  rw [mem_poolByLsnrPort]
  constructor
  · rintro ⟨hpool, l, hl, hslot⟩
    obtain ⟨hl, hid⟩ := (lsnrById_eq_some hids).mp hl
    exact ⟨hpool, l, hl, hid, hslot.symm⟩
  · rintro ⟨hpool, l, hl, hid, hslot⟩
    exact ⟨hpool, l, (lsnrById_eq_some hids).mpr ⟨hl, hid⟩, hslot.symm⟩

/-- `pool_by_tgt_name`: the ports that have a name find the pool serving them. -/
theorem lookup_directory_iff {c : Crd}
    (h : Unambiguous c.spec.ports c.status.listenerList c.status.poolList)
    {name : Option PortName} {pool : Pool} :
    (directory c).pools.lookup name = some pool ↔ ∃ p ∈ c.spec.ports, p.name = some name ∧
      Serving c.status.listenerList c.status.poolList p.slot pool := by
  have hslot : ∀ {slot pool}, (poolByLsnrPort c.status).lookup slot = some pool ↔
      Serving c.status.listenerList c.status.poolList slot pool := by
    intro slot pool
    constructor
    · intro hl
      exact (mem_poolByLsnrPort_iff h.listenerIds).mp (mem_of_lookup hl)
    · intro hs
      refine lookup_eq_some_of_mem ((mem_poolByLsnrPort_iff h.listenerIds).mpr hs) fun p' hp' => ?_
      exact h.serving slot p' pool ((mem_poolByLsnrPort_iff h.listenerIds).mp hp') hs
  constructor
  · intro hl
    obtain ⟨p, hp, hname, hlookup⟩ := mem_poolByTgtName.mp (mem_of_lookup hl)
    exact ⟨p, hp, hname, hslot.mp hlookup⟩
  · rintro ⟨p, hp, hname, hserving⟩
    refine lookup_eq_some_of_mem (mem_poolByTgtName.mpr ⟨p, hp, hname, hslot.mpr hserving⟩) ?_
    intro p' hp'
    obtain ⟨q, hq, hname', hlookup⟩ := mem_poolByTgtName.mp hp'
    have hjoin : q.name.join = p.name.join := by rw [hname', hname]
    obtain rfl : q = p := List.inj_on_of_nodup_map h.names hq hp hjoin
    exact h.serving q.slot p' pool (hslot.mp hlookup) hserving

theorem assigned_of_lookup {c : Crd}
    (h : Unambiguous c.spec.ports c.status.listenerList c.status.poolList)
    {name : Option PortName} {pool : Pool}
    (hl : (directory c).pools.lookup name = some pool) :
    Assigned c.spec.ports c.status.listenerList c.status.poolList name pool := by
  obtain ⟨p, hp, hname, hserving⟩ := (lookup_directory_iff h).mp hl
  exact ⟨p, hp, by rw [hname]; rfl, hserving⟩

/-! ## Removal -/

theorem portOf_eq_some (hslots : (ports.map SpecPort.slot).Nodup) {l : Listener} {i : Nat} :
    portOf ports l = some i ↔ ∃ p, ports[i]? = some p ∧ p.slot = l.slot := by
  have hslot : ∀ p : SpecPort, (p.port = l.port ∧ p.protocol = l.protocol) ↔ p.slot = l.slot := by
    intro p
    simp only [SpecPort.slot, Listener.slot, Prod.mk.injEq]
    exact And.comm
  rw [portOf, List.findIdx?_eq_some_iff_getElem]
  constructor
  · rintro ⟨hi, hp, _⟩
    exact ⟨ports[i], List.getElem?_eq_getElem hi, (hslot _).mp (of_decide_eq_true hp)⟩
  · rintro ⟨p, hp, hpl⟩
    obtain ⟨hi, rfl⟩ := List.getElem?_eq_some_iff.mp hp
    refine ⟨hi, decide_eq_true ((hslot _).mpr hpl), fun j hj hmatch => ?_⟩
    have hjl := (hslot _).mp (of_decide_eq_true hmatch)
    -- two ports of one slot are at one place
    have hsame : ports[j] = ports[i] :=
      List.inj_on_of_nodup_map hslots (List.getElem_mem _) (List.getElem_mem _) (hjl.trans hpl.symm)
    have hij := hslots.of_map.getElem_inj_iff.mp hsame
    omega

/-- `_get_port_in_pool` finds the port the pool serves. -/
theorem getPortInPool_eq_some (hids : (listeners.map Listener.id).Nodup)
    (hslots : (ports.map SpecPort.slot).Nodup) {pool : Pool} {i : Nat} (hpool : pool ∈ pools) :
    getPortInPool listeners ports pool = some i ↔
      ∃ p, ports[i]? = some p ∧ Serving listeners pools p.slot pool := by
  have hone : getPortInPool listeners ports pool = some i ↔
      ∃ l ∈ listeners, l.id = pool.listenerId ∧ portOf ports l = some i := by
    constructor
    · intro h
      obtain ⟨l, hl, hport⟩ := List.exists_of_findSome?_eq_some h
      split at hport
      · rename_i hid
        exact ⟨l, hl, hid, hport⟩
      · cases hport
    · rintro ⟨l, hl, hid, hport⟩
      cases hfind : getPortInPool listeners ports pool with
      | none =>
        rw [getPortInPool, List.findSome?_eq_none_iff] at hfind
        have hnone := hfind l hl
        rw [if_pos hid, hport] at hnone
        cases hnone
      | some j =>
        obtain ⟨l', hl', hport'⟩ := List.exists_of_findSome?_eq_some hfind
        split at hport'
        · rename_i hid'
          obtain rfl : l' = l := List.inj_on_of_nodup_map hids hl' hl (hid'.trans hid.symm)
          exact hport'.symm.trans hport
        · cases hport'
  rw [hone]
  constructor
  · rintro ⟨l, hl, hid, hport⟩
    obtain ⟨p, hp, hslot⟩ := (portOf_eq_some hslots).mp hport
    exact ⟨p, hp, hpool, l, hl, hid, hslot.symm⟩
  · rintro ⟨p, hp, _, l, hl, hid, hslot⟩
    exact ⟨l, hl, hid, (portOf_eq_some hslots).mpr ⟨p, hp, hslot.symm⟩⟩

/-- A pool serves one slot. -/
theorem Serving.slot_unique (hids : (listeners.map Listener.id).Nodup) {slot slot' : Protocol × Nat}
    {pool : Pool} (h : Serving listeners pools slot pool)
    (h' : Serving listeners pools slot' pool) :
    slot = slot' := by
  obtain ⟨_, l, hl, hid, hslot⟩ := h
  obtain ⟨_, l', hl', hid', hslot'⟩ := h'
  obtain rfl : l = l' := List.inj_on_of_nodup_map hids hl hl' (hid.trans hid'.symm)
  exact hslot.symm.trans hslot'

/-- What `spec_ports` is filled with: the pools that serve a port, under its name.
The induction is on the pools still to come; the ports are named on the way. -/
theorem mem_nameSpecPorts (hids : (listeners.map Listener.id).Nodup) {all : List Pool} :
    ∀ {pools : List Pool} {ports : List SpecPort} {specPorts : Assignments String},
      (∀ p ∈ pools, p ∈ all) → (ports.map SpecPort.slot).Nodup →
      ∀ {name : Option PortName} {id : String},
        (name, id) ∈ (nameSpecPorts listeners pools ports specPorts).2 ↔ (name, id) ∈ specPorts ∨
          ∃ pool ∈ pools, pool.id = id ∧ Assigned ports listeners all name pool
  | [], _, _, _, _, _, _ => by simp [nameSpecPorts]
  | pool :: pools, ports, specPorts, hall, hslots, name, id => by
    have hpool := hall pool List.mem_cons_self
    have hall' : ∀ p ∈ pools, p ∈ all := fun p hp => hall p (List.mem_cons_of_mem _ hp)
    rw [nameSpecPorts]
    cases hport : getPortInPool listeners ports pool with
    | none =>
      simp only
      rw [mem_nameSpecPorts hids hall' hslots]
      refine or_congr Iff.rfl ⟨?_, ?_⟩
      · rintro ⟨q, hq, h⟩
        exact ⟨q, List.mem_cons_of_mem _ hq, h⟩
      · rintro ⟨q, hq, hid, hassigned⟩
        rcases List.mem_cons.mp hq with rfl | hq
        · obtain ⟨p, hp, _, hserving⟩ := hassigned
          obtain ⟨i, hi⟩ := List.getElem?_of_mem hp
          have hsome := (getPortInPool_eq_some hids hslots hpool).mpr ⟨p, hi, hserving⟩
          rw [hport] at hsome
          cases hsome
        · exact ⟨q, hq, hid, hassigned⟩
    | some i =>
      obtain ⟨p, hp, hserving⟩ := (getPortInPool_eq_some hids hslots hpool).mp hport
      have hkeys := map_key_modify ports i
      have hslots' : ((ports.modify i SpecPort.fillName).map SpecPort.slot).Nodup := by
        rw [slots_of_keys hkeys]
        exact hslots
      have hname : (ports[i]?.bind fun p => p.fillName.name.join) = p.name.join := by
        rw [hp]
        rfl
      simp only [hname]
      rw [mem_nameSpecPorts hids hall' hslots', List.mem_cons, or_assoc, or_left_comm]
      refine or_congr Iff.rfl ⟨?_, ?_⟩
      · rintro (h | ⟨q, hq, hid, hassigned⟩)
        · simp only [Prod.mk.injEq] at h
          refine ⟨pool, List.mem_cons_self, h.2.symm, p, List.mem_of_getElem? hp, h.1.symm,
            hserving⟩
        · exact ⟨q, List.mem_cons_of_mem _ hq, hid, (assigned_congr hkeys).mp hassigned⟩
      · rintro ⟨q, hq, hid, hassigned⟩
        rcases List.mem_cons.mp hq with rfl | hq
        · left
          obtain ⟨p', hp', hname', hserving'⟩ := hassigned
          obtain rfl : p' = p := List.inj_on_of_nodup_map hslots hp' (List.mem_of_getElem? hp)
            (hserving'.slot_unique hids hserving)
          rw [hname', hid]
        · exact .inr ⟨q, hq, hid, (assigned_congr hkeys).mpr hassigned⟩

/-- `spec_ports`: a name finds the pool serving its port. -/
theorem lookup_nameSpecPorts (h : Unambiguous ports listeners pools) {name : Option PortName}
    {id : String} :
    (nameSpecPorts listeners pools ports []).2.lookup name = some id ↔
      ∃ pool, Assigned ports listeners pools name pool ∧ pool.id = id := by
  have hmem : ∀ {name id}, (name, id) ∈ (nameSpecPorts listeners pools ports []).2 ↔
      ∃ pool, Assigned ports listeners pools name pool ∧ pool.id = id := by
    intro name id
    rw [mem_nameSpecPorts h.listenerIds (fun _ hp => hp) h.slots]
    constructor
    · rintro (hnil | ⟨pool, _, hid, hassigned⟩)
      · cases hnil
      · exact ⟨pool, hassigned, hid⟩
    · rintro ⟨pool, hassigned, hid⟩
      have hpool : pool ∈ pools := by
        obtain ⟨_, _, _, hserving⟩ := hassigned
        exact hserving.1
      exact .inr ⟨pool, hpool, hid, hassigned⟩
  constructor
  · intro hl
    exact hmem.mp (mem_of_lookup hl)
  · rintro ⟨pool, hassigned, rfl⟩
    refine lookup_eq_some_of_mem (hmem.mpr ⟨pool, hassigned, rfl⟩) fun id' hid' => ?_
    obtain ⟨pool', hassigned', rfl⟩ := hmem.mp hid'
    rw [h.assigned_unique hassigned' hassigned]

/-- A port that a pool serves is named. -/
theorem named_of_serving (hids : (listeners.map Listener.id).Nodup) {all : List Pool} :
    ∀ {pools : List Pool} {ports : List SpecPort} {specPorts : Assignments String},
      (∀ p ∈ pools, p ∈ all) → (ports.map SpecPort.slot).Nodup →
      ∀ {p : SpecPort}, p ∈ ports →
        ∃ p' ∈ (nameSpecPorts listeners pools ports specPorts).1, p'.key = p.key ∧
          ((p'.name = p.name) ∨ p'.name = some p.name.join) ∧
          ((∃ pool ∈ pools, Serving listeners all p.slot pool) → p'.name = some p.name.join)
  | [], ports, _, _, _, p, hp => ⟨p, hp, rfl, .inl rfl, fun h => by simp at h⟩
  | pool :: pools, ports, specPorts, hall, hslots, p, hp => by
    have hpool := hall pool List.mem_cons_self
    have hall' : ∀ p ∈ pools, p ∈ all := fun p hp => hall p (List.mem_cons_of_mem _ hp)
    rw [nameSpecPorts]
    cases hport : getPortInPool listeners ports pool with
    | none =>
      simp only
      obtain ⟨p', hp', hkey, hor, hnamed⟩ := named_of_serving hids hall' hslots hp
      refine ⟨p', hp', hkey, hor, fun hex => ?_⟩
      obtain ⟨q, hq, hserving⟩ := hex
      refine hnamed ⟨q, ?_, hserving⟩
      rcases List.mem_cons.mp hq with rfl | hq
      · obtain ⟨i, hi⟩ := List.getElem?_of_mem hp
        have hsome := (getPortInPool_eq_some hids hslots hpool).mpr ⟨p, hi, hserving⟩
        rw [hport] at hsome
        cases hsome
      · exact hq
    | some i =>
      have hkeys := map_key_modify ports i
      have hslots' : ((ports.modify i SpecPort.fillName).map SpecPort.slot).Nodup := by
        rw [slots_of_keys hkeys]
        exact hslots
      obtain ⟨j, hj⟩ := List.getElem?_of_mem hp
      simp only
      by_cases hij : i = j
      · -- the port at hand is named now, and stays so
        subst hij
        have hfilled : p.fillName ∈ ports.modify i SpecPort.fillName := by
          refine List.mem_of_getElem? (i := i) ?_
          rw [List.getElem?_modify, hj]
          simp
        obtain ⟨p', hp', hkey, hor, _⟩ := named_of_serving hids hall' hslots' hfilled
        have hname : p'.name = some p.name.join := hor.elim (fun h => h) fun h => h
        exact ⟨p', hp', hkey, .inr hname, fun _ => hname⟩
      · have hkept : p ∈ ports.modify i SpecPort.fillName := by
          refine List.mem_of_getElem? (i := j) ?_
          rw [List.getElem?_modify, hj]
          simp [hij]
        obtain ⟨p', hp', hkey, hor, hnamed⟩ := named_of_serving hids hall' hslots' hkept
        refine ⟨p', hp', hkey, hor, fun hex => ?_⟩
        obtain ⟨q, hq, hserving⟩ := hex
        refine hnamed ⟨q, ?_, hserving⟩
        rcases List.mem_cons.mp hq with rfl | hq
        · have hsome := (getPortInPool_eq_some hids hslots hpool).mpr ⟨p, hj, hserving⟩
          rw [hport] at hsome
          exact absurd (Option.some.inj hsome) hij
        · exact hq

/-! ## Members that are wanted -/

/-- The name of the target of an endpoint. -/
def podName (crdName : String) (ep : Endpoint) : String :=
  match ep.targetRef with
  | none => crdName
  | some ref => ref.name.getD ""

/-- `current_targets` of the removal of members. -/
def removalTargets (c : Crd) : List (String × String × Nat × Option String) :=
  currentEndpointsTargets c.spec.endpointSlices
    (nameSpecPorts c.status.listenerList c.status.poolList c.spec.ports []).2 c.name

/-- The member belongs to an entry of the slices, target name included. -/
def Wanted (c : Crd) (m : Member) : Prop :=
  ∃ e ∈ c.spec.entries, ∃ pool,
    Assigned c.spec.ports c.status.listenerList c.status.poolList e.2.name pool ∧
      m.identity = (e.1.address, podName c.name e.1, e.2.port, some pool.id)

theorem mem_entriesOf {slices : List Slice} {e : Endpoint × SlicePort} :
    e ∈ entriesOf slices ↔ ∃ s ∈ slices, e.1 ∈ s.endpoints ∧ e.2 ∈ s.ports := by
  simp only [entriesOf, List.mem_flatMap, List.mem_map]
  constructor
  · rintro ⟨s, hs, ep, hep, p, hp, rfl⟩
    exact ⟨s, hs, hep, hp⟩
  · rintro ⟨s, hs, hep, hp⟩
    exact ⟨s, hs, e.1, hep, e.2, hp, rfl⟩

/-- Removal keeps exactly the wanted members. -/
theorem identity_mem_removalTargets {c : Crd}
    (h : Unambiguous c.spec.ports c.status.listenerList c.status.poolList) {m : Member} :
    m.identity ∈ removalTargets c ↔ Wanted c m := by
  simp only [removalTargets, currentEndpointsTargets, List.mem_flatMap, List.mem_map,
    List.mem_filter, Option.isSome_iff_exists]
  constructor
  · rintro ⟨s, hs, ep, hep, p, ⟨hp, id, hid⟩, htarget⟩
    obtain ⟨pool, hassigned, hpool⟩ := (lookup_nameSpecPorts h).mp hid
    refine ⟨(ep, p), mem_entriesOf.mpr ⟨s, hs, hep, hp⟩, pool, hassigned, ?_⟩
    rw [← htarget, hpool, ← hid]
    rfl
  · rintro ⟨e, he, pool, hassigned, hidentity⟩
    obtain ⟨s, hs, hep, hp⟩ := mem_entriesOf.mp he
    have hid := (lookup_nameSpecPorts h).mpr ⟨pool, hassigned, rfl⟩
    refine ⟨s, hs, e.1, hep, e.2, ⟨hp, pool.id, hid⟩, ?_⟩
    rw [hidentity, ← hid]
    rfl

end LoadBalancer

end KuryrKubernetes
