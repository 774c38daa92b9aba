import KuryrKubernetes.Pool.NodeCleanup
import KuryrKubernetes.Pool.NetworkDeletion

/-!
# Every available port has a VIF

A port that is available or waits to be recycled is of use only while its VIF is known:
`_get_port_from_pool` loses it otherwise, and `_trigger_return_to_pool` drops it
(`controller/drivers/vif_pool.py`).

- `Freeing`, `freePool`: `free_pool` of the nested driver.
- `Operation`, `Pools.step`: the operations of either driver with the answers to their
  requests, and the ports the cleanup of removed nodes remembers.
- `Backed`: every port in sight has its VIF.
- `Careful`: the operations that forget no VIF of a port that stays in sight.
- `operations_backed`: `Backed` holds in every run of such operations.
-/

namespace KuryrKubernetes

namespace KnownVifs

open Dicts Loop Transition NetworkDeletion NodeCleanup

/-! ## Freeing pools -/

/-- What `free_pool` is answered: the ports and their trunks, the ports in use, and the
requests for each subport. An empty `trunkIps` stands for all trunks. -/
structure Freeing where
  listing : Bool
  ports : NeutronPorts
  inUse : List PortId
  trunkIps : List String
  detached : PortId → Bool
  deleted : PortId → Bool

/-- `_available_ports_pools[pool_key][sgs].remove(port_id)`; a pool that is missing is
created on the way. -/
def removePort (b : Filed) (key : PoolKey) (sg : SgKey) (port : PortId) : Filed :=
  match (row b key).get? sg with
  | none => b.set key (row b key)
  | some ports => b.set key ((row b key).set sg (ports.erase port))

def freeKey (e : String × NeutronPort) : PoolKey := ⟨e.1, e.2.project, e.2.network⟩

/-- The subport is detached and deleted, and its VIF is known. -/
def Freeing.frees (f : Freeing) (e : String × NeutronPort) (p : Pool) : Bool :=
  f.detached e.2.id && f.deleted e.2.id && (p.existing.get? e.2.id).isSome

/-- One subport in `_precreated_ports` (vif_pool.py:1029–1049). -/
def freeSubport (f : Freeing) (e : String × NeutronPort) (p : Pool) : Pool × Bool :=
  if f.frees e p then
    ({ p.dropExisting e.2.id with
        available := removePort p.available (freeKey e) (some (sorted e.2.sgs)) e.2.id }, true)
  else (p, true)

def Freeing.subports (f : Freeing) : List (String × NeutronPort) :=
  (nestedRecoverable f.ports f.inUse).filter fun e => f.trunkIps.isEmpty || f.trunkIps.contains e.1

/-- `free_pool` (vif_pool.py:965–1049, 1104–1111). The Neutron driver has none. -/
def freePool (driver : PoolDriver) (f : Freeing) (p : Pool) : Pool :=
  match driver with
  | .neutron => p
  | .nested => if f.listing then (each (freeSubport f) f.subports p).1 else p

/-! ## The operations -/

/-- A pool driver: its dictionaries, and `previous_ports_to_remove`. -/
structure Pools where
  pool : Pool
  previous : List PortId

inductive Operation where
  | populate (key : PoolKey) (sgs : List String) (locked : Bool) (out : Creation)
  | get (key : PoolKey) (sgs : List String) (out : Serving)
  | release (host project : String) (vif : Vif)
  | trigger (r : Recycling)
  | cleanup (tags : Bool) (it : Cleanup)
  | free (f : Freeing)
  | delete (netId : String) (a : Deletion)

def Pools.step (cfg : PopulateConfig) (s : Pools) : Operation → Pools
  | .populate key sgs locked out =>
    { s with pool := (populateOrRaise cfg locked out s.pool key sgs).1 }
  | .get key sgs out => { s with pool := (getPortOrRaise cfg.toPoolConfig out s.pool key sgs).1 }
  | .release host project vif => { s with pool := releaseVif s.pool host project vif }
  | .trigger r => { s with pool := (triggered cfg.toPoolConfig r (.start s.pool)).1.pool }
  | .cleanup tags it =>
    let swept := (triggerCleanup tags it ⟨s.pool, s.previous, []⟩).1
    ⟨swept.pool, swept.previous⟩
  | .free f => { s with pool := freePool cfg.driver f s.pool }
  | .delete netId a =>
    { s with
      pool := (NetworkDeletion.deleteNetworkPools cfg.toPoolConfig netId a (.start s.pool)).1.pool }

/-- Runs of the operations, from the pools that `sync_pools` leaves. -/
def operations (cfg : PopulateConfig) : System Pools Operation where
  init := fun s => (∃ n inUse, s.pool = syncPools cfg.toPoolConfig n inUse) ∧ s.previous = []
  step := fun s o s' => s.step cfg o = s'

/-- **Every port in sight has its VIF.** -/
def Backed (p : Pool) : Prop := ∀ q, p.Has q → (p.existing.get? q).isSome

/-! ## Operations that are careful -/

/-- The port is in this pool, and nowhere else in sight. -/
def OnlyIn (p : Pool) (key : PoolKey) (q : PortId) : Prop :=
  q ∉ p.recyclable.keys ∧ q ∉ portIds (p.available.erase key)

/-- A port for which there is no room can be deleted, and is not available as well. -/
def RecyclesCarefully (cfg : PoolConfig) (r : Recycling) (p : Pool) : Prop :=
  r.starts cfg = true →
    ∀ e rest t, Iterates (returnTurn cfg r) p.recyclable.items (.start p) e rest t →
    Full cfg t.pool e.2 → Detaches cfg r.out e.1 e.2 → r.out.deleted e.1 = true ∧ e.1 ∉ t.pool.ports

/-- The ports of a pool that is deleted are in no other place, and with the Neutron driver
all of them can be deleted. -/
def DropsCarefully (cfg : PoolConfig) (netId : String) (a : Deletion) (t : Trail) : Prop :=
  match cfg.driver with
  | .neutron => ∀ e rest t', Iterates (deletePool netId a) t.pool.available.items t e rest t' →
      e.1.net = netId → ∀ q ∈ portsIn e.2, a.deleted q = true ∧ OnlyIn t'.pool e.1 q
  | .nested => ∀ e rest s, Iterates (detachPool netId a) t.pool.available.items (t, []) e rest s →
      e.1.net = netId → (a.trunk e.1 && a.removed e.1) = true →
      ∀ q ∈ portsIn e.2, OnlyIn s.1.pool e.1 q

/-- The operations that forget no VIF of a port that stays in sight, by the state before the
operation and the answers to its requests. -/
def Careful (cfg : PopulateConfig) (s : Pools) : Operation → Prop
  | .populate _ _ _ _ | .get _ _ _ | .release _ _ _ => True
  | .trigger r => RecyclesCarefully cfg.toPoolConfig r s.pool
  | .cleanup tags it =>
    -- the ports it removes are not in sight
    ∀ x rest s', Iterates Sighting.visit (it.sightings tags) ⟨s.pool, s.previous, []⟩ x rest s' →
      x.id ∈ s'.previous → x.removable = true → ¬ s'.pool.Has x.id
  | .free f =>
    -- the subports it frees were listed once, under their own key
    cfg.driver = .nested → f.listing = true → ∀ e rest p,
      Iterates (freeSubport f) f.subports s.pool e rest p → f.frees e p = true →
      e.2.id ∉ p.recyclable.keys ∧
        e.2.id ∉ portIds (removePort p.available (freeKey e) (some (sorted e.2.sgs)) e.2.id)
  | .delete netId a =>
    RecyclesCarefully cfg.toPoolConfig a.toRecycling s.pool ∧
    ∀ t, triggered cfg.toPoolConfig a.toRecycling (.start s.pool) = (t, true) →
      DropsCarefully cfg.toPoolConfig netId a t

/-! ## Ports come into sight with their VIFs -/

section Arrivals

variable {p p' : Pool}

/-- Fewer ports in sight, and the VIFs of those that are left. -/
theorem Backed.of_le (h : Backed p)
    (hle : ∀ q, p'.Has q → p.Has q ∧ p'.existing.get? q = p.existing.get? q) : Backed p' := by
  intro q hq
  rw [(hle q hq).2]
  exact h q (hle q hq).1

theorem Backed.recover (h : Backed p) (key : PoolKey) (port : NeutronPort) :
    Backed (recover key p port) := by
  intro q hq
  have hfiled := entries_push p.available key (some (sorted port.sgs)) port.id
  have hports : q ∈ (KuryrKubernetes.recover key p port).ports ↔ q = port.id ∨ q ∈ p.ports :=
    (hfiled.map (·.2.2)).mem_iff.trans List.mem_cons
  show ((p.existing.set port.id _).get? q).isSome
  by_cases hport : q = port.id
  · rw [hport, Dict.set, Dict.get?_upsert_self]
    rfl
  · rw [Dict.set, Dict.get?_upsert_of_ne _ _ hport]
    exact h q (hq.imp_left fun hq => (hports.mp hq).resolve_left hport)

theorem syncPools_backed (cfg : PoolConfig) (n : NeutronPorts) (inUse : List PortId) :
    Backed (syncPools cfg n inUse) := by
  have hfold : ∀ (es : List (PoolKey × NeutronPort)) {p : Pool}, Backed p →
      Backed (es.foldl (fun p e => KuryrKubernetes.recover e.1 p e.2) p) := by
    intro es
    induction es with
    | nil => exact fun h => h
    | cons e es ih => exact fun h => ih (h.recover e.1 e.2)
  refine hfold _ ?_
  rintro q (hq | hq)
  · cases hq
  · cases hq

theorem Backed.populatePool (h : Backed p) (key : PoolKey) (sgs : List String) (vifs : List Vif) :
    Backed (populatePool p key sgs vifs) := by
  obtain ⟨hfiled, hrecy⟩ := populatePool_entries p key sgs vifs
  intro q hq
  have hports : q ∈ (KuryrKubernetes.populatePool p key sgs vifs).ports ↔ q ∈ ids vifs ∨
    q ∈ p.ports := by
    refine (hfiled.map (·.2.2)).mem_iff.trans ?_
    rw [List.map_append, List.map_map, List.mem_append]
    simp [Function.comp_def, Pool.ports]
  have hknown : q ∈ ids vifs ∨ (p.existing.get? q).isSome := by
    rcases hq with hq | hq
    · exact (hports.mp hq).imp_right fun hq => h q (.inl hq)
    · exact .inr (h q (.inr (hrecy ▸ hq)))
  exact populatePool_known hknown

theorem Backed.populateOrRaise (h : Backed p) (cfg : PopulateConfig) (locked : Bool)
    (out : Creation)
    (key : PoolKey) (sgs : List String) : Backed (populateOrRaise cfg locked out p key sgs).1 := by
  unfold KuryrKubernetes.populateOrRaise
  split
  · exact h
  · split
    · simp only
      split
      · exact h
      · exact h.populatePool key sgs _
    · exact h

/-- Serving a port takes one out of sight at most, and forgets no VIF. -/
theorem Backed.getPortOrRaise (h : Backed p) (cfg : PoolConfig) (out : Serving) (key : PoolKey)
    (sgs : List String) : Backed (getPortOrRaise cfg out p key sgs).1 := by
  have hset : ∀ {b : Filed}, (∀ q ∈ portIds b, q ∈ portIds p.available) →
      Backed { p with available := b } := fun hb =>
    h.of_le fun q hq => ⟨hq.imp_left (hb q), rfl⟩
  unfold KuryrKubernetes.getPortOrRaise
  cases htake : takePort p.available key sgs with
  | none =>
    -- a pool that is missing is created
    exact hset fun q hq => ((entries_set_row (List.Perm.refl _)).map (·.2.2)).mem_iff.mp hq
  | some taken =>
    obtain ⟨port, other, b⟩ := taken
    obtain ⟨sg, hperm, -⟩ := takePort_entries htake
    have hb : Backed { p with available := b } := hset fun q hq =>
      (hperm.map (·.2.2)).mem_iff.mpr (List.mem_cons_of_mem _ hq)
    simp only
    split
    · exact hb
    · split
      · exact hb
      · split <;> exact hb

theorem Backed.releaseVif (h : Backed p) (host project : String) (vif : Vif) :
    Backed (releaseVif p host project vif) := by
  have hexisting : ∀ q, q = vif.id ∨ (p.existing.get? q).isSome →
      ((KuryrKubernetes.releaseVif p host project vif).existing.get? q).isSome := by
    intro q hq
    unfold KuryrKubernetes.releaseVif
    simp only
    split
    · next hknown => exact hq.elim (fun hq => hq ▸ hknown) id
    · show ((p.existing.set vif.id vif).get? q).isSome
      by_cases hvif : q = vif.id
      · rw [hvif, Dict.set, Dict.get?_upsert_self]
        rfl
      · rw [Dict.set, Dict.get?_upsert_of_ne _ _ hvif]
        exact hq.resolve_left hvif
  rintro q (hq | hq)
  · refine hexisting q (.inr (h q (.inl ?_)))
    rwa [Pool.ports, releaseVif_available] at hq
  · exact hexisting q ((releaseVif_recyclable.mp hq).imp_right fun hq => h q (.inr hq))

end Arrivals

/-! ## Recycling -/

section Recycling

variable {cfg : PoolConfig} {r : Recycling} {t : Trail}

/-- An iteration that deletes its port forgets the VIF of that port only. -/
theorem returnTurn_backed {e : PortId × PoolKey} (h : Backed t.pool)
    (hmem : e ∈ t.pool.recyclable.items)
    (hcareful : Full cfg t.pool e.2 → Detaches cfg r.out e.1 e.2 →
      r.out.deleted e.1 = true ∧ e.1 ∉ t.pool.ports) :
    Backed (returnTurn cfg r e t).1.pool := by
  have hturn := returnPort_turn cfg r.out (r.sgCurrent cfg) t.pool e.1 e.2
  rw [returnTurn_eq]
  generalize returnPort cfg r.out (r.sgCurrent cfg) t.pool e = flow at hturn ⊢
  generalize deletesPort cfg r.out t.pool e = deletes at hturn
  generalize releasesVlan cfg r.out t.pool e = releases at hturn
  cases hturn with
  | filed room =>
    obtain ⟨hfiled, hrecy⟩ := recycle_entries t.pool e.1 e.2 (r.sgCurrent cfg e.1)
    have hexisting := recycle_existing t.pool e.1 e.2 (r.sgCurrent cfg e.1)
    refine h.of_le fun q hq => ⟨?_, congrArg (·.get? q) hexisting⟩
    rcases hq with hq | hq
    · rcases List.mem_cons.mp ((hfiled.map (·.2.2)).mem_iff.mp hq) with rfl | hq
      · exact .inr (List.mem_map_of_mem hmem)
      · exact .inl hq
    · exact .inr (hrecy ▸ (Dict.mem_keys_erase.mp hq).1)
  | stays hs => exact h
  | noTrunk hs => exact h
  | dropped hd => exact h.of_le fun q hq =>
    ⟨hq.imp_right fun hq => (Dict.mem_keys_erase.mp hq).1, rfl⟩
  | deleted known full detaches =>
    refine h.of_le fun q hq => ?_
    -- the port that is deleted is out of sight
    have hne : q ≠ e.1 := by
      rintro rfl
      exact hq.elim (hcareful full detaches).2 fun hq => (Dict.mem_keys_erase.mp hq).2 rfl
    exact ⟨hq.imp_right fun hq => (Dict.mem_keys_erase.mp hq).1, get?_dropExisting hne⟩
  | undeleted known full neutron hf =>
    have hdet : Detaches cfg r.out e.1 e.2 := fun hnested => by
      rw [neutron] at hnested
      cases hnested
    rw [(hcareful full hdet).1] at hf
    cases hf
  | detached known full nested detaches hf =>
    rw [(hcareful full detaches).1] at hf
    cases hf

/-- **A careful trigger.** -/
theorem triggered_backed {p : Pool} (h : Backed p) (hcareful : RecyclesCarefully cfg r p) :
    Backed (triggered cfg r (.start p)).1.pool := by
  unfold triggered
  split
  · next hstarts =>
    refine each_keeps (P := ToCome) (K := fun t : Trail => Backed t.pool)
      (fun e rest t hr hcome hb => ?_) ⟨p.recyclable.nodup, fun _ he => he⟩ h
    exact ⟨hcome.turn,
      returnTurn_backed hb (hcome.2 e List.mem_cons_self) (hcareful hstarts e rest t hr)⟩
  · exact h

end Recycling

/-! ## Ports of removed nodes, and subports that are freed -/

theorem visitAll_eq_each {α : Type} (f : α → Sweep → Sweep × Bool) (xs : List α) (s : Sweep) :
    visitAll f xs s = each f xs s := by
  induction xs generalizing s with
  | nil => rfl
  | cons x xs ih =>
    rw [visitAll, each]
    rcases f x s with ⟨s', ok⟩
    cases ok with
    | true => exact ih s'
    | false => rfl

/-- A candidate that was met before and can be removed loses its VIF. -/
theorem visit_pool (x : Sighting) (s : Sweep) :
    (x.visit s).1.pool = s.pool ∨
      x.id ∈ s.previous ∧ x.removable = true ∧ (x.visit s).1.pool = s.pool.dropExisting x.id := by
  unfold Sighting.visit visit
  split
  · exact .inl rfl
  · next hknown =>
    split
    · next hremovable =>
      refine .inr ⟨not_not.mp hknown, hremovable, ?_⟩
      cases hanswer : x.answer <;> rfl
    · exact .inl rfl

theorem Backed.dropExisting {p : Pool} (h : Backed p) {q : PortId} (hq : ¬ p.Has q) :
    Backed (p.dropExisting q) := by
  refine h.of_le fun q' hq' => ⟨hq', get?_dropExisting ?_⟩
  rintro rfl
  exact hq hq'

/-- **A careful cleanup.** -/
theorem triggerCleanup_backed {s : Sweep} {tags : Bool} {it : Cleanup} (h : Backed s.pool)
    (hcareful : ∀ x rest s', Iterates Sighting.visit (it.sightings tags) s x rest s' →
      x.id ∈ s'.previous → x.removable = true → ¬ s'.pool.Has x.id) :
    Backed (triggerCleanup tags it s).1.pool := by
  rw [triggerCleanup_eq, visitAll_eq_each]
  refine each_invariant (K := fun s : Sweep => Backed s.pool) (fun x rest s' hr hi => ?_) h
  rcases visit_pool x s' with heq | ⟨hprev, hremovable, heq⟩
  · rw [heq]
    exact hi
  · rw [heq]
    exact hi.dropExisting (hcareful x rest s' hr hprev hremovable)

/-- Only the one port is taken out. -/
theorem portIds_removePort {b : Filed} {key : PoolKey} {sg : SgKey} {port q : PortId}
    (h : q ∈ portIds (removePort b key sg port)) : q ∈ portIds b := by
  unfold removePort at h
  split at h
  · exact ((entries_set_row (List.Perm.refl _)).map (·.2.2)).mem_iff.mp h
  · next ports hgroup =>
    have hrows : ∀ x ∈ rows ((row b key).set sg (ports.erase port)), x ∈ rows (row b key) := by
      rintro ⟨sg', q'⟩ hx
      obtain ⟨left, hget, hmem⟩ := mem_rows.mp hx
      by_cases hsg : sg' = sg
      · subst hsg
        rw [Dict.set, Dict.get?_upsert_self] at hget
        cases hget
        exact mem_rows.mpr ⟨ports, hgroup, List.mem_of_mem_erase hmem⟩
      · rw [Dict.set, Dict.get?_upsert_of_ne _ _ hsg] at hget
        exact mem_rows.mpr ⟨left, hget, hmem⟩
    obtain ⟨⟨key', sg', q'⟩, he, rfl⟩ := List.mem_map.mp h
    refine List.mem_map.mpr ⟨(key', sg', q'), (entries_split b key).mem_iff.mpr ?_, rfl⟩
    rcases List.mem_append.mp ((entries_set b key _).mem_iff.mp he) with he | he
    · obtain ⟨x, hx, heq⟩ := List.mem_map.mp he
      exact List.mem_append_left _ (List.mem_map.mpr ⟨x, hrows x hx, heq⟩)
    · exact List.mem_append_right _ he

theorem freeSubport_backed {f : Freeing} {e : String × NeutronPort} {p : Pool} (h : Backed p)
    (hcareful : f.frees e p = true → e.2.id ∉ p.recyclable.keys ∧
      e.2.id ∉ portIds (removePort p.available (freeKey e) (some (sorted e.2.sgs)) e.2.id)) :
    Backed (freeSubport f e p).1 := by
  unfold freeSubport
  split
  · next hfrees =>
    obtain ⟨hrecy, hports⟩ := hcareful hfrees
    refine h.of_le fun q hq => ⟨hq.imp_left portIds_removePort, get?_dropExisting ?_⟩
    rintro rfl
    exact hq.elim hports hrecy
  · exact h

/-- **A careful `free_pool`.** -/
theorem freePool_backed {driver : PoolDriver} {f : Freeing} {p : Pool} (h : Backed p)
    (hcareful : driver = .nested → f.listing = true → ∀ e rest p',
      Iterates (freeSubport f) f.subports p e rest p' → f.frees e p' = true →
      e.2.id ∉ p'.recyclable.keys ∧
        e.2.id ∉ portIds (removePort p'.available (freeKey e) (some (sorted e.2.sgs)) e.2.id)) :
    Backed (freePool driver f p) := by
  cases driver with
  | neutron => exact h
  | nested =>
    unfold freePool
    simp only
    split
    · next hlisting =>
      exact each_invariant (fun e rest p' hr hi =>
        freeSubport_backed hi (hcareful rfl hlisting e rest p' hr)) h
    · exact h

/-! ## Deleting the pools of a network -/

section Deleting

variable {cfg : PoolConfig} {netId : String} {a : Deletion} {p : Pool}

theorem get?_foldl_dropExisting {ports : List PortId} {q : PortId} (hq : q ∉ ports) (p : Pool) :
    (ports.foldl Pool.dropExisting p).existing.get? q = p.existing.get? q := by
  induction ports generalizing p with
  | nil => rfl
  | cons port ports ih =>
    rw [List.mem_cons, not_or] at hq
    obtain ⟨hport, hports⟩ := hq
    exact (ih hports _).trans (get?_dropExisting hport)

/-- The pool goes, and with it the VIFs of its ports. -/
theorem Backed.dropPool (h : Backed p) {key : PoolKey} {ports : List PortId}
    (honly : ∀ q ∈ ports, OnlyIn p key q) :
    Backed (dropPool (ports.foldl Pool.dropExisting p) key) := by
  obtain ⟨havail, hrecy⟩ := foldl_dropExisting_frame ports p
  refine h.of_le fun q hq => ?_
  have hsight : q ∈ portIds (p.available.erase key) ∨ q ∈ p.recyclable.keys := by
    rw [← havail, ← hrecy]
    exact hq
  -- a port in sight is not one of the pool, whose ports are nowhere else
  have hports : q ∉ ports := fun hmem => hsight.elim (honly q hmem).2 (honly q hmem).1
  refine ⟨hsight.imp_left fun hq => ?_, get?_foldl_dropExisting hports p⟩
  exact ((entries_erase_sublist p.available key).map (·.2.2)).subset hq

theorem dropPools_backed {t : Trail} (h : Backed t.pool) (hcareful : DropsCarefully cfg netId a t) :
    Backed (dropPools cfg netId a t).1.pool := by
  unfold DropsCarefully at hcareful
  unfold dropPools
  cases hdriver : cfg.driver with
  | neutron =>
    rw [hdriver] at hcareful
    refine each_invariant (K := fun t : Trail => Backed t.pool) (fun e rest t' hr hb => ?_) h
    rcases deletePool_cases netId a e t' with ⟨-, heq⟩ | ⟨hnet, -, heq⟩ | ⟨hnet, ⟨q, hq, hfail⟩, -⟩
    · rw [heq]
      exact hb
    · rw [heq]
      exact hb.dropPool fun q hq => (hcareful e rest t' hr hnet q hq).2
    · rw [(hcareful e rest t' hr hnet q hq).1] at hfail
      cases hfail
  | nested =>
    rw [hdriver] at hcareful
    have hloop : Backed (each (detachPool netId a) t.pool.available.items (t, [])).1.1.pool := by
      refine each_invariant (K := fun s : Trail × List PortId => Backed s.1.pool)
        (fun e rest s hr hb => ?_) h
      rcases detachPool_cases netId a e s with ⟨-, heq⟩ | ⟨hnet, hyes, heq⟩ | ⟨-, -, heq⟩
      · rw [heq]
        exact hb
      · rw [heq]
        simp only [foldl_releaseVlan_pool]
        exact hb.dropPool (hcareful e rest s hr hnet hyes)
      · rw [heq]
        exact hb
    simp only [detachPools]
    rcases hrun : each (detachPool netId a) t.pool.available.items (t, []) with ⟨⟨t₁, ports⟩, ok⟩
    rw [hrun] at hloop
    cases ok with
    | false => exact hloop
    | true =>
      rcases deletePorts_cases a ports t₁ with ⟨-, heq⟩ | ⟨-, some, -, heq⟩ <;>
        simpa only [heq] using hloop

/-- **A careful `delete_network_pools`.** -/
theorem deleteNetworkPools_backed (h : Backed p)
    (hrecycles : RecyclesCarefully cfg a.toRecycling p)
    (hdrops : ∀ t, triggered cfg a.toRecycling (.start p) = (t, true) →
      DropsCarefully cfg netId a t) :
    Backed (NetworkDeletion.deleteNetworkPools cfg netId a (.start p)).1.pool := by
  have htriggered := triggered_backed h hrecycles
  unfold NetworkDeletion.deleteNetworkPools
  rcases ht : triggered cfg a.toRecycling (.start p) with ⟨t, ok⟩
  rw [ht] at htriggered
  cases ok with
  | false => exact htriggered
  | true => exact dropPools_backed htriggered (hdrops t ht)

end Deleting

/-! ## Runs -/

/-- **Every careful operation keeps the VIFs** of the ports in sight. -/
theorem step_backed {cfg : PopulateConfig} {s : Pools} {o : Operation} (h : Backed s.pool)
    (hcareful : Careful cfg s o) : Backed (s.step cfg o).pool := by
  cases o with
  | populate key sgs locked out => exact h.populateOrRaise cfg locked out key sgs
  | get key sgs out => exact h.getPortOrRaise cfg.toPoolConfig out key sgs
  | release host project vif => exact h.releaseVif host project vif
  | trigger r => exact triggered_backed h hcareful
  | cleanup tags it => exact triggerCleanup_backed h hcareful
  | free f => exact freePool_backed h hcareful
  | delete netId a => exact deleteNetworkPools_backed h hcareful.1 hcareful.2

/-- `_get_port_from_pool` finds the VIF of the port it takes. -/
def NothingMissing (p : Pool) : Prop :=
  ∀ key sgs port other b, takePort p.available key sgs = some (port, other, b) →
    (p.existing.get? port).isSome

/-- `_trigger_return_to_pool` finds the VIF of every port whose turn comes. -/
def NothingDropped (p : Pool) : Prop :=
  ∀ (cfg : PoolConfig) out sgCurrent before e rest p', p.recyclable.items = before ++ e :: rest →
    returnPorts cfg out sgCurrent p before = .next p' → (p'.existing.get? e.1).isSome

theorem Backed.nothingMissing {p : Pool} (h : Backed p) : NothingMissing p := by
  intro key sgs port other b htake
  obtain ⟨sg, hperm, -⟩ := takePort_entries htake
  exact h port (.inl ((hperm.map (·.2.2)).mem_iff.mpr List.mem_cons_self))

theorem returnPorts_existing (cfg : PoolConfig) (out : Outcome) (sgCurrent : PortId → SgKey)
    {es : List (PortId × PoolKey)} {q : PortId} (hq : q ∉ es.map Prod.fst) (p : Pool) :
    (returnPorts cfg out sgCurrent p es).pool.existing.get? q = p.existing.get? q := by
  induction es generalizing p with
  | nil => rfl
  | cons e es ih =>
    rw [List.map_cons, List.mem_cons, not_or] at hq
    obtain ⟨he, hes⟩ := hq
    have hone : (returnPort cfg out sgCurrent p e).pool.existing.get? q = p.existing.get? q :=
      returnPort_existing he
    rw [returnPorts]
    cases hflow : returnPort cfg out sgCurrent p e with
    | next p' =>
      rw [hflow] at hone
      exact (ih hes p').trans hone
    | raised p' =>
      rw [hflow] at hone
      exact hone

theorem Backed.nothingDropped {p : Pool} (h : Backed p) : NothingDropped p := by
  intro cfg out sgCurrent before e rest p' hitems hrun
  have hnd : ((before ++ e :: rest).map Prod.fst).Nodup := hitems ▸ p.recyclable.nodup
  -- the iterations before have other ports
  have hfresh : e.1 ∉ before.map Prod.fst := by
    rw [List.map_append, List.map_cons] at hnd
    intro hmem
    exact (List.nodup_append.mp hnd).2.2 _ hmem _ List.mem_cons_self rfl
  have hexisting := returnPorts_existing cfg out sgCurrent hfresh p
  rw [hrun] at hexisting
  have hkey : e.1 ∈ p.recyclable.keys := List.mem_map_of_mem (hitems ▸ by simp)
  rw [show p'.existing.get? e.1 = p.existing.get? e.1 from hexisting]
  exact h e.1 (.inr hkey)

/-- **Every available port has a VIF** in every run of careful operations: no port is lost
when it is served, and none is dropped when it is recycled. -/
theorem operations_backed (cfg : PopulateConfig) (s : Pools)
    (h : Reach (operations cfg) (Careful cfg) s) :
    Backed s.pool ∧ NothingMissing s.pool ∧ NothingDropped s.pool := by
  have hb : Backed s.pool := by
    refine h.invariant (I := fun s => Backed s.pool) ?_ ?_
    · rintro s ⟨⟨n, inUse, hpool⟩, -⟩
      rw [hpool]
      exact syncPools_backed cfg.toPoolConfig n inUse
    · rintro s o s' hb hcareful hstep
      obtain rfl : s.step cfg o = s' := hstep
      exact step_backed hb hcareful
  exact ⟨hb, hb.nothingMissing, hb.nothingDropped⟩

/-- A driver that has recovered no ports. -/
def noPorts : Pools := ⟨Pool.empty, []⟩

theorem noPorts_reached (ok : Pools → Operation → Prop) :
    Reach (operations smallPools) ok noPorts :=
  .init ⟨⟨⟨[], by simp, by simp⟩, [], rfl⟩, rfl⟩

def fillPool : Operation := .populate netKey [] true onePort

/-- The port is DOWN and not bound to a host. -/
def sweepPort : Operation :=
  .cleanup false
    { recovered := true
      subnets := some []
      detached := ⟨[], true⟩
      existing := ⟨[⟨"port-1", some .kuryr, [], ""⟩], true⟩
      removal := fun _ => .deleted
      deleted := fun _ => true }

/-- In the first iteration the port is only noted. -/
theorem sweepPort_careful (p : Pool) : Careful smallPools ⟨p, []⟩ sweepPort := by
  intro x rest s' hr hprev
  cases iterates_singleton hr
  cases hprev

/-- The pool is filled and its port is noted. -/
theorem operations_backed_noted :
    ((noPorts.step smallPools fillPool).step smallPools sweepPort).pool.ports = ["port-1"] ∧
      Backed ((noPorts.step smallPools fillPool).step smallPools sweepPort).pool := by
  refine ⟨by decide +kernel, (operations_backed smallPools _ ?_).1⟩
  have hfilled : Reach (operations smallPools) (Careful smallPools)
    (noPorts.step smallPools fillPool) :=
    (noPorts_reached _).step (a := fillPool) trivial rfl
  exact hfilled.step (a := sweepPort) (sweepPort_careful _) rfl

/-- The second iteration forgets the VIF of the port, which stays available: the next pod is
told to wait. -/
theorem cleanup_forgets_vif :
    ∃ s, Reach (operations smallPools) (fun _ _ => True) s ∧ "port-1" ∈ s.pool.ports ∧
      ¬ Backed s.pool ∧
      (getPortOrRaise smallPools.toPoolConfig ⟨true, true⟩ s.pool netKey []).2 = .notReady := by
  have hreach : Reach (operations smallPools) (fun _ _ => True)
      (((noPorts.step smallPools fillPool).step smallPools sweepPort).step smallPools sweepPort) :=
    (((noPorts_reached _).step (a := fillPool) trivial rfl).step (a := sweepPort) trivial rfl).step
      (a := sweepPort) trivial rfl
  have hport : "port-1" ∈
      (((noPorts.step smallPools fillPool).step smallPools sweepPort).step smallPools
        sweepPort).pool.ports := by decide +kernel
  refine ⟨_, hreach, hport, fun h => ?_, by decide +kernel⟩
  exact absurd (h "port-1" (.inl hport)) (by decide +kernel)

end KnownVifs

end KuryrKubernetes
