import KuryrKubernetes.Lib.Loop
import KuryrKubernetes.Pool.Conservation

/-!
# Deleting the pools of a network

`delete_network_pools` (`controller/drivers/vif_pool.py`) recycles the ports that wait, and
then removes the pools of a network with their ports. It raises when a request fails, and
its caller tries again.

- `Deletion`: the answers to the requests of one call.
- `Trail`: the pools, the ports deleted in Neutron so far, and the ports whose VLAN id was
  released.
- `Turn`: everything one iteration of `_trigger_return_to_pool` may do to its port.
- `deleteNetworkPools`: one call of either driver; `deletions`: calls until one returns.
- `Spares`, `Settles`: the answers on which a call loses no port of the network, and on which
  it leaves none behind.
- `delete_network_pools_retried`: after such calls everything is gone when one of them returns.

The Neutron driver deletes the ports of a pool before it drops the pool; the nested driver
drops all the pools first.
-/

namespace KuryrKubernetes

namespace NetworkDeletion

open Dicts Loop

/-! ## One iteration of the trigger -/

/-- The pool has as many ports as it may have. -/
def Full (cfg : PoolConfig) (p : Pool) (key : PoolKey) : Prop :=
  ¬ (cfg.portsPoolMax = 0 ∨ p.size key < cfg.portsPoolMax)

/-- The subport was removed from its trunk, if there is one. -/
def Detaches (cfg : PoolConfig) (out : Outcome) (port : PortId) (key : PoolKey) : Prop :=
  cfg.driver = .nested → out.trunk key = true ∧ out.detached port = true

/-- The port is taken for deleted since its VIF is not known. -/
def Drops (cfg : PoolConfig) (out : Outcome) (p : Pool) (port : PortId) (key : PoolKey) : Prop :=
  Full cfg p key ∧ Detaches cfg out port key ∧ p.existing.get? port = none

/-- A request for the port fails, and the loop goes on. -/
def Stays (cfg : PoolConfig) (out : Outcome) (p : Pool) (port : PortId) (key : PoolKey) : Prop :=
  (¬ Full cfg p key ∧ cfg.portDebug = true ∧ out.renamed port = false) ∨
  (Full cfg p key ∧ cfg.driver = .nested ∧ out.trunk key = true ∧
    (out.detached port = false ∨ (p.existing.get? port).isSome ∧ out.deleted port = false))

/-- Whether an iteration releases the VLAN id of its port. -/
def releasesVlan (cfg : PoolConfig) (out : Outcome) (p : Pool) (e : PortId × PoolKey) : Bool :=
  !(cfg.portsPoolMax = 0 || p.size e.2 < cfg.portsPoolMax) && cfg.driver = .nested &&
  out.trunk e.2 && out.detached e.1 && (p.existing.get? e.1).isSome

/-- What may become of a port: how the iteration ends, whether the port is deleted, and
whether its VLAN id is released. -/
inductive Turn (cfg : PoolConfig) (out : Outcome) (sg : SgKey) (p : Pool) (port : PortId)
    (key : PoolKey) : Flow → Bool → Bool → Prop where
  | filed (room : ¬ Full cfg p key) :
      Turn cfg out sg p port key (.next ((recycle p port key sg).dropRecyclable port)) false false
  | stays (h : Stays cfg out p port key) : Turn cfg out sg p port key (.next p) false false
  | noTrunk (nested : cfg.driver = .nested) : Turn cfg out sg p port key (.raised p) false false
  | dropped (h : Drops cfg out p port key) :
      Turn cfg out sg p port key (.next (p.dropRecyclable port)) false false
  | deleted (known : (p.existing.get? port).isSome) (full : Full cfg p key)
      (detaches : Detaches cfg out port key) :
      Turn cfg out sg p port key (.next ((p.dropExisting port).dropRecyclable port)) true
        (cfg.driver = .nested)
  | undeleted (known : (p.existing.get? port).isSome) (full : Full cfg p key)
      (neutron : cfg.driver = .neutron) (h : out.deleted port = false) :
      Turn cfg out sg p port key (.raised (p.dropExisting port)) false false
  | detached (known : (p.existing.get? port).isSome) (full : Full cfg p key)
      (nested : cfg.driver = .nested) (detaches : Detaches cfg out port key)
      (h : out.deleted port = false) :
      Turn cfg out sg p port key (.next (p.dropExisting port)) false true

/-- **One iteration is one of these turns.** -/
theorem returnPort_turn (cfg : PoolConfig) (out : Outcome) (sgCurrent : PortId → SgKey) (p : Pool)
    (port : PortId) (key : PoolKey) :
    Turn cfg out (sgCurrent port) p port key (returnPort cfg out sgCurrent p (port, key))
      (deletesPort cfg out p (port, key)) (releasesVlan cfg out p (port, key)) := by
  by_cases hroom : cfg.portsPoolMax = 0 ∨ p.size key < cfg.portsPoolMax
  · have hmax : (decide (cfg.portsPoolMax = 0) || decide (p.size key < cfg.portsPoolMax)) =
      true := by
      simpa using hroom
    simp only [deletesPort, releasesVlan, hmax, Bool.not_true, Bool.false_and]
    by_cases hname : cfg.portDebug = true ∧ ¬ out.renamed port = true
    · have hflow : returnPort cfg out sgCurrent p (port, key) = .next p := by
        simp [returnPort, hroom, hname]
      rw [hflow]
      exact .stays (.inl ⟨not_not.mpr hroom, hname.1, by simpa using hname.2⟩)
    · have hflow : returnPort cfg out sgCurrent p (port, key) =
          .next ((recycle p port key (sgCurrent port)).dropRecyclable port) := by
        simp only [returnPort, if_pos hroom, if_neg hname]
      rw [hflow]
      exact .filed (not_not.mpr hroom)
  · have hmax : (decide (cfg.portsPoolMax = 0) || decide (p.size key < cfg.portsPoolMax)) =
      false := by
      simpa using hroom
    simp only [returnPort, if_neg hroom, deletesPort, releasesVlan, hmax, Bool.not_false,
      Bool.true_and]
    cases hdrv : cfg.driver with
    | neutron =>
      have hdet : Detaches cfg out port key := by simp [Detaches, hdrv]
      cases hvif : p.existing.get? port with
      | none => simpa using Turn.dropped ⟨hroom, hdet, hvif⟩
      | some v =>
        have hknown : (p.existing.get? port).isSome := by simp [hvif]
        cases hdel : out.deleted port with
        | true => simpa [hdrv] using Turn.deleted hknown hroom hdet
        | false => simpa using Turn.undeleted hknown hroom hdrv hdel
    | nested =>
      cases htrunk : out.trunk key with
      | false => simpa using Turn.noTrunk hdrv
      | true =>
        cases hdetached : out.detached port with
        | false => simpa using Turn.stays (.inr ⟨hroom, hdrv, htrunk, .inl hdetached⟩)
        | true =>
          have hdet : Detaches cfg out port key := fun _ => ⟨htrunk, hdetached⟩
          cases hvif : p.existing.get? port with
          | none => simpa using Turn.dropped ⟨hroom, hdet, hvif⟩
          | some v =>
            have hknown : (p.existing.get? port).isSome := by simp [hvif]
            cases hdel : out.deleted port with
            | true => simpa [hdrv] using Turn.deleted hknown hroom hdet
            | false => simpa using Turn.detached hknown hroom hdrv hdet hdel

/-! ## The calls -/

/-- The answers to the requests of one `_trigger_return_to_pool`. -/
structure Recycling where
  recovered : Bool
  listing : Bool
  listed : PortId → Bool
  neutronSgs : PortId → List String
  out : Outcome

/-- The answers in one call of `delete_network_pools`. `removed` when `_remove_subports`
succeeds or finds a subport missing, `deleted` are the answers to `delete_neutron_port`, and
`started` the deletions that were on their way when an earlier one had failed. -/
structure Deletion extends Recycling where
  trunk : PoolKey → Bool
  removed : PoolKey → Bool
  deleted : PortId → Bool
  started : PortId → Bool

/-- The pools, the ports deleted in Neutron, and the ports whose VLAN id was released. -/
structure Trail where
  pool : Pool
  deleted : List PortId
  released : List PortId

def Trail.start (p : Pool) : Trail := ⟨p, [], []⟩

/-- `sg_current`. -/
def Recycling.sgCurrent (cfg : PoolConfig) (r : Recycling) (port : PortId) : SgKey :=
  if ¬ cfg.portDebug ∧ r.listed port then some (sorted (r.neutronSgs port)) else none

/-- An iteration of `_trigger_return_to_pool`, with what it deletes and releases. -/
def returnTurn (cfg : PoolConfig) (r : Recycling) (e : PortId × PoolKey) (t : Trail) :
    Trail × Bool :=
  let deleted := t.deleted ++ if deletesPort cfg r.out t.pool e then [e.1] else []
  let released := t.released ++ if releasesVlan cfg r.out t.pool e then [e.1] else []
  match returnPort cfg r.out (r.sgCurrent cfg) t.pool e with
  | .next p => (⟨p, deleted, released⟩, true)
  | .raised p => (⟨p, deleted, released⟩, false)

/-- The pools are recovered, and the ports could be listed. -/
def Recycling.starts (cfg : PoolConfig) (r : Recycling) : Bool :=
  r.recovered && (cfg.portDebug || r.listing)

/-- The call of `_trigger_return_to_pool`. -/
def triggered (cfg : PoolConfig) (r : Recycling) (t : Trail) : Trail × Bool :=
  if r.starts cfg then each (returnTurn cfg r) t.pool.recyclable.items t else (t, false)

/-- The ports of a pool. -/
def portsIn (d : Dict SgKey (List PortId)) : List PortId := (rows d).map Prod.snd

/-- `del _available_ports_pools[pool_key]`. -/
def dropPool (p : Pool) (key : PoolKey) : Pool :=
  { p with available := p.available.erase key }

/-- `epool.imap(c_utils.delete_neutron_port, ports)` and the loop over its results, which
raises at the first failure. -/
def Deletion.deletePorts (a : Deletion) (ports : List PortId) (t : Trail) : Trail × Bool :=
  if ports.all a.deleted then ({ t with deleted := t.deleted ++ ports }, true)
  else
    let late := (ports.dropWhile a.deleted).filter fun q => a.deleted q && a.started q
    ({ t with deleted := t.deleted ++ (ports.takeWhile a.deleted ++ late) }, false)

/-- One pool of `NeutronVIFPool.delete_network_pools`. -/
def deletePool (netId : String) (a : Deletion) (e : PoolKey × Dict SgKey (List PortId))
    (t : Trail) :
    Trail × Bool :=
  if e.1.net ≠ netId then (t, true)
  else
    let t := { t with pool := (portsIn e.2).foldl Pool.dropExisting t.pool }
    match a.deletePorts (portsIn e.2) t with
    | (t, true) => ({ t with pool := dropPool t.pool e.1 }, true)
    | (t, false) => (t, false)

/-- `_release_vlan_id`, and `del _existing_vifs[port_id]`. -/
def Trail.releaseVlan (t : Trail) (port : PortId) : Trail :=
  if (t.pool.existing.get? port).isSome then
    { t with pool := t.pool.dropExisting port, released := t.released ++ [port] }
  else t

/-- One pool of `NestedVIFPool.delete_network_pools`, with `ports_to_remove`. -/
def detachPool (netId : String) (a : Deletion) (e : PoolKey × Dict SgKey (List PortId))
    (s : Trail × List PortId) : (Trail × List PortId) × Bool :=
  if e.1.net ≠ netId then (s, true)
  else if a.trunk e.1 && a.removed e.1 then
    let t := (portsIn e.2).foldl Trail.releaseVlan s.1
    (({ t with pool := dropPool t.pool e.1 }, s.2 ++ portsIn e.2), true)
  else (s, false)

/-- The pools of the nested driver, and then their ports. -/
def detachPools (netId : String) (a : Deletion) (t : Trail) : Trail × Bool :=
  match each (detachPool netId a) t.pool.available.items (t, []) with
  | ((t, ports), true) => a.deletePorts ports t
  | ((t, _), false) => (t, false)

/-- The part of either driver after the trigger. -/
def dropPools (cfg : PoolConfig) (netId : String) (a : Deletion) (t : Trail) : Trail × Bool :=
  match cfg.driver with
  | .neutron => each (deletePool netId a) t.pool.available.items t
  | .nested => detachPools netId a t

/-- `delete_network_pools` (vif_pool.py:776–815, 1113–1167); `false` when it raises. -/
def deleteNetworkPools (cfg : PoolConfig) (netId : String) (a : Deletion) (t : Trail) :
    Trail × Bool :=
  match triggered cfg a.toRecycling t with
  | (t, false) => (t, false)
  | (t, true) => dropPools cfg netId a t

/-- Calls one after the other, up to the first that returns. -/
def deletions (cfg : PoolConfig) (netId : String) : List Deletion → Trail → Trail × Bool
  | [], t => (t, false)
  | a :: as, t =>
    match deleteNetworkPools cfg netId a t with
    | (t, true) => (t, true)
    | (t, false) => deletions cfg netId as t

/-! ## What a caller expects -/

/-- The port is in a pool of the network. -/
def InPools (p : Pool) (netId : String) (q : PortId) : Prop :=
  ∃ key sg, (key, sg, q) ∈ entries p.available ∧ key.net = netId

/-- The port waits to be recycled into a pool of the network. -/
def Waits (p : Pool) (netId : String) (q : PortId) : Prop :=
  ∃ key, (q, key) ∈ p.recyclable.items ∧ key.net = netId

/-- The ports a deletion is about. -/
def Concerned (p : Pool) (netId : String) (q : PortId) : Prop := InPools p netId q ∨ Waits p netId q

/-- What is there when the pools are deleted, the ports of which were those of `p`. -/
structure Gone (cfg : PoolConfig) (netId : String) (p : Pool) (t : Trail) : Prop where
  pools : ∀ key ∈ t.pool.available.keys, key.net ≠ netId
  ports : ∀ q, Concerned p netId q → q ∈ t.deleted
  vlans : cfg.driver = .nested → ∀ q, Concerned p netId q → t.released.count q = 1

/-- A call loses no port of the network. -/
structure Spares (cfg : PoolConfig) (netId : String) (a : Deletion) (t : Trail) : Prop where
  /-- No port is taken for deleted. -/
  known : a.starts cfg = true → ∀ e rest t',
    Iterates (returnTurn cfg a.toRecycling) t.pool.recyclable.items t e rest t' → e.2.net = netId →
    ¬ Drops cfg a.out t'.pool e.1 e.2
  /-- No subports are detached already when those of another pool cannot be. -/
  detached : cfg.driver = .nested → ∀ t', triggered cfg a.toRecycling t = (t', true) → ∀ e rest s,
    Iterates (detachPool netId a) t'.pool.available.items (t', []) e rest s → e.1.net = netId →
    (a.trunk e.1 && a.removed e.1) = false → s.2 = []
  /-- The ports that were detached can be deleted. -/
  deleted : cfg.driver = .nested → ∀ t', triggered cfg a.toRecycling t = (t', true) → ∀ s,
    each (detachPool netId a) t'.pool.available.items (t', []) = (s, true) →
    ∀ q ∈ s.2, a.deleted q = true

/-- No port of the network waits when the trigger has returned. -/
def Settles (cfg : PoolConfig) (netId : String) (a : Deletion) (t : Trail) : Prop :=
  ∀ e rest t', Iterates (returnTurn cfg a.toRecycling) t.pool.recyclable.items t e rest t' →
    e.2.net = netId →
    ¬ Stays cfg a.out t'.pool e.1 e.2

/-- Every call spares the ports, and the one that returns settles them. -/
def Survives (cfg : PoolConfig) (netId : String) : List Deletion → Trail → Prop
  | [], _ => True
  | a :: as, t =>
    Spares cfg netId a t ∧
    match deleteNetworkPools cfg netId a t with
    | (_, true) => Settles cfg netId a t
    | (t, false) => Survives cfg netId as t

/-! ## The trigger -/

def goes : Flow → Bool
  | .next _ => true
  | .raised _ => false

theorem returnTurn_eq (cfg : PoolConfig) (r : Recycling) (e : PortId × PoolKey) (t : Trail) :
    returnTurn cfg r e t =
      (⟨(returnPort cfg r.out (r.sgCurrent cfg) t.pool e).pool,
          t.deleted ++ if deletesPort cfg r.out t.pool e then [e.1] else [],
          t.released ++ if releasesVlan cfg r.out t.pool e then [e.1] else []⟩,
        goes (returnPort cfg r.out (r.sgCurrent cfg) t.pool e)) := by
  unfold returnTurn
  cases returnPort cfg r.out (r.sgCurrent cfg) t.pool e <;> rfl

/-- The loop over the trail is the loop of `_trigger_return_to_pool` over the pools. -/
theorem each_returnTurn (cfg : PoolConfig) (r : Recycling) (es : List (PortId × PoolKey)) :
    ∀ t : Trail,
      returnPorts cfg r.out (r.sgCurrent cfg) t.pool es =
          (match each (returnTurn cfg r) es t with
          | (t', true) => .next t'.pool
          | (t', false) => .raised t'.pool) ∧
        (each (returnTurn cfg r) es t).1.deleted =
          t.deleted ++ deletedPorts cfg r.out (r.sgCurrent cfg) t.pool es := by
  induction es with
  | nil => exact fun t => ⟨rfl, (List.append_nil _).symm⟩
  | cons e es ih =>
    intro t
    rw [each, returnTurn_eq, returnPorts, deletedPorts]
    cases hflow : returnPort cfg r.out (r.sgCurrent cfg) t.pool e with
    | next p =>
      obtain ⟨hpool, hdel⟩ := ih
        ⟨p, t.deleted ++ if deletesPort cfg r.out t.pool e then [e.1] else [],
          t.released ++ if releasesVlan cfg r.out t.pool e then [e.1] else []⟩
      exact ⟨hpool, hdel.trans (List.append_assoc ..)⟩
    | raised p => exact ⟨rfl, congrArg (t.deleted ++ ·) (List.append_nil _).symm⟩

section Turns

variable {cfg : PoolConfig} {out : Outcome} {sg : SgKey} {p : Pool} {port : PortId} {key : PoolKey}
  {flow : Flow} {deletes releases : Bool} {netId : String}

theorem recyclable_functional {k k' : PoolKey} (h : (port, k) ∈ p.recyclable.items)
    (h' : (port, k') ∈ p.recyclable.items) : k = k' := by
  have heq := (Dict.get?_eq_some.mpr h).symm.trans (Dict.get?_eq_some.mpr h')
  exact Option.some.inj heq

/-- The other ports wait as before. -/
theorem Turn.waiting (h : Turn cfg out sg p port key flow deletes releases)
    {e : PortId × PoolKey} (he : e.1 ≠ port) :
    e ∈ flow.pool.recyclable.items ↔ e ∈ p.recyclable.items := by
  have herase : e ∈ (p.recyclable.erase port).items ↔ e ∈ p.recyclable.items := by
    rw [Dict.mem_items_erase]
    exact and_iff_left he
  cases h with
  | filed room =>
    rw [← herase, ← (recycle_entries p port key sg).2]
    rfl
  | dropped h => exact herase
  | deleted known full detaches => exact herase
  | _ => exact Iff.rfl

/-- No port comes to wait. -/
theorem Turn.wait_before (h : Turn cfg out sg p port key flow deletes releases)
    {e : PortId × PoolKey} (he : e ∈ flow.pool.recyclable.items) : e ∈ p.recyclable.items := by
  have herase : e ∈ (p.recyclable.erase port).items → e ∈ p.recyclable.items := fun h =>
    (Dict.mem_items_erase.mp h).1
  cases h with
  | filed room =>
    rw [← (recycle_entries p port key sg).2] at herase ⊢
    exact herase he
  | dropped h => exact herase he
  | deleted known full detaches => exact herase he
  | _ => exact he

/-- A port that an iteration does not drop stays in sight, unless it is deleted. -/
theorem Turn.concerned (h : Turn cfg out sg p port key flow deletes releases)
    (hmem : (port, key) ∈ p.recyclable.items) (hdrop : key.net = netId → ¬ Drops cfg out p port key)
    {q : PortId} (hq : Concerned p netId q) :
    (deletes = true ∧ q = port) ∨ Concerned flow.pool netId q := by
  by_cases hport : q = port
  · -- its own turn: a port that waits under another key would be another entry
    subst hport
    cases h with
    | filed room =>
      refine .inr (.inl ?_)
      have hfiled := (recycle_entries p q key sg).1
      rcases hq with ⟨k, sg', hin, hnet⟩ | ⟨k, hin, hnet⟩
      · exact ⟨k, sg', hfiled.mem_iff.mpr (List.mem_cons_of_mem _ hin), hnet⟩
      · cases recyclable_functional hin hmem
        exact ⟨key, sg, hfiled.mem_iff.mpr List.mem_cons_self, hnet⟩
    | dropped h =>
      rcases hq with hin | ⟨k, hin, hnet⟩
      · exact .inr (.inl hin)
      · cases recyclable_functional hin hmem
        exact absurd h (hdrop hnet)
    | deleted known full detaches => exact .inl ⟨rfl, rfl⟩
    | _ => exact .inr hq
  · refine .inr ?_
    rcases hq with ⟨k, sg', hin, hnet⟩ | ⟨k, hin, hnet⟩
    · refine .inl ⟨k, sg', ?_, hnet⟩
      cases h with
      | filed room =>
        exact (recycle_entries p port key sg).1.mem_iff.mpr (List.mem_cons_of_mem _ hin)
      | _ => exact hin
    · exact .inr ⟨k, (h.waiting hport).mpr hin, hnet⟩

/-- A port that waits after its turn stays for a reason. -/
theorem Turn.stays_of_waiting (h : Turn cfg out sg p port key flow deletes releases)
    (hgoes : goes flow = true) {k : PoolKey} (hin : (port, k) ∈ flow.pool.recyclable.items) :
    Stays cfg out p port key := by
  have herased : (port, k) ∉ (p.recyclable.erase port).items := fun h =>
    (Dict.mem_items_erase.mp h).2 rfl
  cases h with
  | filed room =>
    rw [← (recycle_entries p port key sg).2] at herased
    exact absurd hin herased
  | stays h => exact h
  | dropped h => exact absurd hin herased
  | deleted known full detaches => exact absurd hin herased
  | detached known full nested detaches h =>
    exact .inr ⟨full, nested, (detaches nested).1, .inr ⟨known, h⟩⟩
  | noTrunk nested => cases hgoes
  | undeleted known full neutron h => cases hgoes

end Turns

section Triggered

variable {cfg : PoolConfig} {r : Recycling} {a : Deletion} {t : Trail} {netId : String}

/-- Every port of the network is deleted, or still in sight. -/
def Kept (netId : String) (t t' : Trail) : Prop :=
  ∀ q, q ∈ t.deleted ∨ Concerned t.pool netId q → q ∈ t'.deleted ∨ Concerned t'.pool netId q

theorem Kept.trans {t t' t'' : Trail} (h : Kept netId t t') (h' : Kept netId t' t'') :
    Kept netId t t'' :=
  fun q hq => h' q (h q hq)

/-- The ports still to come wait in the pools. -/
def ToCome (es : List (PortId × PoolKey)) (t : Trail) : Prop :=
  (es.map Prod.fst).Nodup ∧ ∀ e ∈ es, e ∈ t.pool.recyclable.items

theorem ToCome.turn {e : PortId × PoolKey} {es : List (PortId × PoolKey)} (h : ToCome (e :: es) t) :
    ToCome es (returnTurn cfg r e t).1 := by
  obtain ⟨hfresh, hnd⟩ := List.nodup_cons.mp h.1
  refine ⟨hnd, fun e' he' => ?_⟩
  have hne : e'.1 ≠ e.1 := fun heq => hfresh (heq ▸ List.mem_map_of_mem he')
  rw [returnTurn_eq]
  exact ((returnPort_turn cfg r.out (r.sgCurrent cfg) t.pool e.1 e.2).waiting hne).mpr
    (h.2 e' (List.mem_cons_of_mem e he'))

theorem returnTurn_kept {e : PortId × PoolKey} (hmem : e ∈ t.pool.recyclable.items)
    (hdrop : e.2.net = netId → ¬ Drops cfg r.out t.pool e.1 e.2) :
    Kept netId t (returnTurn cfg r e t).1 := by
  intro q hq
  rw [returnTurn_eq]
  rcases hq with hq | hq
  · exact .inl (List.mem_append_left _ hq)
  · have hturn := returnPort_turn cfg r.out (r.sgCurrent cfg) t.pool e.1 e.2
    rcases hturn.concerned hmem hdrop hq with ⟨hdel, rfl⟩ | hq
    · refine .inl (List.mem_append_right _ ?_)
      rw [if_pos hdel]
      exact List.mem_singleton.mpr rfl
    · exact .inr hq

/-- **The trigger loses no port** that it does not take for deleted. -/
theorem triggered_kept (h : Spares cfg netId a t) :
    Kept netId t (triggered cfg a.toRecycling t).1 := by
  unfold triggered
  split
  · next hstarts =>
    refine each_keeps (P := ToCome) (K := Kept netId t) (fun e rest t' hr hcome hkept => ?_)
      ⟨t.pool.recyclable.nodup, fun _ he => he⟩ (fun _ hq => hq)
    exact ⟨hcome.turn, hkept.trans (returnTurn_kept (hcome.2 e List.mem_cons_self)
      (h.known hstarts e rest t' hr))⟩
  · exact fun q hq => hq

/-- **After a trigger that settles them, the ports of the network are in its pools.** -/
theorem triggered_settles (h : Settles cfg netId a t)
    (hok : (triggered cfg a.toRecycling t).2 = true) (q : PortId) :
    ¬ Waits (triggered cfg a.toRecycling t).1.pool netId q := by
  unfold triggered at hok ⊢
  split at hok
  · next hstarts =>
    rw [if_pos hstarts]
    -- a port that still waits is one whose turn has not come
    have hrule := each_rule (f := returnTurn cfg a.toRecycling)
      (I := fun es t' => ∀ q key, (q, key) ∈ t'.pool.recyclable.items → key.net = netId →
        (q, key) ∈ es) (E := fun _ => True)
      (fun e rest t' hr hi => by
        refine ⟨fun hgoes q key hin hnet => ?_, fun _ => trivial⟩
        have hturn := returnPort_turn cfg a.out (a.sgCurrent cfg) t'.pool e.1 e.2
        rw [returnTurn_eq] at hgoes hin
        rcases List.mem_cons.mp (hi q key (hturn.wait_before hin) hnet) with rfl | hrest
        · exact absurd (hturn.stays_of_waiting hgoes hin) (h _ rest t' hr hnet)
        · exact hrest)
      (show ∀ q key, (q, key) ∈ t.pool.recyclable.items → key.net = netId →
        (q, key) ∈ t.pool.recyclable.items from fun q key hin _ => hin)
    rintro ⟨key, hin, hnet⟩
    exact absurd (hrule.1 hok q key hin hnet) (by simp)
  · cases hok

end Triggered

/-! ## The pools of the network -/

section Pools

variable {netId : String} {a : Deletion} {b : Filed}

theorem mem_portsIn {d : Dict SgKey (List PortId)} {q : PortId} :
    q ∈ portsIn d ↔ ∃ sg, (sg, q) ∈ rows d := by
  simp [portsIn]

/-- The port is filed under a key of the network. -/
def FiledFor (b : Filed) (netId : String) (q : PortId) : Prop :=
  ∃ key, key.net = netId ∧ q ∈ portsIn (row b key)

theorem inPools_iff {p : Pool} {q : PortId} : InPools p netId q ↔ FiledFor p.available netId q := by
  constructor
  · rintro ⟨key, sg, hin, hnet⟩
    exact ⟨key, hnet, mem_portsIn.mpr ⟨sg, mem_entries.mp hin⟩⟩
  · rintro ⟨key, hnet, hin⟩
    obtain ⟨sg, hin⟩ := mem_portsIn.mp hin
    exact ⟨key, sg, mem_entries.mpr hin, hnet⟩

/-- The ports of a pool that is dropped, and the others. -/
theorem FiledFor.erase {e : PoolKey × Dict SgKey (List PortId)} (he : e ∈ b.items) {q : PortId}
    (h : FiledFor b netId q) : q ∈ portsIn e.2 ∨ FiledFor (b.erase e.1) netId q := by
  obtain ⟨key, hnet, hin⟩ := h
  by_cases hkey : key = e.1
  · rw [hkey, row_of_mem he] at hin
    exact .inl hin
  · refine .inr ⟨key, hnet, ?_⟩
    rw [row, Dict.get?_erase_of_ne b hkey]
    exact hin

/-- The pools still to come are there, and every pool of the network is among them. -/
structure Snapshot (netId : String) (es : List (PoolKey × Dict SgKey (List PortId))) (b : Filed) :
    Prop where
  nodup : (es.map Prod.fst).Nodup
  filed : ∀ e ∈ es, e ∈ b.items
  complete : ∀ key ∈ b.keys, key.net = netId → key ∈ es.map Prod.fst

variable {e : PoolKey × Dict SgKey (List PortId)} {es : List (PoolKey × Dict SgKey (List PortId))}

theorem Snapshot.start (b : Filed) : Snapshot netId b.items b where
  nodup := b.nodup
  filed := fun _ he => he
  complete := fun _ hkey _ => hkey

theorem Snapshot.skip (h : Snapshot netId (e :: es) b) (he : e.1.net ≠ netId) :
    Snapshot netId es b where
  nodup := (List.nodup_cons.mp h.nodup).2
  filed := fun e' he' => h.filed e' (List.mem_cons_of_mem e he')
  complete := fun key hkey hnet =>
    (List.mem_cons.mp (h.complete key hkey hnet)).resolve_left fun heq => he (heq ▸ hnet)

theorem Snapshot.erase (h : Snapshot netId (e :: es) b) : Snapshot netId es (b.erase e.1) where
  nodup := (List.nodup_cons.mp h.nodup).2
  filed := by
    intro e' he'
    have hne : e'.1 ≠ e.1 := fun heq =>
      (List.nodup_cons.mp h.nodup).1 (heq ▸ List.mem_map_of_mem he')
    exact Dict.mem_items_erase.mpr ⟨h.filed e' (List.mem_cons_of_mem e he'), hne⟩
  complete := by
    intro key hkey hnet
    obtain ⟨hkey, hne⟩ := Dict.mem_keys_erase.mp hkey
    exact (List.mem_cons.mp (h.complete key hkey hnet)).resolve_left hne

theorem Snapshot.nil_filedFor (h : Snapshot netId [] b) (q : PortId) : ¬ FiledFor b netId q := by
  rintro ⟨key, hnet, hin⟩
  have hnone : key ∉ b.keys := fun hkey => by simpa using h.complete key hkey hnet
  rw [row_of_notMem hnone] at hin
  simp [portsIn, rows] at hin

/-- The ports are all deleted, or some of them and the call raises. -/
theorem deletePorts_cases (a : Deletion) (ports : List PortId) (t : Trail) :
    ((∀ q ∈ ports, a.deleted q = true) ∧
        a.deletePorts ports t = ({ t with deleted := t.deleted ++ ports }, true)) ∨
      ((∃ q ∈ ports, a.deleted q = false) ∧ ∃ some : List PortId, (∀ q ∈ some, q ∈ ports) ∧
        a.deletePorts ports t = ({ t with deleted := t.deleted ++ some }, false)) := by
  unfold Deletion.deletePorts
  split
  · next hall => exact .inl ⟨List.all_eq_true.mp hall, rfl⟩
  · next hall =>
    refine .inr ⟨by simpa using hall, _, fun q hq => ?_, rfl⟩
    rcases List.mem_append.mp hq with hq | hq
    · exact (List.takeWhile_sublist _).subset hq
    · exact (List.dropWhile_sublist _).subset (List.mem_filter.mp hq).1

end Pools

/-! ### The Neutron driver -/

section Neutron

variable {netId : String} {a : Deletion} {t : Trail}

/-- A pool of another network, a pool that is deleted, and one that is kept since a port
could not be deleted. -/
theorem deletePool_cases (netId : String) (a : Deletion) (e : PoolKey × Dict SgKey (List PortId))
    (t : Trail) :
    (e.1.net ≠ netId ∧ deletePool netId a e t = (t, true)) ∨
      (e.1.net = netId ∧ (∀ q ∈ portsIn e.2, a.deleted q = true) ∧ deletePool netId a e t =
        (⟨dropPool ((portsIn e.2).foldl Pool.dropExisting t.pool) e.1, t.deleted ++ portsIn e.2,
          t.released⟩, true)) ∨
      (e.1.net = netId ∧ (∃ q ∈ portsIn e.2, a.deleted q = false) ∧ ∃ some : List PortId,
        deletePool netId a e t =
          (⟨(portsIn e.2).foldl Pool.dropExisting t.pool, t.deleted ++ some, t.released⟩,
            false)) := by
  unfold deletePool
  by_cases hnet : e.1.net = netId
  · rw [if_neg (not_not.mpr hnet)]
    rcases deletePorts_cases a (portsIn e.2)
      { t with pool := (portsIn e.2).foldl Pool.dropExisting t.pool } with
      ⟨hall, heq⟩ | ⟨hsome, some, -, heq⟩
    · exact .inr (.inl ⟨hnet, hall, by simp only [heq]⟩)
    · exact .inr (.inr ⟨hnet, hsome, some, by simp only [heq]⟩)
  · exact .inl ⟨hnet, if_pos hnet⟩

/-- The pools without the VIFs of some ports. -/
theorem foldl_dropExisting_frame (ports : List PortId) (p : Pool) :
    (ports.foldl Pool.dropExisting p).available = p.available ∧
      (ports.foldl Pool.dropExisting p).recyclable = p.recyclable :=
  foldl_dropExisting (fun q => q) ports p

/-- The ports of the pools are deleted, or in the pools. -/
def PoolsKept (netId : String) (t t' : Trail) : Prop :=
  t'.pool.recyclable = t.pool.recyclable ∧
    ∀ q, q ∈ t.deleted ∨ FiledFor t.pool.available netId q →
      q ∈ t'.deleted ∨ FiledFor t'.pool.available netId q

theorem PoolsKept.trans {t t' t'' : Trail} (h : PoolsKept netId t t')
    (h' : PoolsKept netId t' t'') :
    PoolsKept netId t t'' :=
  ⟨h'.1.trans h.1, fun q hq => h'.2 q (h.2 q hq)⟩

theorem PoolsKept.kept {t' : Trail} (h : PoolsKept netId t t') : Kept netId t t' := by
  intro q hq
  have hpools := h.2 q
  rw [← inPools_iff, ← inPools_iff] at hpools
  rcases hq with hq | hq | ⟨key, hin, hnet⟩
  · exact (hpools (.inl hq)).imp_right .inl
  · exact (hpools (.inr hq)).imp_right .inl
  · exact .inr (.inr ⟨key, h.1 ▸ hin, hnet⟩)

/-- A pool whose ports are not all deleted is kept for the next call. -/
theorem deletePool_kept {e : PoolKey × Dict SgKey (List PortId)}
    {es : List (PoolKey × Dict SgKey (List PortId))}
    (h : Snapshot netId (e :: es) t.pool.available) :
    PoolsKept netId t (deletePool netId a e t).1 ∧
      ((deletePool netId a e t).2 = true →
        Snapshot netId es (deletePool netId a e t).1.pool.available) := by
  obtain ⟨havail, hrecy⟩ := foldl_dropExisting_frame (portsIn e.2) t.pool
  rcases deletePool_cases netId a e t with ⟨hnet, heq⟩ | ⟨-, -, heq⟩ | ⟨-, -, some, heq⟩
  · rw [heq]
    exact ⟨⟨rfl, fun q hq => hq⟩, fun _ => h.skip hnet⟩
  · have herase : (dropPool ((portsIn e.2).foldl Pool.dropExisting t.pool) e.1).available =
        t.pool.available.erase e.1 := congrArg (·.erase e.1) havail
    rw [heq]
    refine ⟨⟨hrecy, fun q hq => ?_⟩, fun _ => herase ▸ h.erase⟩
    rcases hq with hq | hq
    · exact .inl (List.mem_append_left _ hq)
    · rcases hq.erase (h.filed e List.mem_cons_self) with hq | hq
      · exact .inl (List.mem_append_right _ hq)
      · exact .inr (herase ▸ hq)
  · -- the VIFs are forgotten, but the pool is there for the next call
    rw [heq]
    refine ⟨⟨hrecy, fun q hq => ?_⟩, nofun⟩
    exact hq.imp (List.mem_append_left _) fun hq => havail ▸ hq

/-- **The Neutron driver loses no port in its pools.** -/
theorem each_deletePool_kept (netId : String) (a : Deletion) (t : Trail) :
    PoolsKept netId t (each (deletePool netId a) t.pool.available.items t).1 ∧
      ((each (deletePool netId a) t.pool.available.items t).2 = true →
        Snapshot netId [] (each
          (deletePool netId a) t.pool.available.items t).1.pool.available) := by
  have hrule := each_rule (f := deletePool netId a)
    (I := fun es t' => Snapshot netId es t'.pool.available ∧ PoolsKept netId t t')
    (E := fun t' => PoolsKept netId t t')
    (fun e rest t' _ hi => by
      obtain ⟨hkept, hsnap⟩ := deletePool_kept (a := a) hi.1
      exact ⟨fun hok => ⟨hsnap hok, hi.2.trans hkept⟩, fun _ => hi.2.trans hkept⟩)
    (show Snapshot netId t.pool.available.items t.pool.available ∧ PoolsKept netId t t from
      ⟨.start _, rfl, fun q hq => hq⟩)
  cases hok : (each (deletePool netId a) t.pool.available.items t).2 with
  | true => exact ⟨(hrule.1 hok).2, fun _ => (hrule.1 hok).1⟩
  | false => exact ⟨hrule.2 hok, nofun⟩

end Neutron

/-! ### The nested driver -/

section Nested

variable {netId : String} {a : Deletion} {t : Trail} {s : Trail × List PortId}

/-- A pool of another network, a pool that is dropped, and one that cannot be detached. -/
theorem detachPool_cases (netId : String) (a : Deletion) (e : PoolKey × Dict SgKey (List PortId))
    (s : Trail × List PortId) :
    (e.1.net ≠ netId ∧ detachPool netId a e s = (s, true)) ∨
      (e.1.net = netId ∧ (a.trunk e.1 && a.removed e.1) = true ∧ detachPool netId a e s =
        (({ (portsIn e.2).foldl Trail.releaseVlan s.1 with
            pool := dropPool ((portsIn e.2).foldl Trail.releaseVlan s.1).pool e.1 },
          s.2 ++ portsIn e.2), true)) ∨
      (e.1.net = netId ∧ (a.trunk e.1 && a.removed e.1) = false ∧
        detachPool netId a e s = (s, false)) := by
  unfold detachPool
  by_cases hnet : e.1.net = netId
  · rw [if_neg (not_not.mpr hnet)]
    cases hanswer : (a.trunk e.1 && a.removed e.1) with
    | true => exact .inr (.inl ⟨hnet, rfl, rfl⟩)
    | false => exact .inr (.inr ⟨hnet, rfl, rfl⟩)
  · exact .inl ⟨hnet, if_pos hnet⟩

/-- Releasing VLAN ids touches neither the pools nor the ports that wait. -/
theorem foldl_releaseVlan_frame (ports : List PortId) (t : Trail) :
    (ports.foldl Trail.releaseVlan t).pool.available = t.pool.available ∧
      (ports.foldl Trail.releaseVlan t).pool.recyclable = t.pool.recyclable ∧
      (ports.foldl Trail.releaseVlan t).deleted = t.deleted := by
  induction ports generalizing t with
  | nil => exact ⟨rfl, rfl, rfl⟩
  | cons port ports ih =>
    have hone : (t.releaseVlan port).pool.available = t.pool.available ∧
        (t.releaseVlan port).pool.recyclable = t.pool.recyclable ∧
        (t.releaseVlan port).deleted = t.deleted := by
      unfold Trail.releaseVlan
      split <;> exact ⟨rfl, rfl, rfl⟩
    obtain ⟨h₁, h₂, h₃⟩ := ih (t.releaseVlan port)
    exact ⟨h₁.trans hone.1, h₂.trans hone.2.1, h₃.trans hone.2.2⟩

/-- The ports of the pools so far are to be deleted, or in the pools. -/
structure Detaching (netId : String) (t : Trail) (s : Trail × List PortId) : Prop where
  recyclable : s.1.pool.recyclable = t.pool.recyclable
  deleted : s.1.deleted = t.deleted
  ports : ∀ q, FiledFor t.pool.available netId q → q ∈ s.2 ∨ FiledFor s.1.pool.available netId q

theorem Detaching.pool {e : PoolKey × Dict SgKey (List PortId)}
    {es : List (PoolKey × Dict SgKey (List PortId))} (hd : Detaching netId t s)
    (h : Snapshot netId (e :: es) s.1.pool.available) :
    Detaching netId t (detachPool netId a e s).1 ∧
      ((detachPool netId a e s).2 = true →
        Snapshot netId es (detachPool netId a e s).1.1.pool.available) := by
  obtain ⟨havail, hrecy, hdel⟩ := foldl_releaseVlan_frame (portsIn e.2) s.1
  rcases detachPool_cases netId a e s with ⟨hnet, heq⟩ | ⟨-, -, heq⟩ | ⟨-, -, heq⟩
  · rw [heq]
    exact ⟨hd, fun _ => h.skip hnet⟩
  · have herase : (dropPool ((portsIn e.2).foldl Trail.releaseVlan s.1).pool e.1).available =
        s.1.pool.available.erase e.1 := congrArg (·.erase e.1) havail
    rw [heq]
    refine ⟨⟨hrecy.trans hd.recyclable, hdel.trans hd.deleted, fun q hq => ?_⟩,
      fun _ => herase ▸ h.erase⟩
    rcases hd.ports q hq with hq | hq
    · exact .inl (List.mem_append_left _ hq)
    · rcases hq.erase (h.filed e List.mem_cons_self) with hq | hq
      · exact .inl (List.mem_append_right _ hq)
      · exact .inr (herase ▸ hq)
  · rw [heq]
    exact ⟨hd, nofun⟩

/-- The pools that a loop which raises has dropped had no ports. -/
theorem each_detachPool (netId : String) (a : Deletion) (t : Trail)
    (hdetached : ∀ e rest s, Iterates (detachPool netId a) t.pool.available.items (t, []) e rest s →
      e.1.net = netId → (a.trunk e.1 && a.removed e.1) = false → s.2 = []) :
    Detaching netId t (each (detachPool netId a) t.pool.available.items (t, [])).1 ∧
      ((each (detachPool netId a) t.pool.available.items (t, [])).2 = true →
        Snapshot netId []
          (each (detachPool netId a) t.pool.available.items (t, [])).1.1.pool.available) ∧
      ((each (detachPool netId a) t.pool.available.items (t, [])).2 = false →
        (each (detachPool netId a) t.pool.available.items (t, [])).1.2 = []) := by
  have hrule := each_rule (f := detachPool netId a)
    (I := fun es s => Snapshot netId es s.1.pool.available ∧ Detaching netId t s)
    (E := fun s => Detaching netId t s ∧ s.2 = [])
    (fun e rest s hr hi => by
      obtain ⟨hd, hsnap⟩ := hi.2.pool (a := a) hi.1
      refine ⟨fun hok => ⟨hsnap hok, hd⟩, fun hfail => ⟨hd, ?_⟩⟩
      rcases detachPool_cases netId a e s with ⟨-, heq⟩ | ⟨-, -, heq⟩ | ⟨hnet, hanswer, heq⟩
      · rw [heq] at hfail
        cases hfail
      · rw [heq] at hfail
        cases hfail
      · rw [heq]
        exact hdetached e rest s hr hnet hanswer)
    (show Snapshot netId t.pool.available.items t.pool.available ∧ Detaching netId t (t, []) from
      ⟨.start _, rfl, rfl, fun q hq => .inr hq⟩)
  cases hok : (each (detachPool netId a) t.pool.available.items (t, [])).2 with
  | true => exact ⟨(hrule.1 hok).2, fun _ => (hrule.1 hok).1, nofun⟩
  | false => exact ⟨(hrule.2 hok).1, nofun, fun _ => (hrule.2 hok).2⟩

/-- **The nested driver loses no port in its pools** when it can delete what it detached. -/
theorem detachPools_kept (netId : String) (a : Deletion) (t : Trail)
    (hdetached : ∀ e rest s, Iterates (detachPool netId a) t.pool.available.items (t, []) e rest s →
      e.1.net = netId → (a.trunk e.1 && a.removed e.1) = false → s.2 = [])
    (hdeleted : ∀ s, each (detachPool netId a) t.pool.available.items (t, []) = (s, true) →
      ∀ q ∈ s.2, a.deleted q = true) :
    PoolsKept netId t (detachPools netId a t).1 ∧
      ((detachPools netId a t).2 = true →
        Snapshot netId [] (detachPools netId a t).1.pool.available) := by
  obtain ⟨hd, hsnap, hnone⟩ := each_detachPool netId a t hdetached
  unfold detachPools
  rcases hloop : each (detachPool netId a) t.pool.available.items (t, []) with ⟨⟨t₁, ports⟩, ok⟩
  rw [hloop] at hd hsnap hnone
  cases ok with
  | true =>
    -- the pools are gone: their ports are deleted now, or by nobody
    have hall := hdeleted _ hloop
    rcases deletePorts_cases a ports t₁ with ⟨-, heq⟩ | ⟨⟨q, hq, hfail⟩, -⟩
    · simp only [heq]
      refine ⟨⟨hd.recyclable, fun q hq => .inl ?_⟩, fun _ => hsnap rfl⟩
      rcases hq with hq | hq
      · exact List.mem_append_left _ (hd.deleted ▸ hq)
      · rcases hd.ports q hq with hq | hq
        · exact List.mem_append_right _ hq
        · exact absurd hq ((hsnap rfl).nil_filedFor q)
    · rw [hall q hq] at hfail
      cases hfail
  | false =>
    have hports : ports = [] := hnone rfl
    refine ⟨⟨hd.recyclable, fun q hq => ?_⟩, nofun⟩
    rcases hq with hq | hq
    · exact .inl (hd.deleted ▸ hq)
    · refine .inr ((hd.ports q hq).resolve_left fun hq => ?_)
      simp [hports] at hq

end Nested

/-! ### The pools alone -/

/-- Whether the ports of a pool are removed, in the sense of `deletePools`. -/
def Deletion.removes (cfg : PoolConfig) (a : Deletion) (p : Pool) (key : PoolKey) : Bool :=
  match cfg.driver with
  | .neutron => (portsIn (row p.available key)).all a.deleted
  | .nested => a.trunk key && a.removed key

theorem releaseVlan_pool (t : Trail) (port : PortId) :
    (t.releaseVlan port).pool = t.pool.dropExisting port := by
  unfold Trail.releaseVlan
  split
  · rfl
  · next hnone =>
    have herase : t.pool.existing.erase port = t.pool.existing :=
      Dict.erase_of_get?_none (by simpa using hnone)
    simp only [Pool.dropExisting, herase]

theorem foldl_releaseVlan_pool (ports : List PortId) (t : Trail) :
    (ports.foldl Trail.releaseVlan t).pool = ports.foldl Pool.dropExisting t.pool := by
  induction ports generalizing t with
  | nil => rfl
  | cons port ports ih =>
    rw [List.foldl_cons, List.foldl_cons, ih, releaseVlan_pool]

theorem foldl_portsIn (d : Dict SgKey (List PortId)) (p : Pool) :
    (portsIn d).foldl Pool.dropExisting p = (rows d).foldl (fun p e => p.dropExisting e.2) p := by
  rw [portsIn, List.foldl_map]

theorem each_deletePool_pool {cfg : PoolConfig} (hdriver : cfg.driver = .neutron) (netId : String)
    (a : Deletion) (removed : PoolKey → Bool) (es : List (PoolKey × Dict SgKey (List PortId)))
    (hremoved : ∀ e ∈ es, removed e.1 = (portsIn e.2).all a.deleted) (t : Trail) :
    (each (deletePool netId a) es t).1.pool = deletePools cfg netId removed es t.pool := by
  induction es generalizing t with
  | nil => rfl
  | cons e es ih =>
    have hrest := ih fun e' he' => hremoved e' (List.mem_cons_of_mem e he')
    rw [each, deletePools]
    rcases deletePool_cases netId a e t with
      ⟨hnet, heq⟩ | ⟨hnet, hall, heq⟩ | ⟨hnet, hsome, some, heq⟩
    · rw [heq, if_pos hnet]
      exact hrest t
    · have hyes : removed e.1 = true := by
        rw [hremoved e List.mem_cons_self]
        exact List.all_eq_true.mpr hall
      rw [heq, if_neg (not_not.mpr hnet)]
      simp only [hyes, if_true, ← foldl_portsIn]
      exact hrest _
    · have hno : removed e.1 = false := by
        rw [hremoved e List.mem_cons_self]
        simpa using hsome
      rw [heq, if_neg (not_not.mpr hnet)]
      simp only [hno, hdriver, ← foldl_portsIn]
      rfl

theorem each_detachPool_pool {cfg : PoolConfig} (hdriver : cfg.driver = .nested) (netId : String)
    (a : Deletion) (es : List (PoolKey × Dict SgKey (List PortId))) (s : Trail × List PortId) :
    (each (detachPool netId a) es s).1.1.pool =
      deletePools cfg netId (fun key => a.trunk key && a.removed key) es s.1.pool := by
  induction es generalizing s with
  | nil => rfl
  | cons e es ih =>
    rw [each, deletePools]
    rcases detachPool_cases netId a e s with ⟨hnet, heq⟩ | ⟨hnet, hyes, heq⟩ | ⟨hnet, hno, heq⟩
    · rw [heq, if_pos hnet]
      exact ih s
    · rw [heq, if_neg (not_not.mpr hnet)]
      simp only [hyes, if_true, ← foldl_portsIn, ← foldl_releaseVlan_pool]
      exact ih _
    · rw [heq, if_neg (not_not.mpr hnet)]
      simp only [hno, hdriver]
      rfl

/-- **On the pools a call does what `deleteNetworkPools` of `Pool.State` does.** -/
theorem deleteNetworkPools_pool (cfg : PoolConfig) (netId : String) (a : Deletion) (t : Trail)
    (hstarts : a.starts cfg = true) :
    (deleteNetworkPools cfg netId a t).1.pool =
      KuryrKubernetes.deleteNetworkPools cfg a.out a.listed
        (a.removes cfg (triggered cfg a.toRecycling t).1.pool) a.neutronSgs netId t.pool := by
  have htrigger : triggerReturnToPool cfg a.out a.listed a.neutronSgs t.pool =
      match triggered cfg a.toRecycling t with
      | (t', true) => .next t'.pool
      | (t', false) => .raised t'.pool := by
    rw [triggered, if_pos hstarts]
    exact (each_returnTurn cfg a.toRecycling t.pool.recyclable.items t).1
  rw [KuryrKubernetes.deleteNetworkPools, htrigger, deleteNetworkPools]
  rcases triggered cfg a.toRecycling t with ⟨t₁, ok⟩
  cases ok with
  | false => rfl
  | true =>
    simp only [dropPools]
    cases hdriver : cfg.driver with
    | neutron =>
      refine each_deletePool_pool hdriver netId a _ _ (fun e he => ?_) t₁
      simp only [Deletion.removes, hdriver, row_of_mem he]
    | nested =>
      have hpool := each_detachPool_pool hdriver netId a t₁.pool.available.items (t₁, [])
      have hremoves : a.removes cfg t₁.pool = fun key => a.trunk key && a.removed key := by
        funext key
        simp only [Deletion.removes, hdriver]
      simp only [hremoves, ← hpool, detachPools]
      rcases each (detachPool netId a) t₁.pool.available.items (t₁, []) with ⟨⟨t₂, ports⟩, ok⟩
      cases ok with
      | false => rfl
      | true =>
        rcases deletePorts_cases a ports t₂ with ⟨-, heq⟩ | ⟨-, some, -, heq⟩ <;> simp only [heq]

/-! ## VLAN ids -/

theorem recycle_existing (p : Pool) (port : PortId) (key : PoolKey) (sg : SgKey) :
    (recycle p port key sg).existing = p.existing := by
  unfold recycle
  simp only
  split <;> rfl

section Vlans

variable {cfg : PoolConfig} {r : Recycling} {a : Deletion} {p : Pool} {t : Trail} {netId : String}

/-- The VLAN id of a port is released when its VIF is forgotten, and a port is deleted only
after that. `p` are the pools before the first call. -/
structure Accounted (p : Pool) (t : Trail) : Prop where
  count : ∀ q, (p.existing.get? q).isSome →
    t.released.count q = if (t.pool.existing.get? q).isSome then 0 else 1
  deleted : ∀ q ∈ t.deleted, t.pool.existing.get? q = none

theorem Accounted.start (p : Pool) : Accounted p (.start p) where
  count := by
    intro q hq
    simp [Trail.start, hq]
  deleted := by simp [Trail.start]

theorem Accounted.congr {t' : Trail} (h : Accounted p t)
    (hexisting : t'.pool.existing = t.pool.existing) (hdeleted : t'.deleted = t.deleted)
    (hreleased : t'.released = t.released) : Accounted p t' where
  count := by
    rw [hexisting, hreleased]
    exact h.count
  deleted := by
    rw [hexisting, hdeleted]
    exact h.deleted

theorem existing_releaseVlan (t : Trail) (port : PortId) :
    (t.releaseVlan port).pool.existing = t.pool.existing.erase port := by
  unfold Trail.releaseVlan
  split
  · rfl
  · next hnone => exact (Dict.erase_of_get?_none (by simpa using hnone)).symm

theorem existing_none_erase {port q : PortId} (h : p.existing.get? q = none) :
    (p.existing.erase port).get? q = none := by
  by_cases hq : q = port
  · rw [hq]
    exact Dict.get?_erase_self ..
  · rw [Dict.get?_erase_of_ne _ hq]
    exact h

theorem Accounted.releaseVlan (h : Accounted p t) (port : PortId) :
    Accounted p (t.releaseVlan port) where
  count := by
    intro q hq
    rw [existing_releaseVlan]
    unfold Trail.releaseVlan
    split
    · next hknown =>
      show (t.released ++ [port]).count q = _
      rw [List.count_append, h.count q hq]
      by_cases hport : q = port
      · simp [hport, hknown, Dict.get?_erase_self]
      · rw [Dict.get?_erase_of_ne _ hport]
        simp [List.count_eq_zero_of_not_mem (show q ∉ [port] by simpa using hport)]
    · next hnone =>
      rw [Dict.erase_of_get?_none (by simpa using hnone)]
      exact h.count q hq
  deleted := by
    intro q hq
    rw [existing_releaseVlan]
    refine existing_none_erase (h.deleted q ?_)
    rwa [← (foldl_releaseVlan_frame [port] t).2.2]

theorem Accounted.delete (h : Accounted p t) {ports : List PortId}
    (hports : ∀ q ∈ ports, t.pool.existing.get? q = none) :
    Accounted p { t with deleted := t.deleted ++ ports } where
  count := h.count
  deleted := fun q hq => (List.mem_append.mp hq).elim (h.deleted q) (hports q)

theorem Accounted.returnTurn (h : Accounted p t) (hnested : cfg.driver = .nested)
    (e : PortId × PoolKey) : Accounted p (returnTurn cfg r e t).1 := by
  have hturn := returnPort_turn cfg r.out (r.sgCurrent cfg) t.pool e.1 e.2
  rw [returnTurn_eq]
  generalize returnPort cfg r.out (r.sgCurrent cfg) t.pool e = flow at hturn ⊢
  generalize deletesPort cfg r.out t.pool e = deletes at hturn ⊢
  generalize releasesVlan cfg r.out t.pool e = releases at hturn ⊢
  cases hturn with
  | filed room => exact h.congr (recycle_existing ..) (List.append_nil _) (List.append_nil _)
  | deleted known full detaches =>
    have hnone : ∀ q ∈ [e.1], (t.releaseVlan e.1).pool.existing.get? q = none := by
      simp [existing_releaseVlan, Dict.get?_erase_self]
    exact ((h.releaseVlan e.1).delete hnone).congr (existing_releaseVlan ..).symm
      (by simp [Trail.releaseVlan, known]) (by simp [Trail.releaseVlan, known, hnested])
  | undeleted known full neutron hf =>
    rw [hnested] at neutron
    cases neutron
  -- the VLAN id is free, the port stays
  | detached known full nested detaches hf =>
    exact (h.releaseVlan e.1).congr (existing_releaseVlan ..).symm
      (by simp [Trail.releaseVlan, known])
      (by simp [Trail.releaseVlan, known])
  | _ => exact h.congr rfl (List.append_nil _) (List.append_nil _)

/-- The VIFs of the ports that are to be deleted are forgotten. -/
def Forgotten (s : Trail × List PortId) : Prop := ∀ q ∈ s.2, s.1.pool.existing.get? q = none

theorem foldl_releaseVlan_accounted (ports : List PortId) {t : Trail} (h : Accounted p t) :
    Accounted p (ports.foldl Trail.releaseVlan t) ∧
      (∀ q, t.pool.existing.get? q = none ∨ q ∈ ports →
        (ports.foldl Trail.releaseVlan t).pool.existing.get? q = none) := by
  induction ports generalizing t with
  | nil => exact ⟨h, fun q hq => hq.resolve_right (by simp)⟩
  | cons port ports ih =>
    obtain ⟨hacc, hnone⟩ := ih (h.releaseVlan port)
    refine ⟨hacc, fun q hq => hnone q ?_⟩
    rw [existing_releaseVlan]
    rcases hq with hq | hq
    · exact .inl (existing_none_erase hq)
    · rcases List.mem_cons.mp hq with rfl | hq
      · exact .inl (Dict.get?_erase_self ..)
      · exact .inr hq

theorem detachPool_accounted (netId : String) (a : Deletion)
    (e : PoolKey × Dict SgKey (List PortId)) {s : Trail × List PortId} (h : Accounted p s.1)
    (hforgot : Forgotten s) :
    Accounted p (detachPool netId a e s).1.1 ∧ Forgotten (detachPool netId a e s).1 := by
  obtain ⟨hacc, hnone⟩ := foldl_releaseVlan_accounted (portsIn e.2) h
  rcases detachPool_cases netId a e s with ⟨-, heq⟩ | ⟨-, -, heq⟩ | ⟨-, -, heq⟩
  · rw [heq]
    exact ⟨h, hforgot⟩
  · rw [heq]
    exact ⟨hacc.congr rfl rfl rfl, fun q hq =>
      hnone q ((List.mem_append.mp hq).imp_left (hforgot q))⟩
  · rw [heq]
    exact ⟨h, hforgot⟩

/-- **Every call of the nested driver keeps the account.** -/
theorem deleteNetworkPools_accounted (hnested : cfg.driver = .nested) (h : Accounted p t) :
    Accounted p (deleteNetworkPools cfg netId a t).1 := by
  have htrigger : Accounted p (triggered cfg a.toRecycling t).1 := by
    unfold triggered
    split
    · exact each_invariant (fun e _ _ _ ht' => ht'.returnTurn hnested e) h
    · exact h
  unfold deleteNetworkPools
  rcases ht : triggered cfg a.toRecycling t with ⟨t₁, ok⟩
  rw [ht] at htrigger
  cases ok with
  | false => exact htrigger
  | true =>
    have hstart : Accounted p (t₁, ([] : List PortId)).1 ∧ Forgotten (t₁, []) :=
      ⟨htrigger, by simp [Forgotten]⟩
    have hloop : Accounted p (each (detachPool netId a) t₁.pool.available.items (t₁, [])).1.1 ∧
        Forgotten (each (detachPool netId a) t₁.pool.available.items (t₁, [])).1 :=
      each_invariant (K := fun s => Accounted p s.1 ∧ Forgotten s)
        (fun e _ _ _ hs => detachPool_accounted netId a e hs.1 hs.2) hstart
    simp only [dropPools, hnested, detachPools]
    rcases hpools : each (detachPool netId a) t₁.pool.available.items (t₁, []) with
      ⟨⟨t₂, ports⟩, ok⟩
    rw [hpools] at hloop
    cases ok with
    | false => exact hloop.1
    | true =>
      rcases deletePorts_cases a ports t₂ with ⟨-, heq⟩ | ⟨-, some, hsome, heq⟩
      · simp only [heq]
        exact hloop.1.delete hloop.2
      · simp only [heq]
        exact hloop.1.delete fun q hq => hloop.2 q (hsome q hq)

end Vlans

/-! ## The calls -/

section Calls

variable {cfg : PoolConfig} {a : Deletion} {t : Trail} {netId : String}

/-- **A call that spares the ports keeps them**, and one that settles them and returns has
deleted them. -/
theorem deleteNetworkPools_kept (h : Spares cfg netId a t) :
    Kept netId t (deleteNetworkPools cfg netId a t).1 ∧
      (Settles cfg netId a t → (deleteNetworkPools cfg netId a t).2 = true →
        Snapshot netId [] (deleteNetworkPools cfg netId a t).1.pool.available ∧
          ∀ q, ¬ Waits (deleteNetworkPools cfg netId a t).1.pool netId q) := by
  have hkept := triggered_kept h
  have hsettles : Settles cfg netId a t → _ := triggered_settles
  unfold deleteNetworkPools
  rcases htrigger : triggered cfg a.toRecycling t with ⟨t₁, ok⟩
  rw [htrigger] at hkept hsettles
  cases ok with
  | false => exact ⟨hkept, nofun⟩
  | true =>
    have hpools : PoolsKept netId t₁ (dropPools cfg netId a t₁).1 ∧
        ((dropPools cfg netId a t₁).2 = true →
          Snapshot netId [] (dropPools cfg netId a t₁).1.pool.available) := by
      unfold dropPools
      cases hdriver : cfg.driver with
      | neutron => exact each_deletePool_kept netId a t₁
      | nested =>
        exact detachPools_kept netId a t₁ (h.detached hdriver t₁ htrigger)
          (h.deleted hdriver t₁ htrigger)
    refine ⟨hkept.trans hpools.1.kept, fun hset hok => ⟨hpools.2 hok, fun q hwaits => ?_⟩⟩
    obtain ⟨key, hin, hnet⟩ := hwaits
    exact hsettles hset rfl q ⟨key, hpools.1.1 ▸ hin, hnet⟩

/-- By induction over the calls: the ports of `p` are deleted or in sight, and the account
is kept. -/
theorem deletions_gone {p : Pool} (hvif : cfg.driver = .nested →
      ∀ q, Concerned p netId q → (p.existing.get? q).isSome) (as : List Deletion) :
    ∀ t t' : Trail, deletions cfg netId as t = (t', true) → Survives cfg netId as t →
      (∀ q, Concerned p netId q → q ∈ t.deleted ∨ Concerned t.pool netId q) →
      (cfg.driver = .nested → Accounted p t) → Gone cfg netId p t' := by
  induction as with
  | nil =>
    intro t t' hrun
    cases hrun
  | cons a as ih =>
    intro t t' hrun hsurvives hsight hacc
    rw [deletions] at hrun
    rw [Survives] at hsurvives
    obtain ⟨hkept, hdone⟩ := deleteNetworkPools_kept hsurvives.1
    have hacc' : cfg.driver = .nested → Accounted p (deleteNetworkPools cfg netId a t).1 :=
      fun hnested => deleteNetworkPools_accounted hnested (hacc hnested)
    rcases hcall : deleteNetworkPools cfg netId a t with ⟨t₁, ok⟩
    rw [hcall] at hrun hsurvives hkept hdone hacc'
    have hsight' := fun q hq => hkept q (hsight q hq)
    cases ok with
    -- the next call starts from what this one has left in sight
    | false => exact ih t₁ t' hrun hsurvives.2 hsight' hacc'
    | true =>
      have ht : t₁ = t' := congrArg Prod.fst hrun
      subst ht
      obtain ⟨hsnap, hwaits⟩ := hdone hsurvives.2 rfl
      have hdeleted : ∀ q, Concerned p netId q → q ∈ t₁.deleted := by
        intro q hq
        refine (hsight' q hq).resolve_right fun hin => ?_
        exact hin.elim (fun hin => hsnap.nil_filedFor q (inPools_iff.mp hin)) (hwaits q)
      refine ⟨fun key hkey hnet => ?_, hdeleted, fun hnested q hq => ?_⟩
      · simpa using hsnap.complete key hkey hnet
      · rw [(hacc' hnested).count q (hvif hnested q hq), (hacc' hnested).deleted q (hdeleted q hq)]
        rfl

end Calls

/-- **Deleting the pools of a network survives retries** in every run of calls that spare the
ports, if the nested driver knows the VIFs of the ports. -/
theorem delete_network_pools_retried (cfg : PoolConfig) (netId : String) (p : Pool)
    (calls : List Deletion) (t : Trail)
    (hreturns : deletions cfg netId calls (.start p) = (t, true))
    (hvif : cfg.driver = .nested → ∀ q, Concerned p netId q → (p.existing.get? q).isSome)
    (hsurvives : Survives cfg netId calls (.start p)) : Gone cfg netId p t :=
  deletions_gone hvif calls (.start p) t hreturns hsurvives (fun _ hq => .inr hq)
    fun _ => .start p

def netKey : PoolKey := ⟨"node", "project", "net"⟩

/-- A pool with one port. -/
def onePool : Pool :=
  { Pool.empty.addExisting ⟨"port-1", "net"⟩ with
    available := push Dict.empty netKey (some []) "port-1" }

/-- Every request succeeds. -/
def goesWell : Deletion where
  recovered := true
  listing := true
  listed := fun _ => true
  neutronSgs := fun _ => []
  out := ⟨fun _ => true, fun _ => true, fun _ => true, fun _ => true⟩
  trunk := fun _ => true
  removed := fun _ => true
  deleted := fun _ => true
  started := fun _ => true

def nestedPools : PoolConfig := ⟨.nested, false, 0⟩

/-- The subports cannot be removed at first. -/
def heldUp : Deletion := { goesWell with removed := fun _ => false }

theorem heldUp_raises :
    deleteNetworkPools nestedPools "net" heldUp (.start onePool) = (.start onePool, false) := by
  rfl

/-- A call that has no port to recycle, and whose deletions succeed, spares the ports of one
pool. -/
theorem onePool_spares {a : Deletion} (hdeleted : ∀ q, a.deleted q = true) :
    Spares nestedPools "net" a (.start onePool) where
  known := by
    intro _ e rest t' hr
    exact (not_iterates_nil hr).elim
  detached := by
    intro _ t' ht e rest s hr hnet hanswer
    have hpool : t' = .start onePool := by
      unfold triggered at ht
      split at ht
      · exact (congrArg Prod.fst ht).symm
      · cases ht
    subst hpool
    exact congrArg Prod.snd (iterates_singleton hr)
  deleted := fun _ _ _ _ _ q _ => hdeleted q

theorem heldUp_survives : Survives nestedPools "net" [heldUp, goesWell] (.start onePool) := by
  refine ⟨onePool_spares fun _ => rfl, ?_⟩
  rw [heldUp_raises]
  refine ⟨onePool_spares fun _ => rfl, ?_⟩
  have hreturns : (deleteNetworkPools nestedPools "net" goesWell (.start onePool)).2 = true := by
    decide +kernel
  split
  · exact fun e rest t' hr => (not_iterates_nil hr).elim
  · next hcall =>
    rw [hcall] at hreturns
    cases hreturns

theorem onePool_vif (q : PortId) (h : Concerned onePool "net" q) :
    (onePool.existing.get? q).isSome := by
  have hfiled : entries onePool.available = [(netKey, some [], "port-1")] := by decide +kernel
  rcases h with ⟨key, sg, hin, -⟩ | ⟨key, hin, -⟩
  · rw [hfiled, List.mem_singleton] at hin
    cases hin
    decide +kernel
  · cases hin

theorem delete_network_pools_retried_heldUp :
    (deletions nestedPools "net" [heldUp, goesWell] (.start onePool)).2 = true ∧
      Gone nestedPools "net" onePool
        (deletions nestedPools "net" [heldUp, goesWell] (.start onePool)).1 := by
  have hreturns : (deletions nestedPools "net" [heldUp, goesWell] (.start onePool)).2 = true := by
    decide +kernel
  exact ⟨hreturns, delete_network_pools_retried nestedPools "net" onePool [heldUp, goesWell] _
    (Prod.ext rfl hreturns) (fun _ => onePool_vif) heldUp_survives⟩

/-- The deletion of the ports fails in the first call. -/
def undeleted : Deletion := { goesWell with deleted := fun _ => false }

/-- A pool that may have one port has it, and another port waits. -/
def fullPool : Pool :=
  { onePool.addExisting ⟨"port-2", "net"⟩ with recyclable := Dict.empty.set "port-2" netKey }

def neutronPools : PoolConfig := ⟨.neutron, false, 1⟩

/-- The deletion of the port that waits fails in the first call. -/
def undeletedWaiting : Deletion :=
  { goesWell with out := ⟨fun _ => true, fun _ => true, fun _ => true, fun _ => false⟩ }

/-- The second call returns, and the port whose deletion failed is still in Neutron: with
the nested driver a port of the pool, with the Neutron driver a port that waited. -/
theorem delete_network_pools_forgets_port :
    ((deletions nestedPools "net" [undeleted, goesWell] (.start onePool)).2 = true ∧
      ¬ Gone nestedPools "net" onePool
        (deletions nestedPools "net" [undeleted, goesWell] (.start onePool)).1) ∧
    ((deletions neutronPools "net" [undeletedWaiting, goesWell] (.start fullPool)).2 = true ∧
      ¬ Gone neutronPools "net" fullPool
        (deletions neutronPools "net" [undeletedWaiting, goesWell] (.start fullPool)).1) := by
  refine ⟨⟨by decide +kernel, fun h => ?_⟩, ⟨by decide +kernel, fun h => ?_⟩⟩
  · have hport : Concerned onePool "net" "port-1" :=
      .inl ⟨netKey, some [], by decide +kernel, rfl⟩
    exact absurd (h.ports "port-1" hport) (by decide +kernel)
  · have hport : Concerned fullPool "net" "port-2" := .inr ⟨netKey, by decide +kernel, rfl⟩
    exact absurd (h.ports "port-2" hport) (by decide +kernel)

end NetworkDeletion

end KuryrKubernetes
