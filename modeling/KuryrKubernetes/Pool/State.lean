import Mathlib.Data.List.Sort
import Mathlib.Order.Lattice
import KuryrKubernetes.Lib.Buckets
import KuryrKubernetes.Lib.Transition

/-!
# The VIF pools

`NeutronVIFPool` and `NestedVIFPool` (`controller/drivers/vif_pool.py`): the three
dictionaries, the operations on them, and the system of pods, KuryrPorts and
Neutron ports they are part of.

- `Pool`: `_available_ports_pools`, `_existing_vifs`, `_recyclable_ports`.
- `getPortFromPool`, `populatePool`, `releaseVif`, `triggerReturnToPool`,
  `removeSgFromPools`, `deleteNetworkPools`, `syncPools`: one definition per method.
  Where a request to Neutron may fail, its outcome is an argument.
- `World`, `Action`, `World.step`: pods receive ports, KuryrPorts are finalized (and
  finalized again, as long as their finalizers are there), handlers change security
  groups.

A `defaultdict` creates a missing key on access; `row` reads it as empty.
-/

namespace KuryrKubernetes

open Dicts Transition

/-! ## Data -/

/-- Neutron port ids. -/
abbrev PortId := String

/-- A pool key: host, project, network. -/
structure PoolKey where
  host : String
  project : String
  net : String
deriving DecidableEq, Repr

/-- A VIF object. -/
structure Vif where
  id : PortId
  network : String
deriving DecidableEq, Repr

/-- The key of a port list within a pool: a tuple of security groups, or `None`. -/
abbrev SgKey := Option (List String)

/-- `tuple(sorted(l))`. -/
def sorted (l : List String) : List String := l.insertionSort (· ≤ ·)

/-- The dictionaries of a pool driver. A VIF is filed under its own id. -/
structure Pool where
  available : Buckets PoolKey SgKey PortId
  existing : Dict PortId Vif
  recyclable : Dict PortId PoolKey
  existing_id : ∀ e ∈ existing.items, e.2.id = e.1

/-- The two pool drivers. -/
inductive PoolDriver where
  | neutron | nested
deriving DecidableEq, Repr

/-- The configuration the pools read. -/
structure PoolConfig where
  driver : PoolDriver
  portDebug : Bool
  portsPoolMax : Nat

/-- `_existing_vifs[vif.id] = vif`. -/
def Pool.addExisting (p : Pool) (vif : Vif) : Pool :=
  { p with
    existing := p.existing.set vif.id vif
    existing_id := by
      intro e he
      rcases Dict.mem_items_upsert.mp he with rfl | ⟨he, -⟩
      · rfl
      · exact p.existing_id e he }

/-- `del _existing_vifs[port_id]`, if it is there. -/
def Pool.dropExisting (p : Pool) (port : PortId) : Pool :=
  { p with
    existing := p.existing.erase port
    existing_id := fun e he => p.existing_id e (Dict.mem_items_erase.mp he).1 }

/-- `_get_pool_size` (vif_pool.py:181–186). -/
def Pool.size (p : Pool) (key : PoolKey) : Nat := (rows (row p.available key)).length

/-! ## Serving a port -/

/-- The port `_get_port_from_pool` takes, and the pools without it
(vif_pool.py:234–255). `true` when the port comes from another group and needs its
security groups updated. -/
def takePort (b : Buckets PoolKey SgKey PortId) (key : PoolKey) (sgs : List String) :
    Option (PortId × Bool × Buckets PoolKey SgKey PortId) :=
  match popLast (row b key) (some sgs) with
  | some (port, d) => some (port, false, b.set key d)
  | none => (popAny (row b key)).map fun (_, port, d) => (port, true, b.set key d)

/-- The answer of `_get_port_from_pool`. -/
inductive Answer where
  | notReady
  | vif (v : Vif)
deriving DecidableEq, Repr

/-- `_get_port_from_pool` (vif_pool.py:234–268), without the `_populate_pool` it
spawns. A port whose VIF is not known is lost. -/
def getPortFromPool (p : Pool) (key : PoolKey) (sgs : List String) :
    Pool × Option (PortId × Bool) × Answer :=
  match takePort p.available key sgs with
  | none => ({ p with available := p.available.set key (row p.available key) }, none, .notReady)
  | some (port, updated, available) =>
    ({ p with available := available }, some (port, updated),
      match p.existing.get? port with
      | some v => .vif v
      | none => .notReady)

/-- `_populate_pool` with the VIFs the driver created (vif_pool.py:300–308). -/
def populatePool (p : Pool) (key : PoolKey) (sgs : List String) (vifs : List Vif) : Pool :=
  let p := vifs.foldl (fun p v =>
    { p.addExisting v with available := push p.available key (some sgs) v.id }) p
  match (row p.available key).moveToEnd (some sgs) with
  | some d => if vifs = [] then p else { p with available := p.available.set key d }
  | none => p

/-! ## Recycling -/

/-- `release_vif` (vif_pool.py:318–334). -/
def releaseVif (p : Pool) (host project : String) (vif : Vif) : Pool :=
  let p := if (p.existing.get? vif.id).isSome then p else p.addExisting vif
  { p with recyclable := p.recyclable.set vif.id ⟨host, project, vif.network⟩ }

/-- The outcomes of the requests `_trigger_return_to_pool` makes for a port. -/
structure Outcome where
  /-- `update_port(name=…)`. -/
  renamed : PortId → Bool
  /-- `_get_trunk_id`. -/
  trunk : PoolKey → Bool
  /-- `_remove_subport`. -/
  detached : PortId → Bool
  /-- `delete_port`. -/
  deleted : PortId → Bool

/-- What an iteration of the loop ends with: the next port, or an exception. -/
inductive Flow where
  | next (p : Pool)
  | raised (p : Pool)

/-- `del _recyclable_ports[port_id]`. -/
def Pool.dropRecyclable (p : Pool) (port : PortId) : Pool :=
  { p with recyclable := p.recyclable.erase port }

/-- A port goes back to its pool (vif_pool.py:690–707, 862–878). -/
def recycle (p : Pool) (port : PortId) (key : PoolKey) (sg : SgKey) : Pool :=
  let b := push p.available key sg port
  -- move it to the end of the ports to update the SG
  match (row b key).moveToEnd sg with
  | some d => { p with available := b.set key d }
  | none => { p with available := b }

/-- One iteration of `_trigger_return_to_pool` (vif_pool.py:690–721, 862–895). -/
def returnPort (cfg : PoolConfig) (out : Outcome) (sgCurrent : PortId → SgKey) (p : Pool)
    (e : PortId × PoolKey) : Flow :=
  let (port, key) := e
  if cfg.portsPoolMax = 0 ∨ p.size key < cfg.portsPoolMax then
    if cfg.portDebug ∧ ¬ out.renamed port then .next p
    else .next ((recycle p port key (sgCurrent port)).dropRecyclable port)
  else
    match cfg.driver with
    | .neutron =>
      if (p.existing.get? port).isNone then .next (p.dropRecyclable port)
      else if out.deleted port then .next ((p.dropExisting port).dropRecyclable port)
      else .raised (p.dropExisting port)
    | .nested =>
      if ¬ out.trunk key then .raised p
      else if ¬ out.detached port then .next p
      else if (p.existing.get? port).isNone then .next (p.dropRecyclable port)
      else if out.deleted port then .next ((p.dropExisting port).dropRecyclable port)
      else .next (p.dropExisting port)

/-- The loop of `_trigger_return_to_pool`. -/
def returnPorts (cfg : PoolConfig) (out : Outcome) (sgCurrent : PortId → SgKey) :
    Pool → List (PortId × PoolKey) → Flow
  | p, [] => .next p
  | p, e :: rest =>
    match returnPort cfg out sgCurrent p e with
    | .next p => returnPorts cfg out sgCurrent p rest
    | .raised p => .raised p

/-- `_trigger_return_to_pool` (vif_pool.py:672–721, 843–895). The security groups
are read for the ports Neutron lists, and not at all with `port_debug`. -/
def triggerReturnToPool (cfg : PoolConfig) (out : Outcome) (listed : PortId → Bool)
    (neutronSgs : PortId → List String) (p : Pool) : Flow :=
  let sgCurrent := fun port =>
    if ¬ cfg.portDebug ∧ listed port then some (sorted (neutronSgs port)) else none
  returnPorts cfg out sgCurrent p p.recyclable.items

/-- The pool a run of the loop leaves. -/
def Flow.pool : Flow → Pool
  | .next p | .raised p => p

/-! ## Removing security groups and networks -/

/-- The ports of one group move to the group without security groups
(vif_pool.py:378–394); the ports so moved are updated in Neutron. -/
def clearGroup (b : Buckets PoolKey SgKey PortId) (key : PoolKey) (sg : SgKey)
    (ports : List PortId) :
    Option (Buckets PoolKey SgKey PortId) × Buckets PoolKey SgKey PortId :=
  let b := b.set key ((row b key).erase sg)
  let b := ports.foldl (fun b port => push b key (some []) port) b
  (((row b key).moveToFront (some [])).map fun d => b.set key d, b)

/-- The loop over the groups of one pool. `None` as a group raises a `TypeError`,
moving a group that does not exist a `KeyError`; `false` is returned then. The
third component collects the ports updated in Neutron. -/
def clearGroups (sgId : String) (key : PoolKey) :
    List (SgKey × List PortId) → Buckets PoolKey SgKey PortId →
      Bool × Buckets PoolKey SgKey PortId × List PortId
  | [], b => (true, b, [])
  | (none, _) :: _, b => (false, b, [])
  | (some sgs, ports) :: rest, b =>
    if sgId ∉ sgs then clearGroups sgId key rest b
    else
      match clearGroup b key (some sgs) ports with
      | (some b, _) =>
        let (ok, b, cleared) := clearGroups sgId key rest b
        (ok, b, ports ++ cleared)
      | (none, b) => (false, b, ports)

/-- The loop over the pools of the network. -/
def clearPools (sgId netId : String) :
    List (PoolKey × Dict SgKey (List PortId)) → Buckets PoolKey SgKey PortId →
      Buckets PoolKey SgKey PortId × List PortId
  | [], b => (b, [])
  | (key, d) :: rest, b =>
    if key.net ≠ netId then clearPools sgId netId rest b
    else
      match clearGroups sgId key d.items b with
      | (true, b, cleared) =>
        let (b, more) := clearPools sgId netId rest b
        (b, cleared ++ more)
      | (false, b, cleared) => (b, cleared)

/-- `remove_sg_from_pools` (vif_pool.py:365–394), with the ports whose security
groups were removed in Neutron. -/
def removeSgFromPools (p : Pool) (sgId netId : String) : Pool × List PortId :=
  let (b, cleared) := clearPools sgId netId p.available.items p.available
  ({ p with available := b }, cleared)

/-- The loop of `delete_network_pools` over the pools (vif_pool.py:789–811,
1122–1156); `removed` says whether the ports of a pool could be removed. Both
drivers forget the VIFs of a pool, the Neutron driver before it deletes the ports,
the nested one after it detached them. -/
def deletePools (cfg : PoolConfig) (netId : String) (removed : PoolKey → Bool) :
    List (PoolKey × Dict SgKey (List PortId)) → Pool → Pool
  | [], p => p
  | (key, d) :: rest, p =>
    if key.net ≠ netId then deletePools cfg netId removed rest p
    else
      let forget := (rows d).foldl (fun p e => p.dropExisting e.2) p
      if removed key then
        deletePools cfg netId removed rest { forget with available := forget.available.erase key }
      else
        match cfg.driver with
        | .neutron => forget
        | .nested => p

/-- `delete_network_pools` (vif_pool.py:773–811, 1103–1168). -/
def deleteNetworkPools (cfg : PoolConfig) (out : Outcome) (listed : PortId → Bool)
    (removed : PoolKey → Bool) (neutronSgs : PortId → List String) (netId : String) (p : Pool) :
    Pool :=
  match triggerReturnToPool cfg out listed neutronSgs p with
  | .raised p => p
  | .next p => deletePools cfg netId removed p.available.items p

/-! ## Recovery -/

/-- Who owns a Neutron port. -/
inductive DeviceOwner where
  | kuryr | subport | other
deriving DecidableEq, Repr

/-- A Neutron port as the recovery reads it. `tagged` holds for every port when no
resource tags are configured; `trunk` are the subports of a parent port. -/
structure NeutronPort where
  id : PortId
  owner : DeviceOwner
  tagged : Bool
  active : Bool
  bound : Bool
  name : String
  ip : String
  host : String
  project : String
  network : String
  sgs : List String
  trunk : Option (List PortId)
deriving DecidableEq, Repr

/-- The ports of Neutron: ids are unique, and a port is in one trunk at most. -/
structure NeutronPorts where
  ports : List NeutronPort
  nodup : (ports.map NeutronPort.id).Nodup
  trunks_nodup : ((ports.filterMap NeutronPort.trunk).flatten).Nodup

/-- `KURYR_PORT_NAME`. -/
def kuryrPortName : String := "kuryr-pool-port"

/-- The `available_subports` of `_get_trunks_info` (vif_pool.py:424–491). -/
def availableSubports (n : NeutronPorts) (inUse : List PortId) : List NeutronPort :=
  n.ports.filter fun port =>
    port.active && port.tagged && port.trunk.isNone && !inUse.contains port.id &&
      port.owner ≠ .other

/-- A recovered port is filed under its current security groups. -/
def recover (key : PoolKey) (p : Pool) (port : NeutronPort) : Pool :=
  { p.addExisting ⟨port.id, port.network⟩ with
    available := push p.available key (some (sorted port.sgs)) port.id }

/-- The empty dictionaries of `BaseVIFPool.sync_pools` (vif_pool.py:407–422). -/
def Pool.empty : Pool := ⟨Dict.empty, Dict.empty, Dict.empty, fun _ h => absurd h (by simp)⟩

/-- The ports `NeutronVIFPool._recover_precreated_ports` recovers
(vif_pool.py:731–771). -/
def neutronRecoverable (cfg : PoolConfig) (n : NeutronPorts) (inUse : List PortId) :
    List NeutronPort :=
  n.ports.filter fun port =>
    port.owner = .kuryr && port.tagged &&
    (if cfg.portDebug then port.name = kuryrPortName else !inUse.contains port.id) &&
    !((availableSubports n inUse).map NeutronPort.id).contains port.id && port.bound

/-- The subports `NestedVIFPool._precreated_ports` recovers, with the address of
their parent (vif_pool.py:921–985). -/
def nestedRecoverable (n : NeutronPorts) (inUse : List PortId) : List (String × NeutronPort) :=
  (n.ports.filter fun parent => parent.active && parent.tagged).flatMap fun parent =>
    (parent.trunk.getD []).filterMap fun id =>
      ((availableSubports n inUse).find? (·.id = id)).map (parent.ip, ·)

/-- The ports a driver recovers, each with the key of its pool. -/
def recovered (cfg : PoolConfig) (n : NeutronPorts) (inUse : List PortId) :
    List (PoolKey × NeutronPort) :=
  match cfg.driver with
  | .neutron => (neutronRecoverable cfg n inUse).map fun port =>
      (⟨port.host, port.project, port.network⟩, port)
  | .nested => (nestedRecoverable n inUse).map fun e =>
      (⟨e.1, e.2.project, e.2.network⟩, e.2)

/-- `sync_pools` of either driver (vif_pool.py:723–729, 905–912). -/
def syncPools (cfg : PoolConfig) (n : NeutronPorts) (inUse : List PortId) : Pool :=
  (recovered cfg n inUse).foldl (fun p e => recover e.1 p e.2) Pool.empty

end KuryrKubernetes
