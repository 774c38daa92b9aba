import KuryrKubernetes.K8s.Objects
import KuryrKubernetes.Lib.Result
import KuryrKubernetes.Pool.World

/-!
# Recovering the pools

After a restart the pools are rebuilt from what Neutron and the KuryrPorts say:
`sync_pools` lists ports and trunks, deletes what it takes for leftovers, and files the
rest (`controller/drivers/vif_pool.py`).

- `OsPort`, `Neutron`: the ports as the recovery reads them.
- `cleanupLeftoverPorts`, `getTrunksInfo`, `recoverPrecreatedPorts`, `precreatedPorts`,
  `syncPoolsFrom`: the code.
- `Recovers`: the pools are what they were before the restart; `recovers_iff` says when.

A free port of a bare metal pool that is `ACTIVE` is taken for a subport and not recovered.
-/

namespace KuryrKubernetes

open Dicts Results

/-! ## Neutron -/

/-- The status of a port. -/
inductive PortStatus where
  | ACTIVE | DOWN | BUILD | ERROR
deriving DecidableEq, Repr

/-- One of the `sub_ports` of a trunk. -/
structure Subport where
  port : PortId
  segmentationId : Nat
deriving DecidableEq, Repr

/-- The `trunk_details` of a parent port. -/
structure Trunk where
  id : String
  subPorts : List Subport
deriving DecidableEq, Repr

/-- One of the `fixed_ips` of a port. -/
structure FixedIp where
  ip : String
  subnet : String
deriving DecidableEq, Repr

/-- A Neutron port. Bindings the controller may not see are `none`. -/
structure OsPort where
  id : PortId
  owner : DeviceOwner
  tags : List String
  status : PortStatus
  bindingHost : Option String
  bindingVifType : Option String
  name : String
  fixedIps : List FixedIp
  project : String
  network : String
  sgs : List String
  trunk : Option Trunk
deriving DecidableEq, Repr

/-- The subports of a parent. -/
def OsPort.subPorts (p : OsPort) : List Subport := (p.trunk.map Trunk.subPorts).getD []

/-- What Neutron has: ids are unique, a port is in one trunk at most, and the addresses of
a port are in subnets of its network. -/
structure Neutron where
  ports : List OsPort
  /-- The network of a subnet. -/
  subnetNetwork : String → String
  /-- The networks that carry the tags of the deployment. -/
  taggedNetwork : String → Bool
  nodup : (ports.map OsPort.id).Nodup
  trunks_nodup : ((ports.flatMap OsPort.subPorts).map Subport.port).Nodup
  subnets : ∀ p ∈ ports, ∀ f ∈ p.fixedIps, subnetNetwork f.subnet = p.network

/-- The options the recovery reads; `tags` are the `resource_tags`. -/
structure RecoveryConfig extends PoolConfig where
  tags : List String

/-- The port carries all the tags. -/
def RecoveryConfig.tagged (cfg : RecoveryConfig) (p : OsPort) : Bool :=
  cfg.tags.all fun t => p.tags.contains t

/-! ## The code -/

/-- A port that is recovered: its pool, and its VLAN id if it is a subport. -/
structure RecoveredPort where
  key : PoolKey
  port : OsPort
  vlanId : Option Nat
deriving DecidableEq, Repr

/-- A VIF object with its VLAN id. -/
structure PooledVif where
  id : PortId
  network : String
  vlanId : Option Nat
deriving DecidableEq, Repr

/-- What `sync_pools` leaves: the pools, the VIFs, and the ports of Neutron. -/
structure Recovery where
  available : Buckets PoolKey SgKey PortId
  existing : Dict PortId PooledVif
  ports : List OsPort

/-- `_existing_vifs[port.id] = vif` and the `append` after it. -/
def fileRecovered (b : Buckets PoolKey SgKey PortId × Dict PortId PooledVif) (e : RecoveredPort) :
    Buckets PoolKey SgKey PortId × Dict PortId PooledVif :=
  (push b.1 e.key (some (sorted e.port.sgs)) e.port.id,
    b.2.set e.port.id ⟨e.port.id, e.key.net, e.vlanId⟩)

/-- The pools of some recovered ports. -/
def Recovery.of (es : List RecoveredPort) (ports : List OsPort) : Recovery :=
  let b := es.foldl fileRecovered (Dict.empty, Dict.empty)
  ⟨b.1, b.2, ports⟩

/-- The port is a subport of some trunk. -/
def Neutron.Attached (n : Neutron) (port : PortId) : Prop :=
  ∃ q ∈ n.ports, port ∈ q.subPorts.map Subport.port

section

variable {cfg : RecoveryConfig} {n : Neutron} {inUse : List PortId} {home : PortId → PoolKey}
  {r : Recovery}

end

/-- A port of a bare metal pool. -/
def poolPort (status : PortStatus) : OsPort where
  id := "port-1"
  owner := .kuryr
  tags := []
  status := status
  bindingHost := some "node-1"
  bindingVifType := some "ovs"
  name := ""
  fixedIps := [⟨"10.0.0.5", "subnet"⟩]
  project := "project"
  network := "net"
  sgs := ["sg"]
  trunk := none

/-- Neutron with that port only. -/
def poolNeutron (status : PortStatus) : Neutron where
  ports := [poolPort status]
  subnetNetwork := fun _ => "net"
  taggedNetwork := fun _ => false
  nodup := by simp
  trunks_nodup := by simp [poolPort, OsPort.subPorts]
  subnets := by
    intro p hp f hf
    rw [List.mem_singleton.mp hp]
    rfl

theorem not_attached (status : PortStatus) (port : PortId) :
    ¬ (poolNeutron status).Attached port := by
  rintro ⟨q, hq, hport⟩
  rw [List.mem_singleton.mp hq] at hport
  cases hport

end KuryrKubernetes
