import Mathlib.Data.List.Sort
import KuryrKubernetes.Lib.Effect
import KuryrKubernetes.K8s.Objects

/-!
# The load balancer handler

`KuryrLoadBalancerHandler` reconciles the load balancer of a Service with the
spec of its KuryrLoadBalancer object. It works on the object it was handed and
writes the object's status back after every change, key by key.

- The object: `Crd`, with `Spec` and `Status`. A key of the status that may be
  missing is an `Option`; `status.get('members', [])` is `Status.memberList`.
- The world: `World`, the object in memory, the status stored in the API, and a
  log with one entry for each call that left the handler.
- `Env`: what the rest of the world answers. Every answer may depend on the whole
  world, log included, so a fixed `Env` is one behaviour of the driver and of the
  API, failures and all, and "for every `Env`" is "whatever fails and whenever".

Events, log lines and waiting are left out: they touch neither status.
-/

namespace KuryrKubernetes

namespace LoadBalancer

open Effect

/-! ## The object -/

/-- Port names are DNS labels, so never the empty string. -/
abbrev PortName := { s : String // s ≠ "" }

/-- `status['loadbalancer']`. -/
structure Balancer where
  id : String
  ip : String
  provider : Option String
  subnetId : Option String
  portId : String
  securityGroups : Option (List String)
deriving DecidableEq, Repr

/-- An item of `status['listeners']`; a missing timeout reads as 0. -/
structure Listener where
  id : String
  protocol : Protocol
  port : Nat
  timeoutClientData : Nat
  timeoutMemberData : Nat
deriving DecidableEq, Repr

/-- An item of `status['pools']`. -/
structure Pool where
  id : String
  listenerId : String
deriving DecidableEq, Repr

/-- Member names are put together as `NAMESPACE/NAME:PORT`. None of the parts
contains a separator, so the parts are kept apart here. -/
structure MemberName where
  targetNamespace : String
  targetName : String
  port : Nat
deriving DecidableEq, Repr

/-- An item of `status['members']`. -/
structure Member where
  id : String
  name : MemberName
  ip : String
  port : Nat
  poolId : String
deriving DecidableEq, Repr

/-- `status['service_pub_ip_info']`. -/
structure PubIpInfo where
  ipId : String
  ipAddr : String
  allocMethod : String
deriving DecidableEq, Repr

/-- The status; `none` is a missing key. -/
structure Status where
  loadbalancer : Option Balancer := none
  listeners : Option (List Listener) := none
  pools : Option (List Pool) := none
  members : Option (List Member) := none
  servicePubIpInfo : Option PubIpInfo := none
deriving DecidableEq, Repr

namespace Status

def listenerList (st : Status) : List Listener := st.listeners.getD []

def poolList (st : Status) : List Pool := st.pools.getD []

def memberList (st : Status) : List Member := st.members.getD []

/-- The keys `new` lists are created or overwritten, the others stay. -/
def overlay (old new : Status) : Status where
  loadbalancer := new.loadbalancer.or old.loadbalancer
  listeners := new.listeners.or old.listeners
  pools := new.pools.or old.pools
  members := new.members.or old.members
  servicePubIpInfo := new.servicePubIpInfo.or old.servicePubIpInfo

/-- `patch_crd('status', ..., data)` on the stored status: one operation for each
key of `data`, or one that replaces the whole status if `data` is empty. -/
def patched (stored data : Status) : Status :=
  if data = {} then {} else stored.overlay data

/-- `lb['security_groups'] = sgs`, or a patch of that key. -/
def setSecurityGroups (sgs : List String) (st : Status) : Status :=
  { st with loadbalancer := st.loadbalancer.map fun lb => { lb with securityGroups := some sgs } }

end Status

/-- An item of `spec['ports']`. The key `name` may be missing (`none`) or null
(`some none`). -/
structure SpecPort where
  name : Option (Option PortName)
  protocol : Protocol
  port : Nat
deriving DecidableEq, Repr

/-- `targetRef` of an endpoint, if not empty. -/
structure TargetRef where
  targetNamespace : Option String
  name : Option String
deriving DecidableEq, Repr

/-- An endpoint with the first of its addresses. -/
structure Endpoint where
  address : String
  targetRef : Option TargetRef
deriving DecidableEq, Repr

/-- A port of an endpoint slice. -/
structure SlicePort where
  name : Option PortName
  port : Nat
deriving DecidableEq, Repr

/-- An item of `spec['endpointSlices']`. -/
structure Slice where
  endpoints : List Endpoint
  ports : List SlicePort
deriving DecidableEq, Repr

/-- The spec; a missing list reads as the empty one and a missing timeout as 0. -/
structure Spec where
  ports : List SpecPort
  ip : Option String
  provider : Option String
  type : Option String
  subnetId : Option String
  securityGroupsIds : Option (List String)
  timeoutClientData : Nat
  timeoutMemberData : Nat
  endpointSlices : List Slice
deriving DecidableEq, Repr

/-- The object in memory. -/
structure Crd where
  ns : String
  name : String
  spec : Spec
  status : Status
deriving DecidableEq, Repr

/-! ## The world -/

/-- Resources of the load balancer service. -/
inductive Resource where
  | loadbalancer | listener | pool | member
deriving DecidableEq, Repr

/-- Calls that leave the handler. `patchStatus` carries what `_patch_status`
returned. -/
inductive Call where
  | ensure (r : Resource)
  | release (r : Resource)
  | patchStatus (applied : Bool)
  | patchSecurityGroups (applied : Bool)
  | resetStatus
  | publicIp
  | read
deriving DecidableEq, Repr

/-- A call, with the stored status and the one in memory right after it. -/
structure Entry where
  call : Call
  stored : Status
  status : Status
deriving DecidableEq, Repr

structure World where
  crd : Crd
  stored : Status
  log : List Entry
deriving DecidableEq, Repr

/-- The world with another status in memory. -/
def World.withStatus (w : World) (st : Status) : World :=
  { w with crd := { w.crd with status := st } }

/-- The world after a call, with the status stored then. -/
def World.record (w : World) (c : Call) (stored : Status) : World :=
  { w with stored := stored, log := w.log ++ [⟨c, stored, w.crd.status⟩] }

/-- How a run of the handler ends early. `listenerLookup` is the `KeyError` of
`lsnr_by_id[...]`, `keyError` that of another missing key. -/
inductive Fault where
  | listenerLookup
  | keyError (key : String)
  | typeError
  | raised
deriving DecidableEq, Repr

/-- Programs of the handler. -/
abbrev Handler := EStateM Fault World

/-- The answer of a call; `none` if it raised. Driver calls that find the load
balancer gone empty the stored status (`clean_lb_crd_status`) before they return
or raise. -/
structure Reply (α : Type) where
  cleaned : Bool
  outcome : Option α

/-- The answer of the API to a patch: done, refused (`404` or `422`), or failed in
another way. -/
inductive PatchReply where
  | applied | refused | failed
deriving DecidableEq, Repr

/-- What the driver reports of a listener it created or found. -/
structure ListenerReply where
  id : String
  timeoutClientData : Nat
  timeoutMemberData : Nat
  clearsSecurityGroups : Bool

/-- What the driver reports of a load balancer it created or found. -/
structure BalancerReply where
  id : String
  portId : String
  provider : Option String

/-- The driver, the API and the configuration. -/
structure Env where
  doubleListenersSupported : Bool
  sctpSupported : Bool
  l2MemberMode : Bool
  patchCrd : World → PatchReply
  cleanLbCrdStatus : World → Reply Unit
  ensureLoadbalancer : World → Reply BalancerReply
  releaseLoadbalancer : World → Balancer → Reply Unit
  ensureListener : World → Balancer → SpecPort → Reply (Option ListenerReply)
  releaseListener : World → Balancer → Listener → Reply Unit
  ensurePool : World → Balancer → Listener → Reply (Option String)
  releasePool : World → Balancer → Pool → Reply Unit
  ensureMember : World → Balancer → Pool → MemberName → (ip subnet : String) →
    Reply (Option String)
  releaseMember : World → Balancer → Member → Reply Unit
  /-- The security groups of the Service, `none` if the Service is gone. -/
  serviceSecurityGroups : World → Reply (Option (List String))
  getPodByIp : World → String → Option String → Reply (Option String)
  nodesSubnet : World → String → Reply (Option String)
  podSubnet : World → String → String → Reply (Option String)
  disassociatePubIp : World → PubIpInfo → Reply Unit
  releasePubIp : World → PubIpInfo → Reply Unit
  acquireServicePubIpInfo : World → Balancer → Reply (Option PubIpInfo)
  associatePubIp : World → PubIpInfo → Reply Unit
  updateLbStatus : World → PubIpInfo → Reply Unit

/-- A call to the driver or a read from the API. -/
def call {α : Type} (c : Call) (reply : World → Reply α) : Handler α := fun w =>
  let w' := w.record c (if (reply w).cleaned then {} else w.stored)
  match (reply w).outcome with
  | some a => .ok a w'
  | none => .error .raised w'

/-- `loadbalancer_crd['status']`. -/
def getStatus : Handler Status := return (← get).crd.status

/-- An assignment below `loadbalancer_crd['status']`. -/
def updateStatus (f : Status → Status) : Handler Unit :=
  modify fun w => w.withStatus (f w.crd.status)

/-- `loadbalancer_crd['status']['loadbalancer']`. -/
def theBalancer : Handler Balancer := do
  match (← getStatus).loadbalancer with
  | some lb => return lb
  | none => throw (.keyError "loadbalancer")

section Pass

variable (env : Env)

/-- `_patch_status`. -/
def patchStatus : Handler Bool := fun w =>
  match env.patchCrd w with
  | .applied => .ok true (w.record (.patchStatus true) (w.stored.patched w.crd.status))
  | .refused => .ok false (w.record (.patchStatus false) w.stored)
  | .failed => .error .raised (w.record (.patchStatus false) w.stored)

/-- `patch_crd('status/loadbalancer', ..., {'security_groups': sgs})`. The API
refuses it if the stored status has no load balancer. -/
def patchSecurityGroups (sgs : List String) : Handler Bool := fun w =>
  let refused := w.record (.patchSecurityGroups false) w.stored
  match env.patchCrd w with
  | .applied =>
    if w.stored.loadbalancer.isSome then
      .ok true (w.record (.patchSecurityGroups true) (w.stored.setSecurityGroups sgs))
    else
      .ok false refused
  | .refused => .ok false refused
  | .failed => .error .raised refused

/-! ## Removal -/

/-- The place in the spec of the port a listener serves. -/
def portOf (ports : List SpecPort) (l : Listener) : Option Nat :=
  ports.findIdx? fun p => p.port = l.port ∧ p.protocol = l.protocol

/-- `_get_port_in_pool`. The caller writes to the port it gets, so its place is
returned. -/
def getPortInPool (listeners : List Listener) (ports : List SpecPort) (pool : Pool) : Option Nat :=
  listeners.findSome? fun l => if l.id = pool.listenerId then portOf ports l else none

/-- `if not port.get('name'): port['name'] = None`. -/
def SpecPort.fillName (p : SpecPort) : SpecPort := { p with name := some p.name.join }

/-- Dictionaries filled in a loop: the latest assignment first. -/
abbrev Assignments (α : Type) := List (Option PortName × α)

/-- The loop of `_remove_unused_members` that fills `spec_ports`, the pool ids by
port name, and names the ports it meets. -/
def nameSpecPorts (listeners : List Listener) :
    List Pool → List SpecPort → Assignments String → List SpecPort × Assignments String
  | [], ports, specPorts => (ports, specPorts)
  | pool :: pools, ports, specPorts =>
    match getPortInPool listeners ports pool with
    | none => nameSpecPorts listeners pools ports specPorts
    | some i =>
      let name := ports[i]?.bind fun p => p.fillName.name.join
      nameSpecPorts listeners pools (ports.modify i SpecPort.fillName)
        ((name, pool.id) :: specPorts)

/-- `utils.get_current_endpoints_target`. -/
def getCurrentEndpointsTarget (ep : Endpoint) (port : SlicePort) (specPorts : Assignments String)
    (epName : String) : String × String × Nat × Option String :=
  let podName := match ep.targetRef with
    | none => epName
    | some ref => ref.name.getD ""
  (ep.address, podName, port.port, specPorts.lookup port.name)

/-- `current_targets` of `_remove_unused_members`. -/
def currentEndpointsTargets (slices : List Slice) (specPorts : Assignments String)
    (crdName : String) : List (String × String × Nat × Option String) :=
  slices.flatMap fun s => s.endpoints.flatMap fun ep =>
    (s.ports.filter fun p => (specPorts.lookup p.name).isSome).map fun p =>
      getCurrentEndpointsTarget ep p specPorts crdName

/-- What a member is compared by when it is removed. -/
def Member.identity (m : Member) : String × String × Nat × Option String :=
  (m.ip, m.name.targetName, m.port, some m.poolId)

/-- Members of the `kubernetes` Service stay while a pod has their address. -/
def keepsNode (m : Member) : Handler Bool := do
  let crd := (← get).crd
  if crd.name = "kubernetes" then
    match crd.spec.provider with
    | none => throw (.keyError "provider")
    | some provider =>
      if provider = "ovn" then
        return false
      else
        return (← call .read fun w => env.getPodByIp w m.ip none).isSome
  else
    return false

/-- One iteration of `_remove_unused_members`. -/
def releaseUnusedMember (targets : List (String × String × Nat × Option String)) (m : Member) :
    Handler (Option String) := do
  if m.identity ∈ targets then
    return none
  else if ← keepsNode env m then
    return none
  else
    let lb ← theBalancer
    call (.release .member) fun w => env.releaseMember w lb m
    return some m.id

/-- The end of the three removals: what was released is dropped from the status. -/
def dropRemoved (removed : List String) (f : Status → Status) : Handler Bool :=
  if removed = [] then
    return false
  else do
    updateStatus f
    patchStatus env

/-- `loadbalancer_crd['status']['listeners']`, read for each pool. -/
def requireListeners : Handler Unit := do
  let st ← getStatus
  if st.poolList ≠ [] ∧ st.listeners = none then
    throw (.keyError "listeners")

/-- `_remove_unused_members`. -/
def removeUnusedMembers : Handler Bool := do
  requireListeners
  let crd := (← get).crd
  let named := nameSpecPorts crd.status.listenerList crd.status.poolList crd.spec.ports []
  modify fun w => { w with crd := { w.crd with spec := { w.crd.spec with ports := named.1 } } }
  let targets := currentEndpointsTargets crd.spec.endpointSlices named.2 crd.name
  let removed ← gather (releaseUnusedMember env targets) crd.status.memberList
  dropRemoved env removed fun st =>
    { st with members := some (st.memberList.filter fun m => m.id ∉ removed) }

/-- `_is_pool_in_spec`. -/
def isPoolInSpec (crd : Crd) (pool : Pool) : Bool :=
  crd.status.listenerList.any fun l =>
    l.id = pool.listenerId ∧ (portOf crd.spec.ports l).isSome

/-- One iteration of `_remove_unused_pools`. -/
def releaseUnusedPool (crd : Crd) (pool : Pool) : Handler (Option String) := do
  if isPoolInSpec crd pool then
    return none
  else
    let lb ← theBalancer
    call (.release .pool) fun w => env.releasePool w lb pool
    return some pool.id

/-- `_remove_unused_pools`. -/
def removeUnusedPools : Handler Bool := do
  requireListeners
  let crd := (← get).crd
  let removed ← gather (releaseUnusedPool env crd) crd.status.poolList
  dropRemoved env removed fun st =>
    { st with
      pools := some (st.poolList.filter fun p => p.id ∉ removed)
      members := some (st.memberList.filter fun m => m.poolId ∉ removed) }

/-- One iteration of `_remove_unused_listeners`. -/
def releaseUnusedListener (current : List String) (l : Listener) : Handler (Option String) := do
  if l.id ∈ current then
    return none
  else
    let lb ← theBalancer
    call (.release .listener) fun w => env.releaseListener w lb l
    return some l.id

/-- `_remove_unused_listeners`. -/
def removeUnusedListeners : Handler Bool := do
  let st ← getStatus
  let current := st.poolList.map Pool.listenerId
  let removed ← gather (releaseUnusedListener env current) st.listenerList
  dropRemoved env removed fun st =>
    { st with listeners := some (st.listenerList.filter fun l => l.id ∉ removed) }

/-! ## The load balancer itself -/

/-- The release in `_sync_lbaas_loadbalancer` of a load balancer at the wrong
address, with its public address. -/
def releaseBalancer (lb : Balancer) : Handler Unit := do
  match (← getStatus).servicePubIpInfo with
  | none => pure ()
  | some info =>
    call .publicIp fun w => env.disassociatePubIp w info
    call .publicIp fun w => env.releasePubIp w info
  call (.release .loadbalancer) fun w => env.releaseLoadbalancer w lb

/-- The creation in `_sync_lbaas_loadbalancer`, if the Service has an address. -/
def ensureBalancer : Handler Unit := do
  let spec := (← get).crd.spec
  match spec.ip with
  | none => return ()
  | some ip =>
    let r ← call (.ensure .loadbalancer) env.ensureLoadbalancer
    let lb := ⟨r.id, ip, r.provider, spec.subnetId, r.portId, spec.securityGroupsIds⟩
    updateStatus fun st => { st with loadbalancer := some lb }

/-- `_sync_lbaas_loadbalancer`. -/
def syncLbaasLoadbalancer : Handler Bool := do
  let crd := (← get).crd
  match crd.status.loadbalancer with
  | none =>
    ensureBalancer env
    patchStatus env
  | some lb =>
    if some lb.ip ≠ crd.spec.ip then
      releaseBalancer env lb
      updateStatus fun _ => {}
      ensureBalancer env
      patchStatus env
    else
      return false

/-! ## Additions -/

/-- Alphabetical order of the protocols, the sort key of the spec ports. -/
def protocolRank : Protocol → Nat
  | .SCTP => 0
  | .TCP => 1
  | .UDP => 2

/-- `sorted(lb_crd_spec_ports, key=lambda x: x['protocol'])`, a stable sort. -/
def sortedPorts (ports : List SpecPort) : List SpecPort :=
  ports.insertionSort fun p q => protocolRank p.protocol ≤ protocolRank q.protocol

/-- A listener on the port of the spec, with the timeouts of the spec. -/
def Listener.Serves (l : Listener) (spec : Spec) (p : SpecPort) : Prop :=
  l.port = p.port ∧ l.protocol = p.protocol ∧
    l.timeoutClientData = spec.timeoutClientData ∧ l.timeoutMemberData = spec.timeoutMemberData

instance (l : Listener) (spec : Spec) (p : SpecPort) : Decidable (l.Serves spec p) :=
  inferInstanceAs (Decidable (_ ∧ _ ∧ _ ∧ _))

/-- `for pre_listener in listeners: if ...: listeners.remove(pre_listener)`: the
list shrinks under the iteration, which goes on at the next index. -/
def removePrevious (id : String) : Nat → Nat → List Listener → List Listener
  | 0, _, listeners => listeners
  | n + 1, i, listeners =>
    match listeners[i]? with
    | none => listeners
    | some l =>
      if l.id = id then
        removePrevious id n (i + 1) (listeners.erase l)
      else
        removePrevious id n (i + 1) listeners

/-- A new listener takes the place of one with its id. -/
def recordListener (listeners : List Listener) (l : Listener) : List Listener :=
  removePrevious l.id listeners.length 0 listeners ++ [l]

/-- One iteration of `_add_new_listeners`. The message about a second listener on a
port indexes a list by a string. -/
def addNewListener (p : SpecPort) (changed : Bool) : Handler (Option Bool) := do
  let crd := (← get).crd
  let listeners := crd.status.listenerList
  if listeners.any fun l => l.Serves crd.spec p then
    return some changed
  else if (listeners.any fun l => l.port = p.port) ∧ env.doubleListenersSupported = false then
    throw .typeError
  else if p.protocol = .SCTP ∧ env.sctpSupported = false then
    return some changed
  else
    match crd.status.loadbalancer with
    | none => throw .typeError
    | some lb =>
      match ← call (.ensure .listener) fun w => env.ensureListener w lb p with
      | none => return some changed
      | some r =>
        updateStatus fun st =>
          let st := if r.clearsSecurityGroups then st.setSecurityGroups [] else st
          { st with listeners := some (recordListener st.listenerList
              ⟨r.id, p.protocol, p.port, r.timeoutClientData, r.timeoutMemberData⟩) }
        if ← patchStatus env then
          return some true
        else
          return none

/-- `_add_new_listeners`. -/
def addNewListeners : Handler Bool := do
  let spec := (← get).crd.spec
  return (← sweep (addNewListener env) (sortedPorts spec.ports) false).getD false

/-- One iteration of `_add_new_pools`. -/
def addNewPool (current : List String) (l : Listener) (changed : Bool) :
    Handler (Option Bool) := do
  if l.id ∈ current then
    return some changed
  else
    let lb ← theBalancer
    match ← call (.ensure .pool) fun w => env.ensurePool w lb l with
    | none => return some changed
    | some id =>
      updateStatus fun st => { st with pools := some (st.poolList ++ [⟨id, l.id⟩]) }
      if ← patchStatus env then
        return some true
      else
        return none

/-- `_add_new_pools`. -/
def addNewPools : Handler Bool := do
  let st ← getStatus
  let current := st.poolList.map Pool.listenerId
  return (← sweep (addNewPool env current) st.listenerList false).getD false

/-- `_sync_lbaas_sgs`; false if it returned `None`. -/
def syncLbaasSgs : Handler Bool := do
  match ← call .read env.serviceSecurityGroups with
  | none => return false
  | some sgs =>
    updateStatus (Status.setSecurityGroups sgs)
    patchSecurityGroups env sgs

/-- `lsnr_by_id`: a later listener hides an earlier one. -/
def lsnrById (listeners : List Listener) (id : String) : Option Listener :=
  listeners.reverse.find? fun l => l.id = id

/-- Every pool finds its listener in `lsnr_by_id`. -/
def Status.Linked (st : Status) : Prop :=
  ∀ p ∈ st.poolList, lsnrById st.listenerList p.listenerId ≠ none

instance (st : Status) : Decidable st.Linked :=
  inferInstanceAs (Decidable (∀ p ∈ st.poolList, _))

/-- `pool_by_lsnr_port`, when every lookup in `lsnr_by_id` succeeds. -/
def poolByLsnrPort (st : Status) : List ((Protocol × Nat) × Pool) :=
  (st.poolList.filterMap fun p =>
    (lsnrById st.listenerList p.listenerId).map fun l => ((l.protocol, l.port), p)).reverse

/-- `pool_by_tgt_name`: ports without a `name` or a pool are passed over. -/
def poolByTgtName (byPort : List ((Protocol × Nat) × Pool)) (ports : List SpecPort) :
    Assignments Pool :=
  (ports.filterMap fun p => p.name.bind fun name =>
    (byPort.lookup (p.protocol, p.port)).map fun pool => (name, pool)).reverse

/-- What a member is compared by before it is added. -/
def Member.target (m : Member) : String × Nat × String := (m.ip, m.port, m.poolId)

/-- What `_add_new_members` computes before its loops. -/
structure Directory where
  listeners : List Listener
  pools : Assignments Pool
  currentTargets : List (String × Nat × String)

def directory (crd : Crd) : Directory where
  listeners := crd.status.listenerList
  pools := poolByTgtName (poolByLsnrPort crd.status) crd.spec.ports
  currentTargets := crd.status.memberList.map Member.target

/-- `target_pod`. -/
def targetPod (ep : Endpoint) : Handler (Option String) := do
  match ep.targetRef with
  | some ref => call .read fun w => env.getPodByIp w ep.address ref.targetNamespace
  | none =>
    match ← call .read fun w => env.nodesSubnet w ep.address with
    | some _ => return none
    | none => call .read fun w => env.getPodByIp w ep.address none

/-- `_get_subnet_by_octavia_mode`. -/
def getSubnetByOctaviaMode (pod : Option String) (ip : String) : Handler (Option String) := do
  if env.l2MemberMode then
    match pod with
    | some pod => call .read fun w => env.podSubnet w pod ip
    | none => call .read fun w => env.nodesSubnet w ip
  else
    return (← theBalancer).subnetId

/-- `_get_target_info`: the namespace and the name of the target. -/
def getTargetInfo (ref : Option TargetRef) : Handler (String × String) := do
  match ref with
  | none =>
    let crd := (← get).crd
    return (crd.ns, crd.name)
  | some ⟨some ns, some name⟩ => return (ns, name)
  | some ⟨none, _⟩ => throw (.keyError "namespace")
  | some ⟨some _, none⟩ => throw (.keyError "name")

/-- `ensure_member`, and the new member in the status. -/
def ensureMember (pool : Pool) (name : MemberName) (ip subnet : String) (changed : Bool) :
    Handler (Option Bool) := do
  let lb ← theBalancer
  match ← call (.ensure .member) fun w => env.ensureMember w lb pool name ip subnet with
  | none => return some changed
  | some id =>
    updateStatus fun st =>
      { st with members := some (st.memberList ++ [⟨id, name, ip, name.port, pool.id⟩]) }
    if ← patchStatus env then
      return some true
    else
      return none

/-- The innermost loop of `_add_new_members`, over the ports of a slice. The port of
the listener is looked up for the first member of a pool. -/
def addNewMember (dir : Directory) (ep : Endpoint) (pod : Option String) (p : SlicePort)
    (changed : Bool) : Handler (Option Bool) := do
  match dir.pools.lookup p.name with
  | none => return some changed
  | some pool =>
    if (ep.address, p.port, pool.id) ∈ dir.currentTargets then
      return some changed
    else
      match ← getSubnetByOctaviaMode env pod ep.address with
      | none => return some changed
      | some subnet =>
        let info ← getTargetInfo ep.targetRef
        let st ← getStatus
        if (st.memberList.all fun m => m.poolId ≠ pool.id) ∧
            lsnrById dir.listeners pool.listenerId = none then
          throw .listenerLookup
        else
          ensureMember env pool ⟨info.1, info.2, p.port⟩ ep.address subnet changed

/-- The loop of `_add_new_members` over endpoints. A reference without a namespace
raises a `KeyError`, which is caught. -/
def addEndpoint (dir : Directory) (ports : List SlicePort) (ep : Endpoint) (changed : Bool) :
    Handler (Option Bool) := do
  if ep.targetRef.any fun ref => ref.targetNamespace.isNone then
    return some changed
  else
    let pod ← targetPod env ep
    if dir.pools = [] then
      return some changed
    else
      sweep (addNewMember env dir ep pod) ports changed

/-- The loop of `_add_new_members` over slices. -/
def addSlice (dir : Directory) (s : Slice) (changed : Bool) : Handler (Option Bool) :=
  sweep (addEndpoint env dir s.ports) s.endpoints changed

/-- `_add_new_members` after the security groups. -/
def addMembersOfSlices : Handler Bool := do
  let crd := (← get).crd
  if crd.status.Linked then
    return (← sweep (addSlice env (directory crd)) crd.spec.endpointSlices false).getD false
  else
    throw .listenerLookup

/-- `_add_new_members`. -/
def addNewMembers : Handler Bool := do
  let st ← getStatus
  let synced ← if st.loadbalancer.isSome then syncLbaasSgs env else pure true
  if synced then
    addMembersOfSlices env
  else
    return false

/-! ## The pass -/

/-- `_sync_lbaas_listeners`. -/
def syncLbaasListeners : Handler Bool := do
  let removed ← removeUnusedListeners env
  let synced ← syncLbaasLoadbalancer env
  let added ← addNewListeners env
  return removed || synced || added

/-- `_sync_lbaas_pools`. -/
def syncLbaasPools : Handler Bool := do
  let removed ← removeUnusedPools env
  let synced ← syncLbaasListeners env
  let added ← addNewPools env
  return removed || synced || added

/-- `_has_endpoints`. -/
def hasEndpoints (crd : Crd) : Bool := !crd.spec.endpointSlices.isEmpty

/-- `_sync_lbaas_members`. -/
def syncLbaasMembers : Handler Bool := do
  let removed ← removeUnusedMembers env
  let synced ← syncLbaasPools env
  let crd := (← get).crd
  let added ← if hasEndpoints crd then addNewMembers env else pure false
  return removed || synced || added

/-! ## Events -/

/-- `OCTAVIA_DEFAULT_PROVIDERS`, or no provider at all. -/
def isDefaultProvider (provider : Option String) : Bool :=
  provider.all fun p => p = "" ∨ p ∈ ["octavia", "amphora"]

/-- `_ensure_release_lbaas`. -/
def ensureReleaseLbaas (lb : Balancer) : Handler Unit := do
  call (.release .loadbalancer) fun w => env.releaseLoadbalancer w lb
  call .resetStatus env.cleanLbCrdStatus

/-- `_should_ignore`. -/
def shouldIgnore (crd : Crd) : Bool :=
  !(hasEndpoints crd || crd.status ≠ {}) || crd.spec.ip.isNone

/-- The amphora to ovn upgrade and the ovn to amphora downgrade. -/
def checkProvider : Handler Unit := do
  let crd := (← get).crd
  match crd.status.loadbalancer with
  | none => return ()
  | some lb =>
    if isDefaultProvider lb.provider ≠ isDefaultProvider crd.spec.provider then
      ensureReleaseLbaas env lb
    else
      return ()

/-- The end of `on_present`: a public address for a changed load balancer. -/
def acquirePubIp : Handler Unit := do
  let crd := (← get).crd
  match crd.status.servicePubIpInfo, crd.spec.type with
  | none, some _ =>
    let lb ← theBalancer
    match ← call .publicIp fun w => env.acquireServicePubIpInfo w lb with
    | none => return ()
    | some info =>
      call .publicIp fun w => env.associatePubIp w info
      updateStatus fun st => { st with servicePubIpInfo := some info }
      call .publicIp fun w => env.updateLbStatus w info
      let _ ← patchStatus env
      return ()
  | _, _ => return ()

/-- `on_present` for an object with a status. -/
def syncPresent : Handler Unit := do
  let crd := (← get).crd
  if shouldIgnore crd then
    return ()
  else
    checkProvider env
    let changed ← syncLbaasMembers env
    if changed then
      acquirePubIp env
    else
      return ()

/-- `on_present`, for an object delivered with the given status. -/
def onPresent (delivered : Option Status) : Handler Unit := do
  match delivered with
  | none => call .resetStatus env.cleanLbCrdStatus
  | some st =>
    updateStatus fun _ => st
    syncPresent env

end Pass

/-- The world a run leaves behind, however it ended. -/
def after {α : Type} (x : Handler α) (w : World) : World :=
  match x w with
  | .ok _ w' => w'
  | .error _ w' => w'

/-- A world for examples, in which every call succeeds. The listener has one id, a
pool the id of its listener, and there is one target a member can be made for. -/
def calm : Env where
  doubleListenersSupported := true
  sctpSupported := true
  l2MemberMode := false
  patchCrd := fun _ => .applied
  cleanLbCrdStatus := fun _ => ⟨true, some ()⟩
  ensureLoadbalancer := fun _ => ⟨false, some ⟨"lb", "vip", none⟩⟩
  releaseLoadbalancer := fun _ _ => ⟨false, some ()⟩
  ensureListener := fun w _ _ => ⟨false, some (some
    ⟨"listener", w.crd.spec.timeoutClientData, w.crd.spec.timeoutMemberData, false⟩)⟩
  releaseListener := fun _ _ _ => ⟨false, some ()⟩
  ensurePool := fun _ _ l => ⟨false, some (some l.id)⟩
  releasePool := fun _ _ _ => ⟨false, some ()⟩
  ensureMember := fun _ _ pool name ip _ => ⟨false, some
    (if (ip, name.port, pool.id) = ("10.0.0.5", 8080, "listener") then some "member" else none)⟩
  releaseMember := fun _ _ _ => ⟨false, some ()⟩
  serviceSecurityGroups := fun _ => ⟨false, some (some [])⟩
  getPodByIp := fun _ _ _ => ⟨false, some none⟩
  nodesSubnet := fun _ _ => ⟨false, some none⟩
  podSubnet := fun _ _ _ => ⟨false, some none⟩
  disassociatePubIp := fun _ _ => ⟨false, some ()⟩
  releasePubIp := fun _ _ => ⟨false, some ()⟩
  acquireServicePubIpInfo := fun _ _ => ⟨false, some none⟩
  associatePubIp := fun _ _ => ⟨false, some ()⟩
  updateLbStatus := fun _ _ => ⟨false, some ()⟩

/-- A spec for examples: one port, and one endpoint of it, listed once for each of
the given slice ports. -/
def webSpec (ip : String) (slicePorts : List SlicePort) : Spec where
  ports := [⟨some none, .TCP, 80⟩]
  ip := some ip
  provider := none
  type := none
  subnetId := some "subnet"
  securityGroupsIds := some []
  timeoutClientData := 0
  timeoutMemberData := 0
  endpointSlices := [⟨[⟨"10.0.0.5", none⟩], slicePorts⟩]

end LoadBalancer

end KuryrKubernetes
