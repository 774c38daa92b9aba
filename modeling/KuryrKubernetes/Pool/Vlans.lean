import KuryrKubernetes.Pool.State

/-!
# VLAN ids of the subports of a trunk

`NestedVlanPodVIFDriver` gives every subport of a trunk a VLAN id of its own. The ids are
reserved in the memory of the segmentation driver, the ports exist in Neutron and the
subports on the trunk, and every failure has to undo what was done in all three.

- `World`: one trunk, the segmentation driver, the pools on the trunk, and the VIFs that
  pods hold. Ports of a pool are kept without their security groups, on which no VLAN id
  depends; `take` names the port that a pod gets.
- Requests answer as an outcome record says. A request that fails has not taken effect,
  and one that does not fail is answered by Neutron itself (a VLAN id in use on the
  trunk is a Conflict). Failures to set tags are ignored by the source.
- `Allocator`: `allocate_segmentation_id` reserves an id that is neither reserved nor in
  use, or fails.
- A VIF is held from the time a pod receives it until its release is first called;
  `given` are the VIFs that pods ever received.
-/

namespace KuryrKubernetes

namespace NestedVlan

open Dicts Transition

/-! ## Objects -/

structure Vif where
  id : PortId
  vlanId : Nat
deriving DecidableEq, Repr

/-- `SDKException`, with the two subclasses the driver tells apart. -/
inductive Sdk where
  | conflict | notFound | other
deriving DecidableEq, Repr

inductive Raised where
  | sdk (e : Sdk)
  | allocationFailure | notReady | portNotReady | other
deriving DecidableEq, Repr

/-- `existing` are the VLAN ids of `_existing_vifs`. -/
structure World where
  ports : List PortId
  known : List PortId
  subports : List (PortId × Nat)
  reserved : List Nat
  existing : Dict PortId Nat
  available : List (PoolKey × PortId)
  recyclable : Dict PortId PoolKey
  held : List Vif
  given : List Vif

structure Allocator where
  pick : List Nat → List Nat → Option Nat
  fresh : ∀ {reserved inUse : List Nat} {v : Nat}, pick reserved inUse = some v →
    v ∉ reserved ∧ v ∉ inUse

structure Config where
  portDebug : Bool
  portsPoolMax : Nat

/-- `release_segmentation_id`. -/
def World.release (w : World) (v : Nat) : World := { w with reserved := w.reserved.filter (· ≠ v) }

def World.reserve (w : World) (v : Nat) : World := { w with reserved := v :: w.reserved }

/-- `_get_in_use_vlan_ids_set`. -/
def World.inUseVlanIds (w : World) : List Nat := w.subports.map Prod.snd

def World.Attached (w : World) (port : PortId) : Prop := port ∈ w.subports.map Prod.fst

instance (w : World) (port : PortId) : Decidable (w.Attached port) :=
  inferInstanceAs (Decidable (port ∈ w.subports.map Prod.fst))

/-! ## Neutron -/

def World.createPorts (w : World) (ports : List PortId) : World :=
  { w with ports := w.ports ++ ports, known := w.known ++ ports }

/-- `delete_port`. Neutron keeps the port of a subport. -/
def deletePort (answer : Option Sdk) (port : PortId) (w : World) : Except Sdk World :=
  match answer with
  | some e => .error e
  | none =>
    if w.Attached port then .error .conflict
    else .ok { w with ports := w.ports.filter (· ≠ port) }

/-- `add_trunk_subports`: all of them, or none. -/
def addTrunkSubports (answer : Option Sdk) (subs : List (PortId × Nat)) (w : World) :
    Except Sdk World :=
  match answer with
  | some e => .error e
  | none =>
    if ∃ s ∈ subs, w.Attached s.1 ∨ s.2 ∈ w.inUseVlanIds then .error .conflict
    else if ∃ s ∈ subs, s.1 ∉ w.ports then .error .notFound
    else .ok { w with subports := w.subports ++ subs }

/-- `delete_trunk_subports`: all of them, or none. -/
def deleteTrunkSubports (answer : Option Sdk) (ids : List PortId) (w : World) : Except Sdk World :=
  match answer with
  | some e => .error e
  | none =>
    if ∀ id ∈ ids, w.Attached id then
      .ok { w with subports := w.subports.filter fun s => s.1 ∉ ids }
    else .error .notFound

/-! ## The driver -/

/-- A single subport that is not attached is taken for removed. -/
def removeSubports (answer : Option Sdk) (ids : List PortId) (w : World) : Except Sdk World :=
  match deleteTrunkSubports answer ids w with
  | .ok w => .ok w
  | .error .notFound => if ids.length > 1 then .error .notFound else .ok w
  | .error e => .error e

/-- The requests of the attempts of `_add_subport`: `get_trunk` and `add_trunk_subports`. -/
structure Attaching where
  trunk : Nat → Bool
  add : Nat → Option Sdk

/-- The VLAN id of one attempt. -/
def attemptVlanId (alloc : Allocator) (trunk : Bool) (requestedVlanId : Option Nat) (w : World) :
    World × Except Raised Nat :=
  match requestedVlanId with
  | some v => (w, .ok v)
  | none =>
    if !trunk then (w, .error (.sdk .other))
    else match alloc.pick w.reserved w.inUseVlanIds with
      | none => (w, .error .allocationFailure)
      | some v => (w.reserve v, .ok v)

/-- From the second attempt on `port_id` is the body of the attempt before, which Neutron
rejects. -/
def attemptAnswer (out : Attaching) (attempt : Nat) : Option Sdk :=
  if attempt = 1 then out.add attempt else some ((out.add attempt).getD .other)

/-- `_add_subport`, with the number of attempts left and the number of this one. -/
def addSubport (alloc : Allocator) (out : Attaching) (port : PortId)
    (requestedVlanId : Option Nat) : Nat → Nat → World → World × Except Raised Nat
  | 0, _, w => (w, .error (.sdk .conflict))
  | left + 1, attempt, w =>
    match attemptVlanId alloc (out.trunk attempt) requestedVlanId w with
    | (w, .error e) => (w, .error e)
    | (w, .ok v) =>
      match addTrunkSubports (attemptAnswer out attempt) [(port, v)] w with
      | .ok w => (w, .ok v)
      | .error .conflict =>
        if requestedVlanId.isSome then (w, .error (.sdk .conflict))
        else addSubport alloc out port requestedVlanId left (attempt + 1) w
      | .error e => (w.release v, .error (.sdk e))

def maxRetryCount : Nat := 3

/-- The outcome of `request_vif`: whether the trunk was found, the created port with its
binding, and the requests made. -/
structure Requesting where
  parent : Bool
  create : Option Sdk
  port : PortId
  bindingFailed : Bool
  delete : Option Sdk
  attaching : Attaching

def requestVif (alloc : Allocator) (out : Requesting) (w : World) : World × Except Raised Vif :=
  if !out.parent then (w, .error .other)
  else match out.create with
    | some e => (w, .error (.sdk e))
    | none =>
      let w := w.createPorts [out.port]
      if out.bindingFailed then
        match deletePort out.delete out.port w with
        | .error e => (w, .error (.sdk e))
        | .ok w => (w, .error .notReady)
      else
        match addSubport alloc out.attaching out.port none maxRetryCount 1 w with
        | (w, .error e) => (w, .error e)
        | (w, .ok v) => (w, .ok ⟨out.port, v⟩)

/-- The outcome of `request_vifs`. -/
structure Creation where
  parent : Bool
  trunk : Bool
  numPorts : Nat
  create : Option Sdk
  ports : List PortId
  bindingFailed : Bool
  add : Option Sdk
  delete : PortId → Option Sdk

/-- The loop of `_create_subports_info`. -/
def createSubportsInfo (alloc : Allocator) : Nat → List Nat → World → World × List Nat
  | 0, _, w => (w, [])
  | n + 1, inUse, w =>
    match alloc.pick w.reserved inUse with
    | none => (w, [])
    | some v =>
      let (w, ids) := createSubportsInfo alloc n (v :: inUse) (w.reserve v)
      (w, v :: ids)

def World.releaseAll (w : World) (ids : List Nat) : World := ids.foldl World.release w

/-- The loop of `_check_port_binding`, which ends with the first failure. -/
def deleteUnbound (answer : PortId → Option Sdk) : List PortId → World → World × Raised
  | [], w => (w, .notReady)
  | port :: ports, w =>
    match deletePort (answer port) port w with
    | .error e => (w, .sdk e)
    | .ok w => deleteUnbound answer ports w

/-- `utils.delete_ports`: failures are logged. -/
def deletePorts (answer : PortId → Option Sdk) (ports : List PortId) (w : World) : World :=
  ports.foldl (fun w port => match deletePort (answer port) port w with
    | .error _ => w
    | .ok w => w) w

def requestVifs (alloc : Allocator) (out : Creation) (w : World) :
    World × Except Raised (List Vif) :=
  if !out.parent then (w, .error .other)
  else if !out.trunk then (w, .error (.sdk .other))
  else
    let (w, ids) := createSubportsInfo alloc out.numPorts w.inUseVlanIds w
    if ids = [] then (w, .ok [])
    else match out.create with
      | some e => (w.releaseAll ids, .error (.sdk e))
      | none =>
        let ports := out.ports.take ids.length
        let w := w.createPorts ports
        if out.bindingFailed then
          match deleteUnbound out.delete ports w with
          | (w, e) => (w, .error e)
        else
          match addTrunkSubports out.add (ports.zip ids) w with
          | .error _ => ((deletePorts out.delete ports w).releaseAll ids, .ok [])
          | .ok w => (w, .ok ((ports.zip ids).map fun s => ⟨s.1, s.2⟩))

/-- The outcome of `activate_vif`: the state of the port, whether it was down for too
long, and the requests of the reattachment. -/
structure Activating where
  active : Bool
  port : Bool
  statusActive : Bool
  timedOut : Bool
  parent : Bool
  remove : Option Sdk
  attaching : Attaching

/-- The branch that attaches the subport anew. -/
def Activating.reattaches (out : Activating) : Bool :=
  !out.active && out.port && !out.statusActive && out.timedOut && out.parent

def activateVif (alloc : Allocator) (out : Activating) (vif : Vif) (w : World) :
    World × Except Raised Unit :=
  if out.active then (w, .ok ())
  else if !out.port then (w, .error .notReady)
  else if out.statusActive then (w, .ok ())
  else if !out.timedOut then (w, .error .portNotReady)
  else if !out.parent then (w, .error .other)
  else match removeSubports out.remove [vif.id] w with
    | .error e => (w, .error (.sdk e))
    | .ok w =>
      match addSubport alloc out.attaching vif.id (some vif.vlanId) maxRetryCount 1 w with
      | (w, .error e) => (w, .error e)
      | (w, .ok _) => (w, .error .portNotReady)

structure Releasing where
  parent : Bool
  remove : Option Sdk
  delete : Option Sdk

/-- `release_vif` of the driver. -/
def releaseVif (out : Releasing) (vif : Vif) (w : World) : World :=
  let w := { w with held := w.held.filter (· ≠ vif) }
  if !out.parent then w
  else match removeSubports out.remove [vif.id] w with
    | .error _ => w
    | .ok w =>
      let w := w.release vif.vlanId
      match deletePort out.delete vif.id w with
      | .error _ => w
      | .ok w => w

/-! ## The pools -/

/-- A pod receives a VIF. -/
def World.hold (w : World) (vif : Vif) : World :=
  { w with held := w.held ++ [vif], given := w.given ++ [vif] }

/-- `_populate_pool` files one of the VIFs the driver created. -/
def World.file (w : World) (key : PoolKey) (vif : Vif) : World :=
  { w with existing := w.existing.set vif.id vif.vlanId
           available := w.available ++ [(key, vif.id)] }

def populatePool (alloc : Allocator) (key : PoolKey) (out : Creation) (w : World) : World :=
  match requestVifs alloc out w with
  | (w, .error _) => w
  | (w, .ok vifs) => vifs.foldl (fun w vif => w.file key vif) w

/-- `_get_port_from_pool`: a port whose update fails, or whose VIF is not known, is lost. -/
def getPortFromPool (key : PoolKey) (port : PortId) (updated : Bool) (w : World) : World :=
  let w := { w with available := w.available.erase (key, port) }
  if !updated then w
  else match w.existing.get? port with
    | none => w
    | some v => w.hold ⟨port, v⟩

/-- `release_vif` of the pool. A release that the nested pool ignores, for want of a parent port,
changes nothing here and is no step. -/
def recycleVif (key : PoolKey) (vif : Vif) (w : World) : World :=
  { w with held := w.held.filter (· ≠ vif)
           existing := if (w.existing.get? vif.id).isSome then w.existing
             else w.existing.set vif.id vif.vlanId
           recyclable := w.recyclable.set vif.id key }

structure Recycling where
  listing : Bool
  renamed : PortId → Bool
  trunk : PoolKey → Bool
  remove : PortId → Option Sdk
  removeAll : PoolKey → Option Sdk
  delete : PortId → Option Sdk

def World.poolSize (w : World) (key : PoolKey) : Nat := w.available.countP (·.1 = key)

def World.dropRecyclable (w : World) (port : PortId) : World :=
  { w with recyclable := w.recyclable.erase port }

/-- `_release_vlan_id` of a known VIF, and `del _existing_vifs[port_id]`. -/
def World.forget (w : World) (port : PortId) : World :=
  match w.existing.get? port with
  | none => w
  | some v => { w.release v with existing := w.existing.erase port }

/-- One iteration of `_trigger_return_to_pool`; `true` when it raises. -/
def returnPort (cfg : Config) (out : Recycling) (w : World) (port : PortId) (key : PoolKey) :
    World × Bool :=
  if cfg.portsPoolMax = 0 ∨ w.poolSize key < cfg.portsPoolMax then
    if cfg.portDebug ∧ ¬ out.renamed port then (w, false)
    else
      ({ w.dropRecyclable port with available := w.available ++ [(key, port)] }, false)
  else if !out.trunk key then (w, true)
  else match removeSubports (out.remove port) [port] w with
    | .error _ => (w, false)
    | .ok w =>
      if (w.existing.get? port).isNone then (w.dropRecyclable port, false)
      else
        match deletePort (out.delete port) port (w.forget port) with
        | .error _ => (w.forget port, false)
        | .ok w => (w.dropRecyclable port, false)

def returnPorts (cfg : Config) (out : Recycling) : List (PortId × PoolKey) → World → World × Bool
  | [], w => (w, false)
  | (port, key) :: rest, w =>
    match returnPort cfg out w port key with
    | (w, true) => (w, true)
    | (w, false) => returnPorts cfg out rest w

def triggerReturnToPool (cfg : Config) (out : Recycling) (w : World) : World × Bool :=
  if !cfg.portDebug && !out.listing then (w, true)
  else returnPorts cfg out w.recyclable.items w

/-- The ports of a pool. -/
def World.poolPorts (w : World) (key : PoolKey) : List PortId :=
  (w.available.filter (·.1 = key)).map Prod.snd

/-- `delete_network_pools` forgets the VIFs of one pool. -/
def World.dropPool (w : World) (key : PoolKey) : World :=
  let w' := (w.poolPorts key).foldl World.forget w
  { w' with available := w'.available.filter (·.1 ≠ key) }

/-- The loop of `delete_network_pools` over the pools of the network, in the order of the
dictionary; the ports to delete, or `none` when it raises. -/
def deletePools (out : Recycling) : List PoolKey → World → World × Option (List PortId)
  | [], w => (w, some [])
  | key :: keys, w =>
    if !out.trunk key then (w, none)
    else
      match removeSubports (out.removeAll key) (w.poolPorts key) w with
      | .error .notFound =>
        match deletePools out keys (w.dropPool key) with
        | (w', ports) => (w', ports.map (w.poolPorts key ++ ·))
      | .error _ => (w, none)
      | .ok w =>
        match deletePools out keys (w.dropPool key) with
        | (w', ports) => (w', ports.map (w.poolPorts key ++ ·))

def deleteNetworkPools (cfg : Config) (out : Recycling) (keys : List PoolKey) (w : World) : World :=
  match triggerReturnToPool cfg out w with
  | (w, true) => w
  | (w, false) =>
    match deletePools out keys w with
    | (w, none) => w
    | (w, some ports) => deletePorts out.delete ports w

/-- The outcome of `free_pool`: the listed ports of the right owner that are active, the
ports in the status of some KuryrPort, and the subports of other trunks. -/
structure Freeing where
  listing : Bool
  active : List PortId
  inUse : List PortId
  elsewhere : List PortId
  remove : PortId → Option Sdk
  delete : PortId → Option Sdk
  unfiled : PortId → Bool

/-- One subport in the loop of `_precreated_ports` with action `free`. Its port is in the list of
available ones once at most (`Books.once`), so it does not matter that `remove` takes one copy. -/
def freeSubport (out : Freeing) (w : World) (s : PortId × Nat) : World :=
  if s.1 ∉ out.active ∨ s.1 ∈ out.inUse then w
  else match removeSubports (out.remove s.1) [s.1] w with
    | .error _ => w
    | .ok w =>
      match deletePort (out.delete s.1) s.1 w with
      | .error _ => w
      | .ok w =>
        let w := w.release s.2
        if (w.existing.get? s.1).isNone then w
        else
          { w with existing := w.existing.erase s.1
                   available := if out.unfiled s.1 then w.available.filter (·.2 ≠ s.1)
                     else w.available }

/-- `free_pool`. Ports that are attached to no trunk are deleted first. -/
def freePool (out : Freeing) (w : World) : World :=
  if !out.listing then w
  else
    let leftover := out.active.filter fun p =>
      p ∉ out.inUse ∧ ¬ w.Attached p ∧ p ∉ out.elsewhere
    w.subports.foldl (freeSubport out) (deletePorts out.delete leftover w)

/-! ## Runs -/

inductive Action where
  | requestVif (out : Requesting)
  | populate (key : PoolKey) (out : Creation)
  | take (key : PoolKey) (port : PortId) (updated : Bool)
  | activate (vif : Vif) (out : Activating)
  | release (vif : Vif) (out : Releasing)
  | recycle (key : PoolKey) (vif : Vif)
  | trigger (out : Recycling)
  | deleteNetwork (keys : List PoolKey) (out : Recycling)
  | free (out : Freeing)

/-- Ids of new ports are new. -/
def Fresh (w : World) (ports : List PortId) : Prop := ports.Nodup ∧ ∀ p ∈ ports, p ∉ w.known

instance (w : World) (ports : List PortId) : Decidable (Fresh w ports) :=
  inferInstanceAs (Decidable (_ ∧ _))

def World.step (alloc : Allocator) (cfg : Config) (w : World) : Action → Option World
  | .requestVif out =>
    if Fresh w [out.port] then
      match requestVif alloc out w with
      | (w, .error _) => some w
      | (w, .ok vif) => some (w.hold vif)
    else none
  | .populate key out =>
    if Fresh w out.ports ∧ out.numPorts ≤ out.ports.length then some (populatePool alloc key out w)
    else none
  | .take key port updated =>
    if (key, port) ∈ w.available then some (getPortFromPool key port updated w) else none
  | .activate vif out => if vif ∈ w.held then some (activateVif alloc out vif w).1 else none
  | .release vif out => if vif ∈ w.given then some (releaseVif out vif w) else none
  | .recycle key vif => if vif ∈ w.given then some (recycleVif key vif w) else none
  | .trigger out => some (triggerReturnToPool cfg out w).1
  | .deleteNetwork keys out => some (deleteNetworkPools cfg out keys w)
  | .free out => some (freePool out w)

/-- The controller starts without VIFs. -/
structure Started (w : World) : Prop where
  existing : w.existing = Dict.empty
  available : w.available = []
  recyclable : w.recyclable = Dict.empty
  held : w.held = []
  given : w.given = []
  known : (∀ p ∈ w.ports, p ∈ w.known) ∧ ∀ s ∈ w.subports, s.1 ∈ w.known

def vlanSystem (alloc : Allocator) (cfg : Config) : System World Action where
  init := Started
  step w a w' := w.step alloc cfg a = some w'

end NestedVlan

end KuryrKubernetes
