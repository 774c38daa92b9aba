import KuryrKubernetes.Pool.World
import KuryrKubernetes.Handlers.VifRelease

/-!
# Ports are conserved

Every operation of a pool takes a port out of one dictionary, talks to Neutron, and puts
the port into another dictionary afterwards. Here each request to Neutron may fail, and
the question is where the port is then.

- `getPortOrRaise`, `populateOrRaise`, `requestVif`, `removeSgOrRaise`: the operations of
  `Pool.State` with the outcome of every request as an argument; with requests that
  succeed they are the operations of `Pool.State` (`getPortOrRaise_eq`,
  `removeSgOrRaise_eq`).
- `releaseHost`: the host `release_vif` files a port under, if it finds one. The nested driver
  ignores a port that is in no trunk.
- `PortLedger`: the pool, the ports the pods hold, and the ports `_populate_pool` created that
  are still there in Neutron. `PortLedger.Conserved` says that none of the latter is lost.
- `Keeps`: the steps that lose no port. What it excludes are the places where an
  exception, or a VIF that is not known, drops the only reference to a port.
-/

namespace KuryrKubernetes

open Dicts Transition

/-! ## Serving a port -/

/-- The outcomes of the requests of one `_get_port_from_pool`: `update_port` for a port of
another group, and `_set_port_debug`. -/
structure Serving where
  updated : Bool
  named : Bool
deriving DecidableEq, Repr

/-- How an operation that answers with a VIF ends. -/
inductive Delivery where
  | vif (v : Vif)
  /-- `ResourceNotReady`. -/
  | notReady
  /-- An exception of Neutron. -/
  | raised
deriving DecidableEq, Repr

/-- `_get_port_from_pool` (vif_pool.py:234–268). The port is popped before the requests. -/
def getPortOrRaise (cfg : PoolConfig) (out : Serving) (p : Pool) (key : PoolKey)
    (sgs : List String) : Pool × Delivery :=
  match takePort p.available key sgs with
  | none => ({ p with available := p.available.set key (row p.available key) }, .notReady)
  | some (port, other, available) =>
    let p := { p with available := available }
    if other ∧ ¬ out.updated then (p, .raised)
    else if cfg.portDebug ∧ ¬ out.named then (p, .raised)
    else
      match p.existing.get? port with
      | some v => (p, .vif v)
      | none => (p, .notReady)

/-! ## Creating ports -/

/-- `binding_vif_type` of the first port created. -/
inductive Binding where
  | bound | unbound | failed
deriving DecidableEq, Repr

/-- What `utils.delete_port` does to a port (utils.py:689–729): it logs what goes wrong,
except for a failure to detach a subport. -/
inductive Removal where
  | deleted | kept | raised
deriving DecidableEq, Repr

/-- The outcomes of the requests of `request_vifs`. Neutron creates a bulk of ports as a
whole or not at all. -/
structure Creation where
  /-- The parent port, its trunk and the VLAN ids in use could be read (nested). -/
  trunk : Bool
  /-- The number of VLAN ids that are free (nested). -/
  vlans : Nat
  /-- `create_ports` for a number of ports. -/
  created : Nat → Option (List Vif)
  binding : Binding
  /-- `get_port` of the first port, to learn its binding. -/
  shown : Bool
  /-- `delete_port` of `_check_port_binding`. -/
  unbindDeleted : PortId → Bool
  /-- `add_trunk_subports`. -/
  attached : Bool
  /-- `delete_ports` of the ports that could not be attached. -/
  removal : PortId → Removal

/-- `_check_port_binding` deletes the ports one by one until a deletion fails
(neutron_vif.py:155–161); the ports it leaves. -/
def unboundLeft (deleted : PortId → Bool) : List Vif → List Vif
  | [] => []
  | v :: vs => if deleted v.id then unboundLeft deleted vs else v :: vs

/-- The ports `delete_ports` leaves. -/
def notRemoved (removal : PortId → Removal) (vifs : List Vif) : List Vif :=
  vifs.filter fun v => removal v.id ≠ .deleted

/-- `request_vifs` of the two drivers (neutron_vif.py:60–94, nested_vlan_vif.py:58–125):
the VIFs it returns, `none` when it raises, and the ports it leaves in Neutron without
returning them. A failure to tag is ignored. -/
def requestVifs (driver : PoolDriver) (out : Creation) (num : Nat) :
    Option (List Vif) × List Vif :=
  match driver with
  | .neutron =>
    match out.created num with
    | none => (none, [])
    | some [] => (none, [])
    | some vifs =>
      if out.binding = .unbound ∧ ¬ out.shown then (none, vifs)
      else if out.binding = .failed then (none, unboundLeft out.unbindDeleted vifs)
      else (some vifs, [])
  | .nested =>
    if ¬ out.trunk then (none, [])
    -- the VLAN ids limit the number of subports
    else if min num out.vlans = 0 then (some [], [])
    else
      match out.created (min num out.vlans) with
      | none => (none, [])
      | some [] => (none, [])
      | some vifs =>
        if out.binding = .failed then (none, unboundLeft out.unbindDeleted vifs)
        else if out.attached then (some vifs, [])
        else if vifs.any fun v => out.removal v.id = .raised then
          (none, notRemoved out.removal vifs)
        else (some [], notRemoved out.removal vifs)

/-- The options `_populate_pool` reads. -/
structure PopulateConfig extends PoolConfig where
  portsPoolMin : Nat
  portsPoolBatch : Nat

/-- How `_populate_pool` ends. -/
inductive Populated where
  | yes | no | raised
deriving DecidableEq, Repr

/-- `_populate_pool` (vif_pool.py:270–316), with the ports it created in Neutron that are
still there. `locked` when the lock of the pool could be had in time. -/
def populateOrRaise (cfg : PopulateConfig) (locked : Bool) (out : Creation) (p : Pool)
    (key : PoolKey) (sgs : List String) : Pool × List Vif × Populated :=
  if ¬ locked then (p, [], .no)
  else if p.size key < cfg.portsPoolMin then
    let num := max cfg.portsPoolBatch (cfg.portsPoolMin - p.size key)
    match requestVifs cfg.driver out num with
    | (none, left) => (p, left, .raised)
    | (some vifs, left) => (populatePool p key sgs vifs, vifs ++ left, .yes)
  else (p, [], .yes)

/-- The outcomes of the requests of `request_vif`. -/
structure Requesting where
  first : Serving
  locked : Bool
  creation : Creation
  second : Serving

/-- `request_vif` (vif_pool.py:200–224), with the ports created on the way. The key is that
of the pod; a pod without a host gets `None` before any pool is looked at. -/
def requestVif (cfg : PopulateConfig) (out : Requesting) (p : Pool) (key : PoolKey)
    (sgs : List String) : Pool × List Vif × Delivery :=
  match getPortOrRaise cfg.toPoolConfig out.first p key (sorted sgs) with
  | (p, .notReady) =>
    match populateOrRaise cfg out.locked out.creation p key (sorted sgs) with
    | (p, made, .yes) =>
      let (p, answer) := getPortOrRaise cfg.toPoolConfig out.second p key (sorted sgs)
      (p, made, answer)
    | (p, made, .no) => (p, made, .notReady)
    | (p, made, .raised) => (p, made, .raised)
  | (p, answer) => (p, [], answer)

/-! ## Recycling -/

/-- Whether an iteration of `_trigger_return_to_pool` deletes its port in Neutron. -/
def deletesPort (cfg : PoolConfig) (out : Outcome) (p : Pool) (e : PortId × PoolKey) : Bool :=
  !(cfg.portsPoolMax = 0 || p.size e.2 < cfg.portsPoolMax) &&
  (cfg.driver = .neutron || (out.trunk e.2 && out.detached e.1)) &&
  (p.existing.get? e.1).isSome && out.deleted e.1

/-- The ports the loop of `_trigger_return_to_pool` deletes in Neutron. -/
def deletedPorts (cfg : PoolConfig) (out : Outcome) (sgCurrent : PortId → SgKey) :
    Pool → List (PortId × PoolKey) → List PortId
  | _, [] => []
  | p, e :: rest =>
    (if deletesPort cfg out p e then [e.1] else []) ++
    match returnPort cfg out sgCurrent p e with
    | .next p => deletedPorts cfg out sgCurrent p rest
    | .raised _ => []

/-- `_trigger_return_to_pool` with the ports it deletes. Without `port_debug` it starts
with a listing, which may fail. -/
def triggerOrRaise (cfg : PoolConfig) (listing : Bool) (out : Outcome) (listed : PortId → Bool)
    (neutronSgs : PortId → List String) (p : Pool) : Pool × List PortId :=
  if ¬ cfg.portDebug ∧ ¬ listing then (p, [])
  else
    let sgCurrent := fun port =>
      if ¬ cfg.portDebug ∧ listed port then some (sorted (neutronSgs port)) else none
    ((triggerReturnToPool cfg out listed neutronSgs p).pool,
      deletedPorts cfg out sgCurrent p p.recyclable.items)

/-! ## Releasing -/

/-- The host `release_vif` files a port under (vif_pool.py:318–328, 838–861); `none` when the
nested driver ignores the request. `given` is the `host_addr` of the call, which the nested
driver does not have. -/
def releaseHost (driver : PoolDriver) (env : Surroundings) (pod : PodObject) (vif : Vif)
    (given : Option String) : Except Exc (Option String) :=
  match driver, given with
  | .neutron, given =>
    match given.filter (· ≠ "") with
    | some host => .ok (some host)
    | none => some <$> getHostAddr .neutron pod
  | .nested, none => do
    match ← nestedHost env pod vif with
    | none => return none
    -- `if not host_addr` of the base class
    | some host => if host = "" then some <$> getHostAddr .nested pod else return some host
  | .nested, some _ => .error .typeError

/-! ## Removing a security group -/

/-- The ports of a group whose key has been deleted go to the group without security
groups, one by one until an update fails (vif_pool.py:383–388). The ports so updated are
collected. -/
def clearPorts (updated : PortId → Bool) (key : PoolKey) :
    List PortId → Buckets PoolKey SgKey PortId →
      Bool × Buckets PoolKey SgKey PortId × List PortId
  | [], b => (true, b, [])
  | port :: ports, b =>
    if updated port then
      let (ok, b, cleared) := clearPorts updated key ports (push b key (some []) port)
      (ok, b, port :: cleared)
    else (false, b, [])

/-- The loop over the groups of one pool; `false` when it raises. -/
def clearGroupsOrRaise (updated : PortId → Bool) (sgId : String) (key : PoolKey) :
    List (SgKey × List PortId) → Buckets PoolKey SgKey PortId →
      Bool × Buckets PoolKey SgKey PortId × List PortId
  | [], b => (true, b, [])
  | (none, _) :: _, b => (false, b, [])
  | (some sgs, ports) :: rest, b =>
    if sgId ∉ sgs then clearGroupsOrRaise updated sgId key rest b
    else
      match clearPorts updated key ports (b.set key ((row b key).erase (some sgs))) with
      | (false, b, cleared) => (false, b, cleared)
      | (true, b, cleared) =>
        match (row b key).moveToFront (some []) with
        | some d =>
          let (ok, b, more) := clearGroupsOrRaise updated sgId key rest (b.set key d)
          (ok, b, cleared ++ more)
        | none => (false, b, cleared)

/-- The loop over the pools of the network; `false` when it raises. -/
def clearPoolsOrRaise (updated : PortId → Bool) (sgId netId : String) :
    List (PoolKey × Dict SgKey (List PortId)) → Buckets PoolKey SgKey PortId →
      Bool × Buckets PoolKey SgKey PortId × List PortId
  | [], b => (true, b, [])
  | (key, d) :: rest, b =>
    if key.net ≠ netId then clearPoolsOrRaise updated sgId netId rest b
    else
      match clearGroupsOrRaise updated sgId key d.items b with
      | (true, b, cleared) =>
        let (ok, b, more) := clearPoolsOrRaise updated sgId netId rest b
        (ok, b, cleared ++ more)
      | (false, b, cleared) => (false, b, cleared)

/-- `remove_sg_from_pools` (vif_pool.py:365–394), with the ports updated in Neutron; `false`
when it raises. `updated` are the outcomes of `update_port`. -/
def removeSgOrRaise (updated : PortId → Bool) (p : Pool) (sgId netId : String) :
    Bool × Pool × List PortId :=
  let (ok, b, cleared) := clearPoolsOrRaise updated sgId netId p.available.items p.available
  (ok, { p with available := b }, cleared)

/-! ## The system -/

/-- A pool, the ports its pods hold, and the ports created for it that Neutron has. -/
structure PortLedger where
  pool : Pool
  held : List PortId
  live : List PortId

/-- The operations, each with the outcomes of its requests. -/
inductive PoolCall where
  | request (key : PoolKey) (sgs : List String) (out : Requesting)
  | populate (key : PoolKey) (sgs : List String) (locked : Bool) (out : Creation)
  /-- With `retried`, the caller raises what `release_vif` raises and is called again for the
  port, as `on_finalize` is when the pod is there. When it is gone exceptions are ignored, and
  elsewhere the next call does not know of the port. -/
  | release (env : Surroundings) (pod : PodObject) (given : Option String) (retried : Bool)
      (project : String) (vif : Vif)
  | trigger (listing : Bool) (out : Outcome) (listed : PortId → Bool)
      (neutronSgs : PortId → List String)
  | removeSg (sgId netId : String) (updated : PortId → Bool)

/-- The ports a served request hands to its pod. -/
def Delivery.ports : Delivery → List PortId
  | .vif v => [v.id]
  | .notReady | .raised => []

/-- One operation. A port that is passed to `release_vif` is no longer held, unless that raises
and is called again. -/
def PortLedger.step (cfg : PopulateConfig) (l : PortLedger) : PoolCall → PortLedger
  | .request key sgs out =>
    let (pool, made, answer) := requestVif cfg out l.pool key sgs
    ⟨pool, answer.ports ++ l.held, ids made ++ l.live⟩
  | .populate key sgs locked out =>
    let (pool, made, _) := populateOrRaise cfg locked out l.pool key sgs
    ⟨pool, l.held, ids made ++ l.live⟩
  | .release env pod given retried project vif =>
    match releaseHost cfg.driver env pod vif given with
    | .ok (some host) =>
      ⟨releaseVif l.pool host project vif, l.held.filter (· ≠ vif.id), l.live⟩
    | .ok none => ⟨l.pool, l.held.filter (· ≠ vif.id), l.live⟩
    | .error _ => if retried then l else ⟨l.pool, l.held.filter (· ≠ vif.id), l.live⟩
  | .trigger listing out listed neutronSgs =>
    let (pool, deleted) := triggerOrRaise cfg.toPoolConfig listing out listed neutronSgs l.pool
    ⟨pool, l.held, l.live.filter fun port => !deleted.contains port⟩
  | .removeSg sgId netId updated =>
    ⟨(removeSgOrRaise updated l.pool sgId netId).2.1, l.held, l.live⟩

/-- A port is where the pools can find it. -/
def Pool.Has (p : Pool) (port : PortId) : Prop := port ∈ p.ports ∨ port ∈ p.recyclable.keys

/-- `_get_port_from_pool` hands out the port it pops: the requests it makes succeed and the
VIF is known. -/
def Serving.Delivers (cfg : PoolConfig) (out : Serving) (p : Pool) (key : PoolKey)
    (sgs : List String) : Prop :=
  ∀ port other available, takePort p.available key sgs = some (port, other, available) →
    (other = true → out.updated = true) ∧ (cfg.portDebug = true → out.named = true) ∧
      (p.existing.get? port).isSome

/-- `request_vifs` deletes the ports it created when it does not return them. -/
def Creation.Clean (driver : PoolDriver) (out : Creation) : Prop :=
  ∀ num vifs, out.created num = some vifs →
    (driver = .neutron → out.binding = .unbound → out.shown = true) ∧
    (out.binding = .failed → ∀ v ∈ vifs, out.unbindDeleted v.id = true) ∧
    (driver = .nested → out.binding ≠ .failed →
      out.attached = true ∨ ∀ v ∈ vifs, out.removal v.id = .deleted)

/-- `release_vif` records the port, or raises and is called again. -/
def Recorded (driver : PoolDriver) (env : Surroundings) (pod : PodObject) (vif : Vif)
    (given : Option String) (retried : Bool) : Prop :=
  match releaseHost driver env pod vif given with
  | .ok host => host.isSome = true
  | .error _ => retried = true

/-- The steps that lose no port, by the state before the step and the outcomes of its
requests. -/
def Keeps (cfg : PopulateConfig) (l : PortLedger) : PoolCall → Prop
  | .request key sgs out =>
    out.first.Delivers cfg.toPoolConfig l.pool key (sorted sgs) ∧
    -- an empty pool is populated first, then the new port is named
    (takePort l.pool.available key (sorted sgs) = none →
      out.creation.Clean cfg.driver ∧ (cfg.portDebug = true → out.second.named = true))
  | .populate _ _ _ out => out.Clean cfg.driver
  | .release env pod given retried _ vif =>
    vif.id ∈ l.live → l.pool.Has vif.id ∨ Recorded cfg.driver env pod vif given retried
  | .trigger _ _ _ _ =>
    cfg.portsPoolMax = 0 ∨ ∀ port ∈ l.pool.recyclable.keys, (l.pool.existing.get? port).isSome
  | .removeSg sgId netId updated =>
    ∀ key sgs port, (key, some sgs, port) ∈ entries l.pool.available → key.net = netId →
      sgId ∈ sgs → updated port = true

/-! ## Serving -/

/-- With requests that succeed, a request for a port is `_get_port_from_pool`. -/
theorem getPortOrRaise_eq (cfg : PoolConfig) (p : Pool) (key : PoolKey) (sgs : List String) :
    (getPortOrRaise cfg ⟨true, true⟩ p key sgs).1 = (getPortFromPool p key sgs).1 ∧
      (getPortOrRaise cfg ⟨true, true⟩ p key sgs).2
        = match (getPortFromPool p key sgs).2.2 with
          | .vif v => .vif v
          | .notReady => .notReady := by
  unfold getPortOrRaise getPortFromPool
  rcases takePort p.available key sgs with - | ⟨port, other, available⟩
  · exact ⟨rfl, rfl⟩
  · simp only [not_true_eq_false, and_false, if_false]
    cases p.existing.get? port <;> exact ⟨rfl, rfl⟩

theorem foldl_populate_existing (key : PoolKey) (sgs : List String) :
    ∀ (vifs : List Vif) (p : Pool) (port : PortId),
      port ∈ ids vifs ∨ (p.existing.get? port).isSome →
        ((vifs.foldl (fun p v =>
          { p.addExisting v with available := push p.available key (some sgs) v.id })
            p).existing.get?
            port).isSome
  | [], p, port, h => h.resolve_left (by simp [ids])
  | v :: vifs, p, port, h => by
    refine foldl_populate_existing key sgs vifs _ port ?_
    by_cases hv : port = v.id
    · subst hv
      exact .inr (by simp only [Pool.addExisting, Dict.set, Dict.get?_upsert_self,
        Option.isSome_some])
    · refine h.imp (fun hmem => (List.mem_cons.mp hmem).resolve_left hv) fun hex => ?_
      simp only [Pool.addExisting, Dict.set]
      rwa [Dict.get?_upsert_of_ne _ _ hv]

/-- The VIFs of new ports are known, and the others stay. -/
theorem populatePool_known {p : Pool} {key : PoolKey} {sgs : List String} {vifs : List Vif}
    {port : PortId} (h : port ∈ ids vifs ∨ (p.existing.get? port).isSome) :
    ((populatePool p key sgs vifs).existing.get? port).isSome := by
  have hfold := foldl_populate_existing key sgs vifs p port h
  unfold populatePool
  simp only
  split
  · split <;> exact hfold
  · exact hfold

theorem get?_dropExisting {p : Pool} {port q : PortId} (h : q ≠ port) :
    (p.dropExisting port).existing.get? q = p.existing.get? q :=
  Dict.get?_erase_of_ne _ h

/-- An iteration forgets no VIF but that of its port. -/
theorem returnPort_existing {cfg : PoolConfig} {out : Outcome} {sgCurrent : PortId → SgKey}
    {p : Pool} {e : PortId × PoolKey} {q : PortId} (hq : q ≠ e.1) :
    (returnPort cfg out sgCurrent p e).pool.existing.get? q = p.existing.get? q := by
  obtain ⟨port, key⟩ := e
  have hrec : (recycle p port key (sgCurrent port)).existing = p.existing := by
    unfold recycle
    simp only
    split <;> rfl
  unfold returnPort
  simp only
  split
  · split
    · rfl
    · exact congrArg (·.get? q) hrec
  · split
    · split
      · rfl
      · split <;> exact get?_dropExisting hq
    · split
      · rfl
      · split
        · rfl
        · split
          · rfl
          · split <;> exact get?_dropExisting hq

/-- Clearing the ports of a group whose updates succeed is pushing them. -/
theorem clearPorts_eq {updated : PortId → Bool} {key : PoolKey} :
    ∀ {ports : List PortId} {b : Filed}, (∀ port ∈ ports, updated port = true) →
      clearPorts updated key ports b
        = (true, ports.foldl (fun b port => push b key (some []) port) b, ports)
  | [], _, _ => rfl
  | port :: ports, b, h => by
    rw [clearPorts, if_pos (h port List.mem_cons_self),
      clearPorts_eq fun q hq => h q (List.mem_cons_of_mem port hq)]
    rfl

/-- The updates of a list of groups succeed. -/
def Updates (updated : PortId → Bool) (sgId : String) (es : List (SgKey × List PortId)) : Prop :=
  ∀ e ∈ es, ∀ sgs, e.1 = some sgs → sgId ∈ sgs → ∀ port ∈ e.2, updated port = true

theorem clearGroupsOrRaise_eq {updated : PortId → Bool} {sgId : String} {key : PoolKey} :
    ∀ {es : List (SgKey × List PortId)} {b : Filed}, Updates updated sgId es →
      clearGroupsOrRaise updated sgId key es b = clearGroups sgId key es b
  | [], _, _ => rfl
  | (none, _) :: _, _, _ => rfl
  | (some sgs, ports) :: es, b, h => by
    have hrest : Updates updated sgId es := fun e he => h e (List.mem_cons_of_mem _ he)
    rw [clearGroupsOrRaise, clearGroups]
    by_cases hin : sgId ∉ sgs
    · rw [if_pos hin, if_pos hin]
      exact clearGroupsOrRaise_eq hrest
    · rw [if_neg hin, if_neg hin]
      have hports := h _ List.mem_cons_self sgs rfl (not_not.mp hin)
      rw [clearPorts_eq hports, clearGroup]
      simp only
      generalize ports.foldl (fun b port => push b key (some []) port)
        (b.set key ((row b key).erase (some sgs))) = b'
      cases (row b' key).moveToFront (some []) with
      | none => rfl
      | some d =>
        simp only [Option.map_some]
        rw [clearGroupsOrRaise_eq hrest]

variable {cfg : PopulateConfig} {l : PortLedger}

/-- Small pools of the Neutron driver. -/
def smallPools : PopulateConfig where
  driver := .neutron
  portDebug := false
  portsPoolMax := 0
  portsPoolMin := 1
  portsPoolBatch := 1

/-- Requests that all succeed, and create one port. -/
def onePort : Creation where
  trunk := true
  vlans := 1
  created := fun _ => some [⟨"port-1", "net"⟩]
  binding := .bound
  shown := true
  unbindDeleted := fun _ => true
  attached := true
  removal := fun _ => .deleted

end KuryrKubernetes
