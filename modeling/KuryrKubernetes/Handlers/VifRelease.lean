import KuryrKubernetes.Handlers.KuryrPort

/-!
# Releasing the VIFs of a pod

The four places where the KuryrPort handler (`controller/handlers/kuryrport.py`) gives the
VIFs of a pod back to their pool, and what the two pool drivers
(`controller/drivers/vif_pool.py`) make of their arguments.

- `baseReleaseVif`, `nestedReleaseVif`: `release_vif` of `BaseVIFPool` and of
  `NestedVIFPool`. Python does not check the types of arguments, so the host of a
  recorded key need not be an address (`HostAddr`); the number of arguments is checked
  when the call is made (`poolReleaseVif`).
- `onFinalize`, `rollbackRelease`, `onPresentRelease`: the callers.
- `releaseAt_returnsHome_iff`: exactly when the ports are recorded under the key they were
  obtained under.
-/

namespace KuryrKubernetes

open Dicts

/-! ## Keys -/

/-- What `release_vif` takes for the host. -/
inductive HostAddr where
  | address (a : String)
  | groups (sgs : List String)
deriving DecidableEq, Repr

/-- A value of `_recyclable_ports`. -/
structure RecyclableKey where
  host : HostAddr
  project : String
  net : String
deriving DecidableEq, Repr

/-- A tuple is a dictionary key if its components are; a list is none. -/
def RecyclableKey.hashable (k : RecyclableKey) : Bool :=
  match k.host with
  | .address _ => true
  | .groups _ => false

/-- A pool key as it is recorded. -/
def PoolKey.recyclable (k : PoolKey) : RecyclableKey := ⟨.address k.host, k.project, k.net⟩

/-- The truth value of `host_addr`. -/
def HostAddr.given : HostAddr → Bool
  | .address a => a ≠ ""
  | .groups sgs => sgs ≠ []

/-- `_get_pool_key` (vif_pool.py:193–198); `subnets` are the networks of the subnets. -/
def getPoolKey (host project : String) (netId : Option String) (subnets : List String) : PoolKey :=
  ⟨host, project, ((netId.filter (· ≠ "")).orElse fun _ => subnets.head?).getD ""⟩

/-! ## Pods -/

/-- A pod, as far as the handler and the pools read it. -/
structure PodObject where
  name : String
  ns : String
  uid : String
  /-- `spec.nodeName`. -/
  nodeName : Option String
  /-- `status.hostIP`. -/
  hostIP : Option String
  deletionTimestamp : Option String
  /-- `is_pod_completed`. -/
  completed : Bool
deriving DecidableEq, Repr

/-- A KuryrPort with VIFs; the VIFs are different ports, and one of them is the default
one. -/
structure KuryrPortObject where
  name : String
  ns : String
  podUid : String
  podNodeName : String
  deletionTimestamp : Option String
  vifs : Dict String VifEntry
  main : VifEntry
  main_default : vifs.get? defaultIfname = some main
  vifs_nodup : ((vifsOf vifs).map Vif.id).Nodup

/-- What the handler is told from outside. -/
structure Surroundings where
  /-- GET of the pod of a KuryrPort. -/
  pod : Except Exc PodObject
  /-- GET of a node, with the types and values of `status.addresses`. -/
  node : String → Except Exc (List (String × String))
  /-- `get_parent_port_id`. -/
  parentPortId : PortId → Except Exc (Option String)
  /-- `get_parent_port_ip`. -/
  parentPortIp : String → Except Exc String
  /-- `get_project` of a pod, by its namespace. -/
  project : String → String
  /-- `delete_sg_rules`. -/
  deleteSgRules : Except Exc Unit

/-- `_get_host_addr` (vif_pool.py:190–191, 648–649). -/
def getHostAddr (driver : PoolDriver) (pod : PodObject) : Except Exc String :=
  match driver with
  | .neutron => match pod.nodeName with
    | some name => .ok name
    | none => .error .keyError
  | .nested => match pod.hostIP with
    | some ip => .ok ip
    | none => .error .keyError

/-! ## The pools -/

/-- The part of a pool that releasing touches. -/
structure Recycler where
  /-- `_recovered_pools`. -/
  recovered : Bool
  existing : Dict PortId Vif
  recyclable : Dict PortId RecyclableKey

/-- The entries `release_vif` makes for a port. -/
def Recycler.record (r : Recycler) (vif : Vif) (key : RecyclableKey) : Recycler :=
  { r with
    existing := if (r.existing.get? vif.id).isSome then r.existing else r.existing.set vif.id vif
    recyclable := r.recyclable.set vif.id key }

/-- `BaseVIFPool.release_vif` (vif_pool.py:318–334). -/
def baseReleaseVif (driver : PoolDriver) (r : Recycler) (pod : PodObject) (vif : Vif)
    (project : String) (hostAddr : Option HostAddr) : Except Exc Recycler :=
  if ¬ r.recovered then .error .notReady
  else
    match hostAddr.filter HostAddr.given with
    | some host => .ok (r.record vif ⟨host, project, vif.network⟩)
    | none => do
      let host ← getHostAddr driver pod
      return r.record vif ⟨.address host, project, vif.network⟩

/-- The host `NestedVIFPool.release_vif` finds (vif_pool.py:842–858); `none` when the port
is in no trunk. -/
def nestedHost (env : Surroundings) (pod : PodObject) (vif : Vif) : Except Exc (Option String) :=
  match pod.hostIP with
  | some ip => .ok (some ip)
  | none => do
    match ← env.parentPortId vif.id with
    | none => return none
    | some parent => some <$> env.parentPortIp parent

/-- `NestedVIFPool.release_vif` (vif_pool.py:838–861). -/
def nestedReleaseVif (env : Surroundings) (r : Recycler) (pod : PodObject) (vif : Vif)
    (project : String) : Except Exc Recycler :=
  if ¬ r.recovered then .error .notReady
  else do
    match ← nestedHost env pod vif with
    | none => return r
    | some host => baseReleaseVif .nested r pod vif project (some (.address host))

/-- `MultiVIFPool.release_vif(pod, vif, project_id, *rest)` (vif_pool.py:1219–1221): the
nested driver takes no further argument. -/
def poolReleaseVif (driver : PoolDriver) (env : Surroundings) (r : Recycler) (pod : PodObject)
    (vif : Vif) (project : String) (rest : Option HostAddr) : Except Exc Recycler :=
  match driver, rest with
  | .neutron, host => baseReleaseVif .neutron r pod vif project host
  | .nested, none => nestedReleaseVif env r pod vif project
  | .nested, some _ => .error .typeError

/-! ## The handler -/

/-- The loops over the VIFs; `cleanup` ignores every exception. -/
def releaseLoop (release : Recycler → Vif → Except Exc Recycler) (cleanup : Bool) :
    Recycler → List Vif → Except Exc Unit × Recycler
  | r, [] => (.ok (), r)
  | r, vif :: rest =>
    match release r vif with
    | .ok r => releaseLoop release cleanup r rest
    | .error e => if cleanup then releaseLoop release cleanup r rest else (.error e, r)

/-- The rollback of `get_vifs` (kuryrport.py:349–350). -/
def rollbackRelease (driver : PoolDriver) (env : Surroundings) (r : Recycler) (pod : PodObject)
    (vifs : List Vif) : Except Exc Unit × Recycler :=
  releaseLoop (fun r vif => poolReleaseVif driver env r pod vif (env.project pod.ns) none)
    false r vifs

/-- `on_present` for a KuryrPort that is gone (kuryrport.py:118–125). It passes the
security groups of the pod. -/
def onPresentRelease (driver : PoolDriver) (env : Surroundings) (r : Recycler) (pod : PodObject)
    (sgs : List String) (vifs : List Vif) : Except Exc Unit × Recycler :=
  releaseLoop (fun r vif => poolReleaseVif driver env r pod vif (env.project pod.ns)
    (some (.groups sgs))) false r vifs

/-- `K8S_NODE_ADDRESS_INTERNAL`. -/
def nodeAddressInternal : String := "InternalIP"

/-- The address of the node of a KuryrPort (kuryrport.py:163–173). -/
def nodeAddress (env : Surroundings) (kp : KuryrPortObject) : Except Exc (Option String) :=
  match env.node kp.podNodeName with
  | .ok addresses => .ok ((addresses.find? (·.1 = nodeAddressInternal)).map Prod.snd)
  | .error e => if e.isK8sClient then .ok none else .error e

/-- The `status.hostIP` of the mocked pod (kuryrport.py:163–182). -/
def mockHostIp (env : Surroundings) (kp : KuryrPortObject) : Except Exc (Option String) := do
  match (← nodeAddress env kp).filter (· ≠ "") with
  | some ip => return some ip
  | none =>
    match ← env.parentPortId kp.main.vif.id with
    | none => return none
    | some port => (some <$> env.parentPortIp port : Except Exc (Option String))

/-- `_mock_cleanup_pod` (kuryrport.py:147–186): the metadata of the KuryrPort, no `spec`. -/
def mockCleanupPod (env : Surroundings) (kp : KuryrPortObject) : Except Exc PodObject := do
  let hostIp ← mockHostIp env kp
  return { name := kp.name, ns := kp.ns, uid := "", nodeName := none
           hostIP := hostIp.filter (· ≠ ""), deletionTimestamp := kp.deletionTimestamp
           completed := false }

/-- The pod `on_finalize` works with, and whether it cleans up (kuryrport.py:188–218). -/
def finalizedPod (env : Surroundings) (kp : KuryrPortObject) : Except Exc (PodObject × Bool) :=
  match env.pod with
  | .ok pod =>
    if pod.uid = kp.podUid then .ok (pod, false)
    else do return (← mockCleanupPod env kp, true)
  | .error .k8sNotFound => do return (← mockCleanupPod env kp, true)
  | .error e => .error e

/-- `on_finalize` up to the finalizers (kuryrport.py:188–258). -/
def onFinalize (driver : PoolDriver) (env : Surroundings) (kp : KuryrPortObject) (r : Recycler) :
    Except Exc Unit × Recycler :=
  match finalizedPod env kp with
  | .error e => (.error e, r)
  | .ok (pod, cleanup) =>
    if pod.deletionTimestamp.isNone ∧ ¬ pod.completed then (.ok (), r)
    else
      let release := releaseLoop (fun r vif =>
        poolReleaseVif driver env r pod vif (env.project pod.ns) none) cleanup r (vifsOf kp.vifs)
      match env.deleteSgRules with
      | .ok () | .error .notReady => release
      | .error e => (.error e, r)

/-! ## The loops -/

/-- What a loop over some VIFs does: `outcome` says what is recorded for a VIF, if anything.
An exception is survived by a cleanup only. -/
def Records (release : Recycler → Vif → Except Exc Recycler) (cleanup : Bool)
    (outcome : Vif → Option RecyclableKey) (vifs : List Vif) : Prop :=
  ∀ (r : Recycler) (vif : Vif), r.recovered = true → vif ∈ vifs →
    (∃ key, outcome vif = some key ∧ release r vif = .ok (r.record vif key)) ∨
    (outcome vif = none ∧
      (release r vif = .ok r ∨ (cleanup = true ∧ ∃ e, release r vif = .error e)))

section

variable {release : Recycler → Vif → Except Exc Recycler} {cleanup : Bool}
  {outcome : Vif → Option RecyclableKey}

/-- The first VIF of a loop. -/
theorem Records.step {vif : Vif} {rest : List Vif} {r : Recycler}
    (h : Records release cleanup outcome (vif :: rest)) (hrec : r.recovered = true) :
    ∃ r₁, releaseLoop release cleanup r (vif :: rest) = releaseLoop release cleanup r₁ rest ∧
      r₁.recovered = true ∧
      r₁.recyclable.get? vif.id = (outcome vif).or (r.recyclable.get? vif.id) ∧
      ∀ port, port ≠ vif.id → r₁.recyclable.get? port = r.recyclable.get? port := by
  rw [releaseLoop]
  rcases h r vif hrec List.mem_cons_self with ⟨key, hkey, hok⟩ | ⟨hnone, hok | ⟨rfl, e, herr⟩⟩
  · rw [hok, hkey]
    exact ⟨r.record vif key, rfl, hrec, Dict.get?_upsert_self _ _ _,
      fun port hport => Dict.get?_upsert_of_ne _ _ hport⟩
  · rw [hok, hnone]
    exact ⟨r, rfl, hrec, rfl, fun _ _ => rfl⟩
  · rw [herr, hnone]
    exact ⟨r, rfl, hrec, rfl, fun _ _ => rfl⟩

/-- **The loop records the outcome of every VIF**, and nothing else. -/
theorem Records.get? :
    ∀ {vifs : List Vif} {r : Recycler}, Records release cleanup outcome vifs →
      (vifs.map Vif.id).Nodup → r.recovered = true →
      (∀ vif ∈ vifs, (releaseLoop release cleanup r vifs).2.recyclable.get? vif.id
        = (outcome vif).or (r.recyclable.get? vif.id)) ∧
      (∀ port, port ∉ vifs.map Vif.id →
        (releaseLoop release cleanup r vifs).2.recyclable.get? port = r.recyclable.get? port)
  | [], _, _, _, _ => ⟨fun _ h => (nomatch h), fun _ _ => rfl⟩
  | vif :: rest, r, h, hnd, hrec => by
    obtain ⟨hvif, hnd⟩ := List.nodup_cons.mp hnd
    obtain ⟨r₁, hloop, hrec₁, hself, hother⟩ := h.step hrec
    have hrest : Records release cleanup outcome rest := fun r v hr hv =>
      h r v hr (List.mem_cons_of_mem _ hv)
    obtain ⟨hin, hout⟩ := hrest.get? hnd hrec₁
    rw [hloop]
    refine ⟨fun v hv => ?_, fun port hport => ?_⟩
    · rcases List.mem_cons.mp hv with rfl | hv
      · rw [hout v.id hvif, hself]
      · have hne : v.id ≠ vif.id := fun heq => hvif (heq ▸ List.mem_map_of_mem hv)
        rw [hin v hv, hother v.id hne]
    · rw [List.map_cons, List.mem_cons, not_or] at hport
      rw [hout port hport.2, hother port hport.1]

end

/-! ## Where ports return to -/

/-- The places where VIFs are released. -/
inductive ReleaseSite where
  /-- `on_finalize`, the pod is there. -/
  | finalize
  /-- `on_finalize` of a KuryrPort whose pod is gone. -/
  | orphan
  /-- `get_vifs`, when the status cannot be patched. -/
  | rollback
  /-- `on_present`, when the KuryrPort is gone; the pod has these security groups. -/
  | notFound (sgs : List String)
deriving DecidableEq, Repr

/-- The release at a place, for the VIFs of a KuryrPort and its pod. -/
def releaseAt (site : ReleaseSite) (driver : PoolDriver) (env : Surroundings) (kp : KuryrPortObject)
    (pod : PodObject) (r : Recycler) : Except Exc Unit × Recycler :=
  match site with
  | .finalize | .orphan => onFinalize driver env kp r
  | .rollback => rollbackRelease driver env r pod (vifsOf kp.vifs)
  | .notFound sgs => onPresentRelease driver env r pod sgs (vifsOf kp.vifs)

/-- The situation of a place: the pod is deleted or completed and is there, or it is gone
and its node exists. Deleting the rules of the pod does not fail. -/
def ReleaseSite.Reached (site : ReleaseSite) (env : Surroundings) (kp : KuryrPortObject)
    (pod : PodObject) : Prop :=
  match site with
  | .finalize => env.pod = .ok pod ∧ pod.uid = kp.podUid ∧
      (pod.deletionTimestamp.isSome ∨ pod.completed) ∧ env.deleteSgRules = .ok ()
  | .orphan => (env.pod = .error .k8sNotFound ∨ ∃ p, env.pod = .ok p ∧ p.uid ≠ kp.podUid) ∧
      kp.ns = pod.ns ∧ kp.deletionTimestamp.isSome ∧ env.deleteSgRules = .ok () ∧
      ∃ addresses, env.node kp.podNodeName = .ok addresses
  | .rollback | .notFound _ => True

/-- The host is found again. -/
def ReleaseSite.FindsHost (site : ReleaseSite) (driver : PoolDriver) (env : Surroundings)
    (kp : KuryrPortObject) (host : String) : Prop :=
  match site, driver with
  | .finalize, _ | .rollback, _ => True
  | .orphan, .neutron => False
  | .orphan, .nested => ∀ vif ∈ vifsOf kp.vifs,
      (mockCleanupPod env kp >>= fun pod => nestedHost env pod vif) = .ok (some host)
  | .notFound sgs, .neutron => sgs = []
  | .notFound _, .nested => False

/-- `request_vif` hands out a VIF for a pod under a key (vif_pool.py:203–224): the host is
that of the pod, the network the one the VIF is on. -/
structure ObtainedUnder (driver : PoolDriver) (pod : PodObject) (project : String) (vif : Vif)
    (key : PoolKey) : Prop where
  host : getHostAddr driver pod = .ok key.host
  host_ne : key.host ≠ ""
  key_eq : ∃ subnets, getPoolKey key.host project none subnets = key
  network : vif.network = key.net

/-- The ports of the VIFs are recorded under their keys, and what is recorded can be used
as a key. -/
def ReturnsHome (keyOf : Vif → PoolKey) (vifs : List Vif) (r r' : Recycler) : Prop :=
  (∀ vif ∈ vifs, r'.recyclable.get? vif.id = some (keyOf vif).recyclable) ∧
  ∀ port key, r'.recyclable.get? port = some key →
    r.recyclable.get? port = some key ∨ key.hashable = true

section

variable {driver : PoolDriver} {env : Surroundings} {kp : KuryrPortObject} {r : Recycler}
  {keyOf : Vif → PoolKey}

theorem ObtainedUnder.recyclable_eq {pod : PodObject} {project : String} {vif : Vif} {key : PoolKey}
    (h : ObtainedUnder driver pod project vif key) :
    key.recyclable = ⟨.address key.host, project, vif.network⟩ := by
  obtain ⟨subnets, heq⟩ := h.key_eq
  have hproject : key.project = project := by rw [← heq]; rfl
  rw [PoolKey.recyclable, hproject, h.network]

/-- What a loop records, against what it should record. -/
theorem Records.returnsHome_iff {release : Recycler → Vif → Except Exc Recycler} {cleanup : Bool}
    {outcome : Vif → Option RecyclableKey} (h : Records release cleanup outcome (vifsOf kp.vifs))
    (hrec : r.recovered = true)
    (hheld : ∀ vif ∈ vifsOf kp.vifs, r.recyclable.get? vif.id = none) :
    ReturnsHome keyOf (vifsOf kp.vifs) r (releaseLoop release cleanup r (vifsOf kp.vifs)).2 ↔
      ∀ vif ∈ vifsOf kp.vifs, outcome vif = some (keyOf vif).recyclable := by
  obtain ⟨hin, hout⟩ := h.get? kp.vifs_nodup hrec
  have hin' : ∀ vif ∈ vifsOf kp.vifs,
      (releaseLoop release cleanup r (vifsOf kp.vifs)).2.recyclable.get? vif.id = outcome vif := by
    intro vif hvif
    rw [hin vif hvif, hheld vif hvif, Option.or_none]
  constructor
  · intro hhome vif hvif
    rw [← hin' vif hvif]
    exact hhome.1 vif hvif
  · intro hall
    refine ⟨fun vif hvif => (hin' vif hvif).trans (hall vif hvif), fun port key hkey => ?_⟩
    by_cases hport : port ∈ (vifsOf kp.vifs).map Vif.id
    · obtain ⟨vif, hvif, rfl⟩ := List.mem_map.mp hport
      rw [hin' vif hvif, hall vif hvif] at hkey
      cases hkey
      exact .inr rfl
    · rw [hout port hport] at hkey
      exact .inl hkey

/-- With the pod itself every VIF is recorded under the host of the pod. -/
theorem records_of_host {pod : PodObject} {host project : String} {cleanup : Bool} {vifs : List Vif}
    (hhost : getHostAddr driver pod = .ok host) (hne : host ≠ "") :
    Records (fun r vif => poolReleaseVif driver env r pod vif project none) cleanup
      (fun vif => some ⟨.address host, project, vif.network⟩) vifs := by
  intro r vif hrec _
  refine .inl ⟨_, rfl, ?_⟩
  cases driver with
  | neutron =>
    simp [poolReleaseVif, baseReleaseVif, hrec, hhost, bind, Except.bind, pure, Except.pure]
  | nested =>
    have hip : pod.hostIP = some host := by
      unfold getHostAddr at hhost
      cases hip : pod.hostIP with
      | none => simp [hip] at hhost
      | some ip => simpa [hip] using hhost
    simp [poolReleaseVif, nestedReleaseVif, nestedHost, baseReleaseVif, hrec, hip, bind,
      Except.bind, Option.filter, HostAddr.given, hne]

/-- The mocked pod has no `spec`, so the Neutron driver finds no host. -/
theorem records_of_mock_neutron {pod : PodObject} {project : String} {vifs : List Vif}
    (hpod : pod.nodeName = none) :
    Records (fun r vif => poolReleaseVif .neutron env r pod vif project none) true
      (fun _ => none) vifs := by
  intro r vif hrec _
  refine .inr ⟨rfl, .inr ⟨rfl, .keyError, ?_⟩⟩
  simp [poolReleaseVif, baseReleaseVif, hrec, getHostAddr, hpod, bind, Except.bind]

/-- The nested driver records a port under the host it finds for it. -/
theorem records_of_nestedHost {pod : PodObject} {project : String} {vifs : List Vif}
    (hpod : ∀ ip, pod.hostIP = some ip → ip ≠ "") :
    Records (fun r vif => poolReleaseVif .nested env r pod vif project none) true
      (fun vif => match nestedHost env pod vif with
        | .ok (some host) => if host ≠ "" then some ⟨.address host, project, vif.network⟩ else none
        | _ => none) vifs := by
  intro r vif hrec _
  simp only [poolReleaseVif, nestedReleaseVif, hrec]
  cases hhost : nestedHost env pod vif with
  | error e => exact .inr ⟨rfl, .inr ⟨trivial, e, rfl⟩⟩
  | ok host? =>
    cases host? with
    | none => exact .inr ⟨rfl, .inl rfl⟩
    | some host =>
      by_cases hne : host ≠ ""
      · refine .inl ⟨⟨.address host, project, vif.network⟩, by simp [hne], ?_⟩
        simp [baseReleaseVif, hrec, bind, Except.bind, Option.filter, HostAddr.given, hne]
      · -- an empty address comes from Neutron, and then the pod has none either
        have hip : pod.hostIP = none := by
          cases hip : pod.hostIP with
          | none => rfl
          | some ip =>
            rw [nestedHost, hip] at hhost
            cases hhost
            exact absurd (hpod _ hip) hne
        refine .inr ⟨by simp [hne], .inr ⟨trivial, .keyError, ?_⟩⟩
        simp [baseReleaseVif, hrec, bind, Except.bind, Option.filter, HostAddr.given, hne,
          getHostAddr, hip]

/-- Security groups in the place of the host. -/
theorem records_of_groups {pod : PodObject} {host project : String} {sgs : List String}
    {vifs : List Vif} (hhost : getHostAddr .neutron pod = .ok host) :
    Records (fun r vif => poolReleaseVif .neutron env r pod vif project (some (.groups sgs))) false
      (fun vif => some (if sgs = [] then ⟨.address host, project, vif.network⟩
        else ⟨.groups sgs, project, vif.network⟩)) vifs := by
  intro r vif hrec _
  refine .inl ⟨_, rfl, ?_⟩
  by_cases hsgs : sgs = []
  · simp [poolReleaseVif, baseReleaseVif, hrec, hhost, bind, Except.bind, pure, Except.pure, hsgs,
      Option.filter, HostAddr.given]
  · simp [poolReleaseVif, baseReleaseVif, hrec, hsgs, Option.filter, HostAddr.given]

end

/-! ## Ports that return to their pool -/

section

variable {driver : PoolDriver} {env : Surroundings} {kp : KuryrPortObject} {pod : PodObject}

theorem finalizedPod_orphan
    (h : env.pod = .error .k8sNotFound ∨ ∃ p, env.pod = .ok p ∧ p.uid ≠ kp.podUid) :
    finalizedPod env kp = (mockCleanupPod env kp).map fun pod => (pod, true) := by
  unfold finalizedPod
  rcases h with h | ⟨p, h, hne⟩
  · rw [h]
    rfl
  · rw [h]
    simp only [hne, if_false]
    rfl

/-- The mocked pod: deleted like its KuryrPort, without a node. -/
theorem mockCleanupPod_ok (h : mockCleanupPod env kp = .ok pod) :
    pod.ns = kp.ns ∧ pod.nodeName = none ∧ pod.deletionTimestamp = kp.deletionTimestamp ∧
      ∀ ip, pod.hostIP = some ip → ip ≠ "" := by
  unfold mockCleanupPod at h
  cases hip : mockHostIp env kp with
  | error e => rw [hip] at h; cases h
  | ok ip? =>
    rw [hip] at h
    cases h
    refine ⟨rfl, rfl, rfl, fun ip h => ?_⟩
    simpa using (Option.filter_eq_some_iff.mp h).2

theorem mem_vifsOf_main (kp : KuryrPortObject) : kp.main.vif ∈ vifsOf kp.vifs :=
  List.mem_map.mpr ⟨(defaultIfname, kp.main), Dict.get?_eq_some.mp kp.main_default, rfl⟩

section

variable {r : Recycler} {keyOf : Vif → PoolKey} {host : String}

/-- Nothing is recorded. -/
theorem not_returnsHome_self (hheld : ∀ vif ∈ vifsOf kp.vifs, r.recyclable.get? vif.id = none) :
    ¬ ReturnsHome keyOf (vifsOf kp.vifs) r r := by
  intro h
  have hmain := h.1 kp.main.vif (mem_vifsOf_main kp)
  rw [hheld kp.main.vif (mem_vifsOf_main kp)] at hmain
  cases hmain

variable (hrec : r.recovered = true)
  (hheld : ∀ vif ∈ vifsOf kp.vifs, r.recyclable.get? vif.id = none)
  (hkey : ∀ vif ∈ vifsOf kp.vifs,
    (keyOf vif).recyclable = ⟨.address host, env.project pod.ns, vif.network⟩)
  (hhost : getHostAddr driver pod = .ok host) (hne : host ≠ "")

include hrec hheld hkey hhost hne

theorem releaseLoop_returnsHome {cleanup : Bool} :
    ReturnsHome keyOf (vifsOf kp.vifs) r
      (releaseLoop (fun r vif => poolReleaseVif driver env r pod vif (env.project pod.ns) none)
        cleanup r (vifsOf kp.vifs)).2 :=
  ((records_of_host hhost hne).returnsHome_iff hrec hheld).mpr fun vif hvif => by rw [hkey vif hvif]

theorem onFinalize_returnsHome (hsite : ReleaseSite.finalize.Reached env kp pod) :
    ReturnsHome keyOf (vifsOf kp.vifs) r (onFinalize driver env kp r).2 := by
  obtain ⟨hpod, huid, hdel, hrules⟩ := hsite
  have hnot : ¬ (pod.deletionTimestamp.isNone = true ∧ ¬ pod.completed = true) := by
    rintro ⟨h, h'⟩
    rcases hdel with hd | hd
    · cases hts : pod.deletionTimestamp with
      | none => rw [hts] at hd; cases hd
      | some t => rw [hts] at h; cases h
    · exact h' hd
  have heq : (onFinalize driver env kp r).2
      = (releaseLoop (fun r vif => poolReleaseVif driver env r pod vif (env.project pod.ns) none)
          false r (vifsOf kp.vifs)).2 := by
    simp only [onFinalize, finalizedPod, hpod, huid, if_true, hrules]
    rw [if_neg hnot]
  rw [heq]
  exact releaseLoop_returnsHome hrec hheld hkey hhost hne

omit hne in
theorem onPresentRelease_returnsHome_iff (sgs : List String) :
    ReturnsHome keyOf (vifsOf kp.vifs) r
        (onPresentRelease driver env r pod sgs (vifsOf kp.vifs)).2 ↔
      driver = .neutron ∧ sgs = [] := by
  cases driver with
  | neutron =>
    refine ((records_of_groups hhost).returnsHome_iff hrec hheld).trans ?_
    constructor
    · intro h
      refine ⟨rfl, ?_⟩
      have hmain := h kp.main.vif (mem_vifsOf_main kp)
      rw [hkey _ (mem_vifsOf_main kp)] at hmain
      by_contra hsgs
      rw [if_neg hsgs] at hmain
      cases hmain
    · rintro ⟨-, rfl⟩ vif hvif
      rw [hkey vif hvif, if_pos rfl]
  | nested =>
    -- the first call has one argument too many
    have hself : (onPresentRelease .nested env r pod sgs (vifsOf kp.vifs)).2 = r := by
      unfold onPresentRelease
      cases hv : vifsOf kp.vifs with
      | nil => rfl
      | cons vif rest => rfl
    rw [hself]
    exact iff_of_false (not_returnsHome_self hheld) fun h => nomatch h.1

theorem onFinalize_orphan_returnsHome_iff (hsite : ReleaseSite.orphan.Reached env kp pod) :
    ReturnsHome keyOf (vifsOf kp.vifs) r (onFinalize driver env kp r).2 ↔
      ReleaseSite.orphan.FindsHost driver env kp host := by
  obtain ⟨hpod, hns, hdel, hrules, -⟩ := hsite
  unfold onFinalize
  rw [finalizedPod_orphan hpod]
  cases hmock : mockCleanupPod env kp with
  | error e =>
    refine iff_of_false (not_returnsHome_self hheld) fun h => ?_
    cases driver with
    | neutron => exact h
    | nested =>
      have hmain := h kp.main.vif (mem_vifsOf_main kp)
      rw [hmock] at hmain
      cases hmain
  | ok mock =>
    obtain ⟨hmockNs, hnode, hts, hip⟩ := mockCleanupPod_ok hmock
    have hnot : ¬ (mock.deletionTimestamp.isNone = true ∧ ¬ mock.completed = true) := by
      rintro ⟨h, -⟩
      rw [hts] at h
      cases hd : kp.deletionTimestamp with
      | none => rw [hd] at hdel; cases hdel
      | some t => rw [hd] at h; cases h
    have hproject : env.project mock.ns = env.project pod.ns := by rw [hmockNs, hns]
    simp only [Except.map, hrules]
    rw [if_neg hnot, hproject]
    cases driver with
    | neutron =>
      refine ((records_of_mock_neutron hnode).returnsHome_iff hrec hheld).trans ?_
      exact iff_of_false (fun h => nomatch h kp.main.vif (mem_vifsOf_main kp)) id
    | nested =>
      refine ((records_of_nestedHost hip).returnsHome_iff hrec hheld).trans ?_
      refine forall₂_congr fun vif hvif => ?_
      rw [hkey vif hvif, hmock]
      show _ ↔ nestedHost env mock vif = .ok (some host)
      cases hfound : nestedHost env mock vif with
      | error e => simp
      | ok found =>
        cases found with
        | none => simp
        | some host' =>
          by_cases h' : host' = ""
          · simp [h', hne.symm]
          · simp [h']

end

end

/-- **Released ports go back to the pool they came from**, exactly when the host is found
again. -/
theorem releaseAt_returnsHome_iff (site : ReleaseSite) (driver : PoolDriver) (env : Surroundings)
    (kp : KuryrPortObject) (pod : PodObject) (r : Recycler) (keyOf : Vif → PoolKey) (host : String)
    (hrec : r.recovered = true)
    (hheld : ∀ vif ∈ vifsOf kp.vifs, r.recyclable.get? vif.id = none)
    (hobtained : ∀ vif ∈ vifsOf kp.vifs,
      ObtainedUnder driver pod (env.project pod.ns) vif (keyOf vif))
    (hhost : getHostAddr driver pod = .ok host)
    (hsite : site.Reached env kp pod) :
    ReturnsHome keyOf (vifsOf kp.vifs) r (releaseAt site driver env kp pod r).2 ↔
      site.FindsHost driver env kp host := by
  have hkey : ∀ vif ∈ vifsOf kp.vifs, (keyOf vif).recyclable
      = ⟨.address host, env.project pod.ns, vif.network⟩ := by
    intro vif hvif
    cases (hobtained vif hvif).host.symm.trans hhost
    exact (hobtained vif hvif).recyclable_eq
  have hne : host ≠ "" := by
    have hmain := hobtained kp.main.vif (mem_vifsOf_main kp)
    cases hmain.host.symm.trans hhost
    exact hmain.host_ne
  cases site with
  | finalize =>
    exact iff_of_true (onFinalize_returnsHome hrec hheld hkey hhost hne hsite) trivial
  | orphan => exact onFinalize_orphan_returnsHome_iff hrec hheld hkey hhost hne hsite
  | rollback => exact iff_of_true (releaseLoop_returnsHome hrec hheld hkey hhost hne) trivial
  | notFound sgs =>
    refine (onPresentRelease_returnsHome_iff hrec hheld hkey hhost sgs).trans ?_
    cases driver with
    | neutron => exact ⟨And.right, fun h => ⟨rfl, h⟩⟩
    | nested => exact ⟨fun h => (nomatch h.1), False.elim⟩

/-- A deleted pod on `node-1`. -/
def deletedPod : PodObject :=
  ⟨"web-0", "shop", "uid-1", some "node-1", some "10.1.0.4", some "now", false⟩

/-- Its KuryrPort. -/
def webKuryrPort : KuryrPortObject where
  name := "web-0"
  ns := "shop"
  podUid := "uid-1"
  podNodeName := "node-1"
  deletionTimestamp := some "now"
  vifs := ⟨[("eth0", ⟨true, ⟨"port-1", "net-1"⟩⟩)], by decide⟩
  main := ⟨true, ⟨"port-1", "net-1"⟩⟩
  main_default := by decide
  vifs_nodup := by decide

/-- The cluster of that pod; its node is known by one internal address. -/
def webSurroundings : Surroundings where
  pod := .ok deletedPod
  node := fun _ => .ok [("Hostname", "node-1"), ("InternalIP", "10.1.0.4")]
  parentPortId := fun _ => .ok none
  parentPortIp := fun _ => .error .osNotFound
  project := fun _ => "project"
  deleteSgRules := .ok ()

/-- The pools after a restart. -/
def freshRecycler : Recycler := ⟨true, Dict.empty, Dict.empty⟩

theorem deletedPod_obtained (driver : PoolDriver) (host : String)
    (hhost : getHostAddr driver deletedPod = .ok host) (hne : host ≠ "") :
    ∀ vif ∈ vifsOf webKuryrPort.vifs, ObtainedUnder driver deletedPod
      (webSurroundings.project deletedPod.ns) vif ⟨host, "project", vif.network⟩ := by
  intro vif hvif
  obtain rfl := List.mem_singleton.mp hvif
  exact ⟨hhost, hne, ⟨["net-1"], rfl⟩, rfl⟩

theorem releaseAt_returnsHome_nested_finalize :
    ReturnsHome (fun vif => ⟨"10.1.0.4", "project", vif.network⟩) (vifsOf webKuryrPort.vifs)
      freshRecycler
      (releaseAt .finalize .nested webSurroundings webKuryrPort deletedPod freshRecycler).2 :=
  (releaseAt_returnsHome_iff .finalize .nested webSurroundings webKuryrPort deletedPod freshRecycler
    (fun vif => ⟨"10.1.0.4", "project", vif.network⟩) "10.1.0.4" rfl (fun _ _ => rfl)
    (deletedPod_obtained .nested "10.1.0.4" rfl (by decide)) rfl
    ⟨rfl, rfl, .inl rfl, rfl⟩).mpr trivial

/-- When the KuryrPort is gone, the security groups end up in the place of the host: the
port is recorded under something that is no key. -/
theorem onPresentRelease_records_groups :
    (releaseAt (.notFound ["default"]) .neutron webSurroundings webKuryrPort deletedPod
        freshRecycler).2.recyclable.get? "port-1"
        = some ⟨.groups ["default"], "project", "net-1"⟩ ∧
      RecyclableKey.hashable ⟨.groups ["default"], "project", "net-1"⟩ = false ∧
      ¬ ReturnsHome (fun vif => ⟨"node-1", "project", vif.network⟩) (vifsOf webKuryrPort.vifs)
        freshRecycler (releaseAt (.notFound ["default"]) .neutron webSurroundings webKuryrPort
          deletedPod freshRecycler).2 := by
  refine ⟨by decide, rfl, fun h => ?_⟩
  have hmain := h.1 ⟨"port-1", "net-1"⟩ (by decide)
  exact absurd hmain (by decide)

end KuryrKubernetes
