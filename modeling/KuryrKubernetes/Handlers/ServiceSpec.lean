import KuryrKubernetes.K8s.Objects
import KuryrKubernetes.Lib.Result
import KuryrKubernetes.Lib.Text

/-!
# Changes of a Service

`ServiceHandler` writes the spec of a KuryrLoadBalancer from a Service, and on every
later event of the Service decides whether to write it again.

- `Service`, `Spec`: the fields the handler reads and writes. A port entry is a
  dictionary, since the handler passes it on with whatever keys it has.
- `Spec.prune`: the API server drops the keys of a port that the CRD schema does not
  declare. The other properties the handler writes are all declared.
- `Spec.patchCrd`: the JSON patch replaces one property per key of the new spec, so a
  property the new spec does not have stays.
- `hasLbaasSpecChanges` compares the ports of the Service as they are with the pruned
  ones, and reads neither `type` nor `lb_ip`.

`has_port_changes` writes its texts back into the Service it was given, and the builder
then finds texts; the spec is the same either way.
-/

namespace KuryrKubernetes

namespace ServiceHandler

open Dicts Results Texts

/-! ## Objects -/

/-- The values of a port entry. -/
inductive Value where
  | str (s : String)
  | int (n : Int)
deriving DecidableEq, Repr

/-- `str(v)`. -/
def Value.toStr : Value → Value
  | .str s => .str s
  | .int n => .str (toString n)

abbrev Port := Dict String Value

structure Service where
  annotations : Option (Dict String (List Char))
  clusterIP : Option String
  loadBalancerIP : Option String
  ports : Option (List Port)
  type : Option String
deriving DecidableEq, Repr

/-- The spec of a KuryrLoadBalancer; `endpointSlices` belongs to another handler. -/
structure Spec where
  ip : Option String
  lbIp : Option String
  ports : Option (List Port)
  projectId : Option String
  securityGroupsIds : Option (List String)
  subnetId : Option String
  type : Option String
  provider : Option String
  timeoutClientData : Option Int
  timeoutMemberData : Option Int
deriving DecidableEq, Repr

/-- The properties of a port that the CRD schema declares. -/
def portProperties : List String := ["name", "port", "protocol", "targetPort"]

/-- What the API server keeps of a spec. -/
def Spec.prune (s : Spec) : Spec :=
  { s with ports := s.ports.map (List.map (·.restrict portProperties)) }

/-- `patch_crd('spec', link, new)`. -/
def Spec.patchCrd (old new : Spec) : Spec where
  ip := new.ip <|> old.ip
  lbIp := new.lbIp <|> old.lbIp
  ports := new.ports <|> old.ports
  projectId := new.projectId <|> old.projectId
  securityGroupsIds := new.securityGroupsIds <|> old.securityGroupsIds
  subnetId := new.subnetId <|> old.subnetId
  type := new.type <|> old.type
  provider := new.provider <|> old.provider
  timeoutClientData := new.timeoutClientData <|> old.timeoutClientData
  timeoutMemberData := new.timeoutMemberData <|> old.timeoutMemberData

/-! ## The handler -/

/-- `_lb_provider` and the timeouts of `CONF.octavia_defaults`. -/
structure Config where
  lbProvider : Option String
  timeoutClientData : Int
  timeoutMemberData : Int
deriving Repr

/-- The provider that is true: `None` and the empty text are not. -/
def Config.provider (c : Config) : Option String := c.lbProvider.filter (· ≠ "")

/-- What the handler calls: `str(netaddr.IPAddress(ip, flags=ZEROFILL))` and the three
drivers. A network of the subnets driver is the tests `ip in subnet.cidr` of its
subnets. -/
structure Drivers where
  ipAddress : Option String → Except Exc String
  getProject : Service → Except Exc String
  getSecurityGroups : Service → String → Except Exc (List String)
  getSubnets : Service → String → Except Exc (Dict String (List (String → Bool)))

def supportedServiceTypes : List String := ["ClusterIP", "LoadBalancer"]

def isSupportedType (s : Service) : Bool := s.type.any (· ∈ supportedServiceTypes)

def hasClusterip (s : Service) : Bool := s.clusterIP ≠ some "None"

def hasSpecAnnotation (s : Service) : Bool :=
  s.annotations.any fun a => "openstack.org/kuryr-lbaas-spec" ∈ a.keys

def shouldIgnore (s : Service) : Option String :=
  if !hasClusterip s then some "Skipping headless Service %s."
  else if !isSupportedType s then some "Skipping service %s of unsupported type."
  else if hasSpecAnnotation s then
    some ("Skipping annotated service %s, waiting for it to be converted to " ++
      "KuryrLoadBalancer object and annotation removed.")
  else none

def getServiceIp (d : Drivers) (s : Service) : Except Exc (Option String) :=
  if isSupportedType s then some <$> d.ipAddress s.clusterIP else .ok none

/-- netaddr has no address for `None`, so a missing ip is in no subnet. -/
def getSubnetId (d : Drivers) (s : Service) (projectId : String) (ip : Option String) :
    Except Exc String := do
  let subnetsMapping ← d.getSubnets s projectId
  match ip with
  | none => .error .other
  | some ip =>
    match subnetsMapping.items.filter fun e => e.2.any (· ip) with
    | [e] => .ok e.1
    | _ => .error .other

/-- One annotation that stands in for a configured timeout. -/
def timeoutAnnotation (annotations : Dict String (List Char)) (key : String) (default : Int) :
    Except Exc Int :=
  match annotations.get? key with
  | none => .ok default
  | some text =>
    match int? text with
    | none => .error .other
    | some n => .ok n

def getDataTimeoutAnnotation (c : Config) (s : Service) : Except Exc (Int × Int) :=
  match s.annotations with
  | none => .ok (c.timeoutClientData, c.timeoutMemberData)
  | some annotations => do
    let cli ← timeoutAnnotation annotations "openstack.org/kuryr-timeout-client-data"
      c.timeoutClientData
    let mem ← timeoutAnnotation annotations "openstack.org/kuryr-timeout-member-data"
      c.timeoutMemberData
    return (cli, mem)

/-- `for port in service['spec'].get('ports')`. -/
def servicePorts (s : Service) : Except Exc (List Port) :=
  match s.ports with
  | none => .error .typeError
  | some ports => .ok ports

/-- `if type(port['targetPort']) == int: port['targetPort'] = str(port['targetPort'])`. -/
def strIntTargetPort (p : Port) : Except Exc Port :=
  match p.get? "targetPort" with
  | none => .error .keyError
  | some (.int n) => .ok (p.set "targetPort" (.str (toString n)))
  | some (.str _) => .ok p

/-- `port['targetPort'] = str(port['targetPort'])`. -/
def strTargetPort (p : Port) : Except Exc Port :=
  match p.get? "targetPort" with
  | none => .error .keyError
  | some v => .ok (p.set "targetPort" v.toStr)

def specLbIp (d : Drivers) (s : Service) : Except Exc (Option String) :=
  match s.loadBalancerIP with
  | none => .ok none
  | some ip => some <$> d.ipAddress (some ip)

def buildKuryrloadbalancerSpec (c : Config) (d : Drivers) (s : Service) : Except Exc Spec := do
  let svcIp ← getServiceIp d s
  let ports ← servicePorts s
  let ports ← each strIntTargetPort ports
  let projectId ← d.getProject s
  let sgIds ← d.getSecurityGroups s projectId
  let subnetId ← getSubnetId d s projectId svcIp
  let lbIp ← specLbIp d s
  let (timeoutCli, timeoutMem) ← getDataTimeoutAnnotation c s
  return { ip := svcIp
           lbIp := lbIp
           ports := some ports
           projectId := some projectId
           securityGroupsIds := some sgIds
           subnetId := some subnetId
           type := s.type
           provider := c.provider
           timeoutClientData := some timeoutCli
           timeoutMemberData := some timeoutMem }

def hasIpChanges (d : Drivers) (s : Service) (stored : Spec) : Except Exc Bool := do
  let svcIp ← getServiceIp d s
  match stored.ip with
  | none => return svcIp.isSome
  | some ip => return some ip ≠ svcIp

def hasPortChanges (s : Service) (stored : Spec) : Except Exc Bool := do
  let svcPortSet ← servicePorts s
  let svcPortSet ← each strTargetPort svcPortSet
  let specPortSet := stored.ports.getD []
  if specPortSet.isEmpty then return false
  if svcPortSet.length ≠ specPortSet.length then return true
  return (svcPortSet.zip specPortSet).any fun (x, y) => !x.same y

/-- One round of the loop over the two timeouts; a missing timeout is as false as 0. -/
def timeoutChanged (specValue : Option Int) (currentValue : Int) : Bool :=
  if specValue.getD 0 = 0 ∧ currentValue = 0 then false
  else specValue ≠ some currentValue

def hasTimeoutChanges (c : Config) (s : Service) (stored : Spec) : Except Exc Bool := do
  let (cliTimeout, memTimeout) ← getDataTimeoutAnnotation c s
  return timeoutChanged stored.timeoutClientData cliTimeout ||
    timeoutChanged stored.timeoutMemberData memTimeout

def hasProviderChanges (c : Config) (stored : Spec) : Bool :=
  match c.provider with
  | none => false
  | some p => stored.provider ≠ some p

def hasLbaasSpecChanges (c : Config) (d : Drivers) (s : Service) (stored : Spec) :
    Except Exc Bool := do
  if ← hasIpChanges d s stored then return true
  if ← hasPortChanges s stored then return true
  if ← hasTimeoutChanges c s stored then return true
  return hasProviderChanges c stored

/-! ## Events of a Service -/

/-- Answers of the API server that `create_crd_spec` and `_update_crd_spec` tell apart. -/
inductive ApiError where
  | notFound | conflict | namespaceTerminating | client
deriving DecidableEq, Repr

/-- The answers to the requests of one event. -/
structure Api where
  bumpNetworkPolicies : Except Exc Unit
  patchServiceFinalizer : Except Exc Bool
  post : Except ApiError Unit
  patch : Except ApiError Unit

inductive Action where
  | skipped | created | patched | untouched
deriving DecidableEq, Repr

/-- The POST of `create_crd_spec`; `on_present` takes a terminating namespace for done. -/
def createCrdSpec (c : Config) (d : Drivers) (api : Api) (s : Service) :
    Except Exc (Option Spec × Action) := do
  let spec ← buildKuryrloadbalancerSpec c d s
  match api.post with
  | .ok () => return (some spec.prune, .created)
  | .error .namespaceTerminating => return (none, .skipped)
  | .error .conflict => .error .notReady
  | .error _ => .error .k8sClient

def updateCrdSpec (c : Config) (d : Drivers) (api : Api) (stored : Spec) (s : Service) :
    Except Exc (Option Spec × Action) := do
  let spec ← buildKuryrloadbalancerSpec c d s
  match api.patch with
  | .ok () => return (some (stored.patchCrd spec).prune, .patched)
  | .error .notFound => return (none, .skipped)
  | .error .conflict => .error .notReady
  | .error _ => .error .k8sClient

/-- `on_present`: the stored spec after the event, and what the event did. -/
def onPresent (c : Config) (d : Drivers) (api : Api) (klb : Option Spec) (s : Service) :
    Except Exc (Option Spec × Action) := do
  if (shouldIgnore s).isSome then return (klb, .skipped)
  if !(← api.patchServiceFinalizer) then return (klb, .skipped)
  match klb with
  | none => do
    api.bumpNetworkPolicies
    createCrdSpec c d api s
  | some stored => do
    if ← hasLbaasSpecChanges c d s stored then updateCrdSpec c d api stored s
    else return (some stored, .untouched)

/-! ## What the detector compares -/

/-- The spec was last written from this version of the Service. -/
def Written (c : Config) (d : Drivers) (s : Service) (stored : Spec) : Prop :=
  ∃ new, buildKuryrloadbalancerSpec c d s = .ok new ∧
    (stored = new.prune ∨ ∃ old : Spec, stored = (old.patchCrd new).prune)

/-- Equality of port lists, as JSON. -/
def SamePorts (a b : Option (List Port)) : Prop :=
  Option.Rel (List.Forall₂ fun p q => Dict.same p q = true) a b

/-- A difference in a property that the Service decides. -/
def Spec.Differs (new stored : Spec) : Prop :=
  new.ip ≠ stored.ip ∨ ¬ SamePorts new.ports stored.ports ∨ new.type ≠ stored.type ∨
    new.lbIp ≠ stored.lbIp ∨ new.timeoutClientData ≠ stored.timeoutClientData ∨
    new.timeoutMemberData ≠ stored.timeoutMemberData

/-- A port of the Service has a key that the CRD schema does not declare, such as
`nodePort` or `appProtocol`. -/
def Undeclared (s : Service) : Prop :=
  ∃ ports, s.ports = some ports ∧ ∃ p ∈ ports, ∃ k ∈ Dict.keys p, k ∉ portProperties

/-- The builder and the detector turn target ports into the same texts. -/
theorem strIntTargetPort_same {p q : Port} (h : strIntTargetPort p = .ok q) :
    ∃ r, strTargetPort p = .ok r ∧ (∀ x, x ∈ r.items ↔ x ∈ q.items) ∧
      ∀ k, k ∈ r.keys ↔ k ∈ p.keys := by
  unfold strIntTargetPort at h
  unfold strTargetPort
  cases hv : p.get? "targetPort" with
  | none =>
    rw [hv] at h
    cases h
  | some v =>
    have hkey : "targetPort" ∈ p.keys := Dict.mem_keys.mpr ⟨v, Dict.get?_eq_some.mp hv⟩
    have hkeys : ∀ w k, k ∈ (p.set "targetPort" w).keys ↔ k ∈ p.keys := by
      intro w k
      rw [Dict.set, Dict.mem_keys_upsert]
      constructor
      · rintro (rfl | hk)
        · exact hkey
        · exact hk
      · exact .inr
    rw [hv] at h
    refine ⟨_, rfl, ?_, hkeys _⟩
    cases v with
    | int n =>
      cases h
      exact fun _ => Iff.rfl
    | str t =>
      cases h
      intro x
      rw [Dict.set, Dict.mem_items_upsert]
      constructor
      · rintro (rfl | ⟨hx, -⟩)
        · exact Dict.get?_eq_some.mp hv
        · exact hx
      · intro hx
        by_cases hk : x.1 = "targetPort"
        · left
          have hx' : p.get? "targetPort" = some x.2 := Dict.get?_eq_some.mpr (hk ▸ hx)
          rw [hv] at hx'
          exact Prod.ext hk (Option.some.inj hx').symm
        · exact .inr ⟨hx, hk⟩

theorem each_strTargetPort : ∀ {ps qs : List Port}, each strIntTargetPort ps = .ok qs →
    ∃ rs, each strTargetPort ps = .ok rs ∧
      List.Forall₂ (fun r q => ∀ x, x ∈ r.items ↔ x ∈ q.items) rs qs ∧
      ((∃ r ∈ rs, ∃ k ∈ r.keys, k ∉ portProperties) ↔
        ∃ p ∈ ps, ∃ k ∈ p.keys, k ∉ portProperties)
  | [], qs, h => by
    cases h
    exact ⟨[], rfl, .nil, by simp⟩
  | p :: ps, qs, h => by
    rw [each_eq_ok] at h
    cases h with
    | cons hq hqs =>
      obtain ⟨r, hr, hrq, hkeys⟩ := strIntTargetPort_same hq
      obtain ⟨rs, hrs, hall, hforeign⟩ := each_strTargetPort (each_eq_ok.mpr hqs)
      refine ⟨r :: rs, each_eq_ok.mpr (.cons hr (each_eq_ok.mp hrs)), .cons hrq hall, ?_⟩
      simp only [List.exists_mem_cons_iff, hforeign, hkeys]

/-- Comparing with pruned ports finds the differences in declared properties, and every
undeclared key. -/
theorem forall₂_same_iff : ∀ {rs qs ys : List Port},
    List.Forall₂ (fun r q => ∀ x, x ∈ r.items ↔ x ∈ q.items) rs qs →
    (∀ y ∈ ys, ∀ k ∈ Dict.keys y, k ∈ portProperties) →
    (List.Forall₂ (fun r y => Dict.same r y = true) rs ys ↔
      List.Forall₂ (fun q y => Dict.same q y = true)
          (qs.map (Dict.restrict · portProperties)) ys ∧
        ∀ r ∈ rs, ∀ k ∈ r.keys, k ∈ portProperties)
  | [], _, ys, .nil, _ => by
    simp
  | r :: rs, q :: qs, ys, .cons hrq hrest, hys => by
    cases ys with
    | nil => simp
    | cons y ys =>
      have ih := forall₂_same_iff hrest fun y hy => hys y (List.mem_cons_of_mem _ hy)
      have hsame : Dict.same (r.restrict portProperties) y = true ↔
          Dict.same (q.restrict portProperties) y = true := by
        simp only [Dict.same_iff, Dict.mem_items_restrict, hrq]
      rw [List.map_cons, List.forall₂_cons, List.forall₂_cons, ih,
        Dict.same_iff_restrict (hys y List.mem_cons_self), hsame]
      simp only [List.forall_mem_cons]
      exact and_and_and_comm

/-- What a successful build read. -/
theorem build_eq_ok {c : Config} {d : Drivers} {s : Service} {new : Spec}
    (h : buildKuryrloadbalancerSpec c d s = .ok new) :
    ∃ ip raw ports cli mem, getServiceIp d s = .ok (some ip) ∧ servicePorts s = .ok raw ∧
      each strIntTargetPort raw = .ok ports ∧ getDataTimeoutAnnotation c s = .ok (cli, mem) ∧
      new.ip = some ip ∧ new.ports = some ports ∧
      new.provider = c.provider ∧ new.timeoutClientData = some cli ∧
      new.timeoutMemberData = some mem := by
  obtain ⟨ip, hip, h⟩ := bind_eq_ok.mp h
  obtain ⟨raw, hraw, h⟩ := bind_eq_ok.mp h
  obtain ⟨ports, hports, h⟩ := bind_eq_ok.mp h
  obtain ⟨projectId, -, h⟩ := bind_eq_ok.mp h
  obtain ⟨sgIds, -, h⟩ := bind_eq_ok.mp h
  obtain ⟨subnetId, hsubnet, h⟩ := bind_eq_ok.mp h
  obtain ⟨lbIp, -, h⟩ := bind_eq_ok.mp h
  obtain ⟨⟨cli, mem⟩, htimeouts, h⟩ := bind_eq_ok.mp h
  cases h
  cases ip with
  | none =>
    obtain ⟨mapping, -, hsubnet⟩ := bind_eq_ok.mp hsubnet
    cases hsubnet
  | some ip =>
    exact ⟨ip, raw, ports, cli, mem, hip, hraw, hports, htimeouts, rfl, rfl, rfl, rfl, rfl⟩

/-- What the last write left in the properties the detector reads. -/
theorem Written.stored {c : Config} {d : Drivers} {s : Service} {stored : Spec}
    (h : Written c d s stored) :
    ∃ ip ports cli mem, stored.ip = some ip ∧ stored.ports = some ports ∧
      (∀ p ∈ ports, ∀ k ∈ Dict.keys p, k ∈ portProperties) ∧
      stored.timeoutClientData = some cli ∧ stored.timeoutMemberData = some mem ∧
      ∀ p, c.provider = some p → stored.provider = some p := by
  obtain ⟨new, hbuild, hstored⟩ := h
  obtain ⟨ip, raw, ports, cli, mem, -, -, -, -, hip, hports, hprovider, hcli, hmem⟩ :=
    build_eq_ok hbuild
  have hpruned : ∀ p ∈ ports.map (Dict.restrict · portProperties), ∀ k ∈ Dict.keys p,
      k ∈ portProperties := by
    intro p hp k hk
    obtain ⟨q, -, rfl⟩ := List.mem_map.mp hp
    obtain ⟨v, hv⟩ := Dict.mem_keys.mp hk
    exact (Dict.mem_items_restrict.mp hv).2
  refine ⟨ip, ports.map (Dict.restrict · portProperties), cli, mem, ?_⟩
  rcases hstored with rfl | ⟨old, rfl⟩
  · refine ⟨hip, ?_, hpruned, hcli, hmem, fun p hp => ?_⟩
    · rw [Spec.prune, hports]
      rfl
    · exact hprovider.trans hp
  · refine ⟨?_, ?_, hpruned, ?_, ?_, fun p hp => ?_⟩
    · show (new.ip <|> old.ip) = some ip
      rw [hip]
      rfl
    · show (new.ports <|> old.ports).map (List.map (·.restrict portProperties)) = _
      rw [hports]
      rfl
    · show (new.timeoutClientData <|> old.timeoutClientData) = some cli
      rw [hcli]
      rfl
    · show (new.timeoutMemberData <|> old.timeoutMemberData) = some mem
      rw [hmem]
      rfl
    · show (new.provider <|> old.provider) = some p
      rw [hprovider, hp]
      rfl

/-- The two tests on port lists together are a comparison element by element. -/
theorem lists_differ_iff {rs ys : List Port} :
    (if rs.length ≠ ys.length then true else (rs.zip ys).any fun (x, y) => !x.same y) = true ↔
      ¬ List.Forall₂ (fun r y => Dict.same r y = true) rs ys := by
  rw [List.forall₂_iff_zip]
  by_cases hlen : rs.length = ys.length
  · simp [hlen]
  · rw [if_pos hlen]
    exact iff_of_true rfl fun h => hlen h.1

/-- The port test, against a list that was pruned. -/
theorem hasPortChanges_eq {s : Service} {stored : Spec} {raw ports ys : List Port}
    (hraw : servicePorts s = .ok raw) (hports : each strIntTargetPort raw = .ok ports)
    (hstored : stored.ports = some ys) (hys : ∀ y ∈ ys, ∀ k ∈ Dict.keys y, k ∈ portProperties) :
    ∃ b, hasPortChanges s stored = .ok b ∧
      (b = true ↔ ys ≠ [] ∧
        (¬ SamePorts (some (ports.map (Dict.restrict · portProperties))) (some ys) ∨
          Undeclared s)) := by
  obtain ⟨rs, hrs, hall, hforeign⟩ := each_strTargetPort hports
  have hundeclared : Undeclared s ↔ ∃ r ∈ rs, ∃ k ∈ r.keys, k ∉ portProperties := by
    rw [hforeign]
    unfold servicePorts at hraw
    split at hraw
    · cases hraw
    · next hsome =>
      cases hraw
      constructor
      · rintro ⟨l, hl, h⟩
        rw [hsome] at hl
        cases hl
        exact h
      · exact fun h => ⟨raw, hsome, h⟩
  have hsame : List.Forall₂ (fun r y => Dict.same r y = true) rs ys ↔
      SamePorts (some (ports.map (Dict.restrict · portProperties))) (some ys) ∧
        ¬ Undeclared s := by
    rw [forall₂_same_iff hall hys, hundeclared]
    constructor
    · rintro ⟨h, hkeys⟩
      refine ⟨.some h, ?_⟩
      rintro ⟨r, hr, k, hk, hnot⟩
      exact hnot (hkeys r hr k hk)
    · rintro ⟨h, hkeys⟩
      cases h with
      | some h =>
        refine ⟨h, fun r hr k hk => ?_⟩
        by_contra hnot
        exact hkeys ⟨r, hr, k, hk, hnot⟩
  have hrun : hasPortChanges s stored = .ok (if ys.isEmpty then false
      else if rs.length ≠ ys.length then true
      else (rs.zip ys).any fun (x, y) => !x.same y) := by
    rw [hasPortChanges, hraw]
    show (each strTargetPort raw >>= _) = _
    rw [hrs]
    show (if (stored.ports.getD []).isEmpty then _ else _) = _
    rw [hstored]
    show (if ys.isEmpty then _ else _) = _
    split
    · rfl
    · show (if rs.length ≠ ys.length then _ else _) = _
      split <;> rfl
  refine ⟨_, hrun, ?_⟩
  cases ys with
  | nil => simp
  | cons y ys =>
    show (if rs.length ≠ (y :: ys).length then true else _) = true ↔ _
    rw [lists_differ_iff, hsame]
    simp only [ne_eq, reduceCtorEq, not_false_eq_true, true_and]
    rw [not_and_or, not_not]

theorem timeoutChanged_iff {specValue currentValue : Int} :
    timeoutChanged (some specValue) currentValue = true ↔ currentValue ≠ specValue := by
  unfold timeoutChanged
  split
  · next h =>
    have hspec : specValue = 0 := h.1
    simp [h.2, hspec]
  · simp only [ne_eq, Option.some.injEq, decide_eq_true_eq]
    exact ne_comm

/-- The detector sees the ip, the timeouts, and the ports unless none is stored. -/
theorem hasLbaasSpecChanges_eq {c₀ c : Config} {d₀ d : Drivers} {s₀ s : Service}
    {stored new : Spec} (hwritten : Written c₀ d₀ s₀ stored)
    (hprovider : c₀.lbProvider = c.lbProvider)
    (hbuild : buildKuryrloadbalancerSpec c d s = .ok new) :
    ∃ b, hasLbaasSpecChanges c d s stored = .ok b ∧
      (b = true ↔ new.ip ≠ stored.ip ∨
        (stored.ports ≠ some [] ∧
          (¬ SamePorts new.prune.ports stored.ports ∨ Undeclared s)) ∨
        new.timeoutClientData ≠ stored.timeoutClientData ∨
        new.timeoutMemberData ≠ stored.timeoutMemberData) := by
  obtain ⟨ip, raw, ports, cli, mem, hip, hraw, hports, htimeouts, hnip, hnports, -, hncli,
    hnmem⟩ := build_eq_ok hbuild
  obtain ⟨ip₀, ys, cli₀, mem₀, hsip, hsports, hys, hscli, hsmem, hsprovider⟩ := hwritten.stored
  obtain ⟨bp, hbp, hbpiff⟩ := hasPortChanges_eq hraw hports hsports hys
  have hpruned : new.prune.ports = some (ports.map (Dict.restrict · portProperties)) := by
    rw [Spec.prune, hnports]
    rfl
  have hbi : hasIpChanges d s stored = .ok (decide (some ip₀ ≠ some ip)) := by
    rw [hasIpChanges, hip, hsip]
    rfl
  have hbt : hasTimeoutChanges c s stored =
      .ok (timeoutChanged (some cli₀) cli || timeoutChanged (some mem₀) mem) := by
    rw [hasTimeoutChanges, htimeouts, hscli, hsmem]
    rfl
  have hbv : hasProviderChanges c stored = false := by
    unfold hasProviderChanges
    cases hp : c.provider with
    | none => rfl
    | some p =>
      have hp₀ : c₀.provider = some p := by
        rw [Config.provider, hprovider]
        exact hp
      simp [hsprovider p hp₀]
  have hrun : hasLbaasSpecChanges c d s stored = .ok (decide (some ip₀ ≠ some ip) || (bp ||
      (timeoutChanged (some cli₀) cli || timeoutChanged (some mem₀) mem))) := by
    rw [hasLbaasSpecChanges, hbi, hbp, hbt, hbv]
    show (if decide (some ip₀ ≠ some ip) = true then _ else _) = _
    cases decide (some ip₀ ≠ some ip) with
    | true => rfl
    | false =>
      cases bp with
      | true => rfl
      | false => cases timeoutChanged (some cli₀) cli || timeoutChanged (some mem₀) mem <;> rfl
  refine ⟨_, hrun, ?_⟩
  rw [hpruned, hnip, hsip, hsports, hncli, hnmem, hscli, hsmem]
  simp only [Bool.or_eq_true, decide_eq_true_eq, hbpiff, timeoutChanged_iff, ne_eq,
    Option.some.injEq, eq_comm (a := ip)]

/-! ## The detector is exact -/

/-- Where the detector and the builder agree. The ip and the timeouts are compared
exactly. Of the rest the detector sees nothing when no port is stored, and otherwise the
ports only, where an undeclared key always is a difference. -/
def Seen (s : Service) (new stored : Spec) : Prop :=
  new.ip ≠ stored.ip ∨ new.timeoutClientData ≠ stored.timeoutClientData ∨
    new.timeoutMemberData ≠ stored.timeoutMemberData ∨
    (stored.ports = some [] ∧ SamePorts new.prune.ports stored.ports ∧
      new.type = stored.type ∧ new.lbIp = stored.lbIp) ∨
    (stored.ports ≠ some [] ∧
      (¬ SamePorts new.prune.ports stored.ports ∨
        (Undeclared s ↔ new.type ≠ stored.type ∨ new.lbIp ≠ stored.lbIp)))

theorem SamePorts.refl (ports : List Port) : SamePorts (some ports) (some ports) := by
  refine .some (List.forall₂_same.mpr fun p _ => ?_)
  rw [Dict.same_iff]
  exact fun _ => Iff.rfl

/-- The ports of a spec are those of the version it was last written from. -/
theorem Written.samePorts {c : Config} {d : Drivers} {s : Service} {stored new : Spec}
    (h : Written c d s stored) (hbuild : buildKuryrloadbalancerSpec c d s = .ok new) :
    SamePorts new.prune.ports stored.ports ∧ new.ip = stored.ip ∧
      new.timeoutClientData = stored.timeoutClientData ∧
      new.timeoutMemberData = stored.timeoutMemberData := by
  obtain ⟨new', hbuild', hstored⟩ := h
  rw [hbuild] at hbuild'
  cases hbuild'
  obtain ⟨ip, raw, ports, cli, mem, -, -, -, -, hip, hports, -, hcli, hmem⟩ :=
    build_eq_ok hbuild
  have hsame : SamePorts new.prune.ports new.prune.ports := by
    rw [Spec.prune, hports]
    exact SamePorts.refl _
  rcases hstored with rfl | ⟨old, rfl⟩
  · exact ⟨hsame, rfl, rfl, rfl⟩
  · refine ⟨?_, ?_, ?_, ?_⟩
    · have heq : ((old.patchCrd new).prune).ports = new.prune.ports := by
        show (new.ports <|> old.ports).map _ = new.ports.map _
        rw [hports]
        rfl
      rw [heq]
      exact hsame
    · show new.ip = (new.ip <|> old.ip)
      rw [hip]
      rfl
    · show new.timeoutClientData = (new.timeoutClientData <|> old.timeoutClientData)
      rw [hcli]
      rfl
    · show new.timeoutMemberData = (new.timeoutMemberData <|> old.timeoutMemberData)
      rw [hmem]
      rfl

/-- A Service without ports has none with an undeclared key. -/
theorem not_undeclared_of_empty {c : Config} {d : Drivers} {s : Service} {new : Spec}
    (hbuild : buildKuryrloadbalancerSpec c d s = .ok new)
    (h : SamePorts new.prune.ports (some [])) : ¬ Undeclared s := by
  obtain ⟨ip, raw, ports, cli, mem, -, hraw, heach, -, -, hports, -⟩ := build_eq_ok hbuild
  rw [Spec.prune, hports] at h
  cases h with
  | some h =>
    rw [List.forall₂_nil_right_iff, List.map_eq_nil_iff] at h
    subst h
    rw [each_eq_ok, List.forall₂_nil_right_iff] at heach
    subst heach
    rintro ⟨l, hl, p, hp, -⟩
    rw [servicePorts, hl] at hraw
    cases hraw
    cases hp

/-- An event that wrote the spec wrote it from the Service of the event. -/
theorem written_of_onPresent {c : Config} {d : Drivers} {api : Api} {klb : Option Spec}
    {s : Service} {stored : Spec} {action : Action}
    (h : onPresent c d api klb s = .ok (some stored, action))
    (haction : action = .created ∨ action = .patched) :
    Written c d s stored ∧ shouldIgnore s = none := by
  unfold onPresent at h
  split at h
  · cases h
    rcases haction with h | h <;> cases h
  · next hignore =>
    obtain ⟨added, -, h⟩ := bind_eq_ok.mp h
    refine ⟨?_, by simpa using hignore⟩
    cases added with
    | false =>
      cases h
      rcases haction with h | h <;> cases h
    | true =>
      cases klb with
      | none =>
        obtain ⟨_, -, h⟩ := bind_eq_ok.mp h
        obtain ⟨new, hbuild, h⟩ := bind_eq_ok.mp h
        refine ⟨new, hbuild, .inl ?_⟩
        split at h
        · cases h
          rfl
        · cases h
        · cases h
        · cases h
      | some old =>
        obtain ⟨changed, -, h⟩ := bind_eq_ok.mp h
        cases changed with
        | false =>
          cases h
          rcases haction with h | h <;> cases h
        | true =>
          obtain ⟨new, hbuild, h⟩ := bind_eq_ok.mp h
          refine ⟨new, hbuild, .inr ⟨old, ?_⟩⟩
          split at h
          · cases h
            rfl
          · cases h
          · cases h
          · cases h

/-- The same version again: a port with an undeclared key is written every time. -/
theorem onPresent_again {c : Config} {d : Drivers} {api api' : Api} {klb : Option Spec}
    {s : Service} {stored : Spec} {action : Action}
    (h : onPresent c d api klb s = .ok (some stored, action))
    (haction : action = .created ∨ action = .patched)
    (hfinalizer : api'.patchServiceFinalizer = .ok true) :
    onPresent c d api' (some stored) s = .ok (some stored, .untouched) ↔ ¬ Undeclared s := by
  obtain ⟨hwritten, hignore⟩ := written_of_onPresent h haction
  obtain ⟨new, hbuild, -⟩ := id hwritten
  obtain ⟨b, hb, hiff⟩ := hasLbaasSpecChanges_eq hwritten rfl hbuild
  obtain ⟨hports, hip, hcli, hmem⟩ := hwritten.samePorts hbuild
  have hbiff : b = true ↔ stored.ports ≠ some [] ∧ Undeclared s := by
    rw [hiff]
    tauto
  have hempty : Undeclared s → stored.ports ≠ some [] := by
    intro hforeign hstored
    rw [hstored] at hports
    exact not_undeclared_of_empty hbuild hports hforeign
  have hrun : onPresent c d api' (some stored) s =
      if b then updateCrdSpec c d api' stored s else .ok (some stored, .untouched) := by
    rw [onPresent, hignore, hfinalizer, hb]
    rfl
  rw [hrun]
  cases b with
  | true =>
    refine iff_of_false (fun hsame => ?_) (not_not_intro (hbiff.mp rfl).2)
    -- a patch never counts as untouched, whatever the API server answers
    obtain ⟨spec, -, hsame⟩ := bind_eq_ok.mp hsame
    split at hsame
    · cases congrArg (Except.map Prod.snd) hsame
    · cases hsame
    · cases hsame
    · cases hsame
  | false =>
    refine iff_of_true rfl fun hforeign => ?_
    cases hbiff.mpr ⟨hempty hforeign, hforeign⟩

/-- The detector reports a change exactly when the builder would change a property, if
and only if the change is `Seen`. Handling one version twice writes nothing the second
time exactly when no port has an undeclared key. -/
theorem hasLbaasSpecChanges_exact_iff {c₀ c : Config} {d₀ d : Drivers} {s₀ s : Service}
    {stored new : Spec} (hwritten : Written c₀ d₀ s₀ stored)
    (hprovider : c₀.lbProvider = c.lbProvider)
    (hbuild : buildKuryrloadbalancerSpec c d s = .ok new) :
    ((∃ b, hasLbaasSpecChanges c d s stored = .ok b ∧
        (b = true ↔ new.prune.Differs stored)) ↔ Seen s new stored) ∧
      ∀ api api' klb written action, onPresent c d api klb s = .ok (some written, action) →
        action = .created ∨ action = .patched → api'.patchServiceFinalizer = .ok true →
        (onPresent c d api' (some written) s = .ok (some written, .untouched) ↔
          ¬ Undeclared s) := by
  refine ⟨?_, fun _ _ _ _ _ h haction hfinalizer => onPresent_again h haction hfinalizer⟩
  obtain ⟨b, hb, hiff⟩ := hasLbaasSpecChanges_eq hwritten hprovider hbuild
  have hexact : (∃ b, hasLbaasSpecChanges c d s stored = .ok b ∧
      (b = true ↔ new.prune.Differs stored)) ↔ (b = true ↔ new.prune.Differs stored) := by
    constructor
    · rintro ⟨b', hb', h⟩
      rw [hb] at hb'
      cases hb'
      exact h
    · exact fun h => ⟨b, hb, h⟩
  have hdiffers : new.prune.Differs stored ↔ new.ip ≠ stored.ip ∨
      ¬ SamePorts new.prune.ports stored.ports ∨ new.type ≠ stored.type ∨
      new.lbIp ≠ stored.lbIp ∨ new.timeoutClientData ≠ stored.timeoutClientData ∨
      new.timeoutMemberData ≠ stored.timeoutMemberData := Iff.rfl
  rw [hexact, hiff, hdiffers, Seen]
  by_cases hip : new.ip = stored.ip
  · by_cases hcli : new.timeoutClientData = stored.timeoutClientData
    · by_cases hmem : new.timeoutMemberData = stored.timeoutMemberData
      · simp only [hip, hcli, hmem, ne_eq, not_true_eq_false, false_or, or_false]
        by_cases hempty : stored.ports = some []
        · simp only [hempty, not_true_eq_false, false_and, true_and, false_iff, or_false,
            not_or, not_not]
        · by_cases hports : SamePorts new.prune.ports stored.ports
          · simp [hempty, hports]
          · simp [hempty, hports]
      · simp [hmem]
    · simp [hcli]
  · simp [hip]

/-! ## A Service with a node port -/

/-- Addresses in their usual form, one project and one subnet for every Service. -/
def plainDrivers : Drivers where
  ipAddress
    | some ip => .ok ip
    | none => .error .other
  getProject _ := .ok "project"
  getSecurityGroups _ _ := .ok ["sg"]
  getSubnets _ _ := .ok ⟨[("subnet", [fun ip => "10.0.0.".isPrefixOf ip])], by decide⟩

def amphora : Config where
  lbProvider := some "amphora"
  timeoutClientData := 0
  timeoutMemberData := 0

/-- A Service with one port. -/
def webService (ip type : String) (port : Port) : Service where
  annotations := none
  clusterIP := some ip
  loadBalancerIP := none
  ports := some [port]
  type := some type

/-- What is built for it. -/
def webSpec (ip type : String) (port : Port) : Spec where
  ip := some ip
  lbIp := none
  ports := some [port]
  projectId := some "project"
  securityGroupsIds := some ["sg"]
  subnetId := some "subnet"
  type := some type
  provider := some "amphora"
  timeoutClientData := some 0
  timeoutMemberData := some 0

/-- A port of a Service of type ClusterIP. -/
def httpPort (targetPort : Value) : Port :=
  ⟨[("name", .str "http"), ("protocol", .str "TCP"), ("port", .int 80),
    ("targetPort", targetPort)], by simp⟩

/-- The same port in a Service of type LoadBalancer. -/
def httpNodePort (targetPort : Value) : Port :=
  ⟨[("name", .str "http"), ("protocol", .str "TCP"), ("port", .int 80),
    ("targetPort", targetPort), ("nodePort", .int 30080)], by simp⟩

theorem hasLbaasSpecChanges_exact_iff_moved :
    Seen (webService "10.0.0.8" "ClusterIP" (httpPort (.int 8080)))
        (webSpec "10.0.0.8" "ClusterIP" (httpPort (.str "8080")))
        (webSpec "10.0.0.7" "ClusterIP" (httpPort (.str "8080"))) ∧
      ∃ b, hasLbaasSpecChanges amphora plainDrivers
          (webService "10.0.0.8" "ClusterIP" (httpPort (.int 8080)))
          (webSpec "10.0.0.7" "ClusterIP" (httpPort (.str "8080"))) = .ok b ∧
        (b = true ↔ (webSpec "10.0.0.8" "ClusterIP" (httpPort (.str "8080"))).prune.Differs
          (webSpec "10.0.0.7" "ClusterIP" (httpPort (.str "8080")))) := by
  have hseen : Seen (webService "10.0.0.8" "ClusterIP" (httpPort (.int 8080)))
      (webSpec "10.0.0.8" "ClusterIP" (httpPort (.str "8080")))
      (webSpec "10.0.0.7" "ClusterIP" (httpPort (.str "8080"))) := .inl (by decide)
  have hwritten : Written amphora plainDrivers
      (webService "10.0.0.7" "ClusterIP" (httpPort (.int 8080)))
      (webSpec "10.0.0.7" "ClusterIP" (httpPort (.str "8080"))) :=
    ⟨webSpec "10.0.0.7" "ClusterIP" (httpPort (.str "8080")), by decide +kernel,
      .inl (by decide +kernel)⟩
  exact ⟨hseen,
    (hasLbaasSpecChanges_exact_iff hwritten rfl (by decide +kernel)).1.mpr hseen⟩

/-- The API server stores no node port, so the same version counts as a change each time
it is handled; a change of the type alone counts as none. -/
theorem hasLbaasSpecChanges_not_exact :
    (Written amphora plainDrivers (webService "10.0.0.7" "LoadBalancer" (httpNodePort (.int 8080)))
        (webSpec "10.0.0.7" "LoadBalancer" (httpPort (.str "8080"))) ∧
      buildKuryrloadbalancerSpec amphora plainDrivers
          (webService "10.0.0.7" "LoadBalancer" (httpNodePort (.int 8080))) =
        .ok (webSpec "10.0.0.7" "LoadBalancer" (httpNodePort (.str "8080"))) ∧
      ¬ (webSpec "10.0.0.7" "LoadBalancer" (httpNodePort (.str "8080"))).prune.Differs
        (webSpec "10.0.0.7" "LoadBalancer" (httpPort (.str "8080"))) ∧
      hasLbaasSpecChanges amphora plainDrivers
          (webService "10.0.0.7" "LoadBalancer" (httpNodePort (.int 8080)))
          (webSpec "10.0.0.7" "LoadBalancer" (httpPort (.str "8080"))) = .ok true) ∧
    (Written amphora plainDrivers (webService "10.0.0.7" "ClusterIP" (httpPort (.int 8080)))
        (webSpec "10.0.0.7" "ClusterIP" (httpPort (.str "8080"))) ∧
      buildKuryrloadbalancerSpec amphora plainDrivers
          (webService "10.0.0.7" "LoadBalancer" (httpPort (.int 8080))) =
        .ok (webSpec "10.0.0.7" "LoadBalancer" (httpPort (.str "8080"))) ∧
      (webSpec "10.0.0.7" "LoadBalancer" (httpPort (.str "8080"))).prune.Differs
        (webSpec "10.0.0.7" "ClusterIP" (httpPort (.str "8080"))) ∧
      hasLbaasSpecChanges amphora plainDrivers
          (webService "10.0.0.7" "LoadBalancer" (httpPort (.int 8080)))
          (webSpec "10.0.0.7" "ClusterIP" (httpPort (.str "8080"))) = .ok false) := by
  have hpruned : (webSpec "10.0.0.7" "LoadBalancer" (httpNodePort (.str "8080"))).prune =
      webSpec "10.0.0.7" "LoadBalancer" (httpPort (.str "8080")) := by decide +kernel
  refine ⟨⟨⟨_, ?_, .inl hpruned.symm⟩, ?_, ?_, ?_⟩,
    ⟨webSpec "10.0.0.7" "ClusterIP" (httpPort (.str "8080")), ?_, .inl ?_⟩, ?_, ?_, ?_⟩
  · decide +kernel
  · decide +kernel
  · rw [hpruned]
    rintro (h | h | h | h | h | h)
    · exact h rfl
    · exact h (SamePorts.refl _)
    · exact h rfl
    · exact h rfl
    · exact h rfl
    · exact h rfl
  · decide +kernel
  · decide +kernel
  · decide +kernel
  · decide +kernel
  · exact .inr (.inr (.inl (by decide)))
  · decide +kernel

end ServiceHandler

end KuryrKubernetes
