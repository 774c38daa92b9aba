import KuryrKubernetes.Lib.LabelSelector

/-!
# Orchestrator objects

The fields of pods, namespaces, services and network policies that the network
policy drivers read, and the cluster the API server serves them from.

- `Labels` are dictionaries; an absent `labels` field is `none`.
- A text field the API server leaves out when it is empty (`status.podIP`,
  `spec.clusterIP`, a subnet CIDR) is `none` when absent and is never `some ""`,
  so the truth tests of the drivers are tests for `none`.
- The `namespace` field of an object is spelled `ns`.
- `Cluster` carries what the API server guarantees: names are unique, and a
  namespaced object lives in a namespace that exists.
-/

namespace KuryrKubernetes

open Dicts LabelSelectors

/-- The ways a request or a library call fails. -/
inductive Error where
  | notFound
  | badRequest
  | conflict
  | valueError
deriving DecidableEq, Repr

/-- The exceptions the handlers tell apart: those of the Kubernetes client, those of
the OpenStack SDK, and those of the code itself. -/
inductive Exc where
  | k8sNotFound | k8sUnprocessable | k8sClient
  | osNotFound | osConflict | osClient
  | notReady | annotationInvalid | keyError | indexError | typeError | other
deriving DecidableEq, Repr

/-- `except K8sClientException`. -/
def Exc.isK8sClient : Exc → Bool
  | .k8sNotFound | .k8sUnprocessable | .k8sClient => true
  | _ => false

/-- `except SDKException`. -/
def Exc.isSdk : Exc → Bool
  | .osNotFound | .osConflict | .osClient => true
  | _ => false

/-! ## Selectors -/

/-- The operators of a `matchExpressions` entry. -/
inductive Operator where
  | In | NotIn | Exists | DoesNotExist
deriving DecidableEq, Repr

/-- One entry of `matchExpressions`. -/
structure Expression where
  key : String
  operator : Operator
  values : List String
deriving DecidableEq, Repr

/-- A label selector. `{}` has neither field. -/
structure LabelSelector where
  matchLabels : Option Labels
  matchExpressions : Option (List Expression)
deriving DecidableEq, Repr

/-- The empty selector `{}`. -/
def LabelSelector.none : LabelSelector := ⟨Option.none, Option.none⟩

/-! ## Workloads -/

/-- One entry of a container's `ports`. -/
structure ContainerPort where
  name : Option String
  containerPort : Nat
deriving DecidableEq, Repr

/-- A pod. `containers` holds the `ports` list of each container; a pod has at
least one container. `kuryrPortIP` is the address of the default VIF in the
status of the pod's KuryrPort, if there is one (`get_pod_ip`). -/
structure Pod where
  name : String
  ns : String
  labels : Option Labels
  podIP : Option String
  kuryrPortIP : Option String
  hostNetwork : Bool
  containers : List (List ContainerPort)
  containers_ne : containers ≠ []
deriving DecidableEq, Repr

/-- A namespace. `finalizers` is the content of its `spec`; `subnetCIDR` is the
field of the status of its KuryrNetwork, if there is one. -/
structure Namespace where
  name : String
  labels : Option Labels
  finalizers : List String
  subnetCIDR : Option String
deriving DecidableEq, Repr

/-- A service. `targets` are the endpoint addresses listed in its
KuryrLoadBalancer. -/
structure Service where
  name : String
  ns : String
  deletionTimestamp : Option String
  clusterIP : Option String
  selector : Option Labels
  targets : List String
deriving DecidableEq, Repr

/-- What the API server serves. -/
structure Cluster where
  namespaces : List Namespace
  pods : List Pod
  services : List Service
  namespaces_nodup : (namespaces.map Namespace.name).Nodup
  pods_nodup : (pods.map fun p => (p.ns, p.name)).Nodup
  pods_namespaced : ∀ p ∈ pods, p.ns ∈ namespaces.map Namespace.name
  services_namespaced : ∀ s ∈ services, s.ns ∈ namespaces.map Namespace.name

/-- GET of one namespace. -/
def Cluster.namespace? (c : Cluster) (name : String) : Except Error Namespace :=
  match c.namespaces.find? (·.name = name) with
  | some ns => .ok ns
  | none => .error .notFound

theorem Cluster.namespace?_ok {c : Cluster} {name : String}
    (h : name ∈ c.namespaces.map Namespace.name) :
    ∃ ns ∈ c.namespaces, ns.name = name ∧ c.namespace? name = .ok ns := by
  unfold Cluster.namespace?
  cases hf : c.namespaces.find? (·.name = name) with
  | some ns =>
    refine ⟨ns, List.mem_of_find?_eq_some hf, ?_, rfl⟩
    simpa using List.find?_some hf
  | none =>
    obtain ⟨ns, hns, rfl⟩ := List.mem_map.mp h
    exact absurd (List.find?_eq_none.mp hf ns hns) (by simp)

theorem Cluster.mem_of_namespace? {c : Cluster} {name : String} {ns : Namespace}
    (h : c.namespace? name = .ok ns) : ns ∈ c.namespaces ∧ ns.name = name := by
  unfold Cluster.namespace? at h
  split at h
  · next hf =>
    cases h
    exact ⟨List.mem_of_find?_eq_some hf, by simpa using List.find?_some hf⟩
  · cases h

/-- Names identify namespaces. -/
theorem Cluster.namespace_ext {c : Cluster} {n m : Namespace} (hn : n ∈ c.namespaces)
    (hm : m ∈ c.namespaces) (h : n.name = m.name) : n = m :=
  List.inj_on_of_nodup_map c.namespaces_nodup hn hm h

/-- The pods of one namespace, or of all of them. -/
def Cluster.podsIn (c : Cluster) : Option String → List Pod
  | some ns => c.pods.filter (·.ns = ns)
  | none => c.pods

/-- The cluster after the deletion of one pod. -/
def Cluster.withoutPod (c : Cluster) (p : Pod) : Cluster where
  namespaces := c.namespaces
  pods := c.pods.filter (· ≠ p)
  services := c.services
  namespaces_nodup := c.namespaces_nodup
  pods_nodup := c.pods_nodup.sublist (List.filter_sublist.map _)
  pods_namespaced := fun q hq => c.pods_namespaced q (List.mem_of_mem_filter hq)
  services_namespaced := c.services_namespaced

/-- The cluster before a namespace existed: its pods and services are not there
either. -/
def Cluster.withoutNamespace (c : Cluster) (name : String) : Cluster where
  namespaces := c.namespaces.filter (·.name ≠ name)
  pods := c.pods.filter (·.ns ≠ name)
  services := c.services.filter (·.ns ≠ name)
  namespaces_nodup := c.namespaces_nodup.sublist (List.filter_sublist.map _)
  pods_nodup := c.pods_nodup.sublist (List.filter_sublist.map _)
  pods_namespaced := fun p hp => by
    obtain ⟨hp, hne⟩ := List.mem_filter.mp hp
    obtain ⟨ns, hns, heq⟩ := List.mem_map.mp (c.pods_namespaced p hp)
    refine List.mem_map.mpr ⟨ns, List.mem_filter.mpr ⟨hns, ?_⟩, heq⟩
    rw [heq]
    exact hne
  services_namespaced := fun s hs => by
    obtain ⟨hs, hne⟩ := List.mem_filter.mp hs
    obtain ⟨ns, hns, heq⟩ := List.mem_map.mp (c.services_namespaced s hs)
    refine List.mem_map.mpr ⟨ns, List.mem_filter.mpr ⟨hns, ?_⟩, heq⟩
    rw [heq]
    exact hne

/-! ## Network policies -/

/-- Protocols of policy ports and of security group rules. -/
inductive Protocol where
  | TCP | UDP | SCTP
deriving DecidableEq, Repr

/-- The `port` field of a policy port: a number, a name, or absent
(`text none`). -/
inductive PortRef where
  | number (n : Nat)
  | text (name : Option String)
deriving DecidableEq, Repr

/-- One entry of `ports`. -/
structure PolicyPort where
  port : PortRef
  protocol : Option Protocol
deriving DecidableEq, Repr

/-- An `ipBlock`. -/
structure IPBlock where
  cidr : String
  except : List String
deriving DecidableEq, Repr

/-- One entry of `from` or `to`. -/
structure Peer where
  namespaceSelector : Option LabelSelector
  podSelector : Option LabelSelector
  ipBlock : Option IPBlock
deriving DecidableEq, Repr

/-- One rule block of `ingress` or `egress`; `peers` is its `from` or `to`. -/
structure RuleBlock where
  peers : Option (List Peer)
  ports : Option (List PolicyPort)
deriving DecidableEq, Repr

/-- The empty block `{}`. -/
def RuleBlock.empty : RuleBlock := ⟨none, none⟩

/-- Traffic directions, also the two policy types. -/
inductive Direction where
  | ingress | egress
deriving DecidableEq, Repr

theorem Direction.exists_iff {P : Direction → Prop} : (∃ d, P d) ↔ P .ingress ∨ P .egress := by
  constructor
  · rintro ⟨d, h⟩
    cases d with
    | ingress => exact .inl h
    | egress => exact .inr h
  · rintro (h | h)
    · exact ⟨.ingress, h⟩
    · exact ⟨.egress, h⟩

/-- The `spec` of a network policy. -/
structure PolicySpec where
  podSelector : LabelSelector
  ingress : Option (List RuleBlock)
  egress : Option (List RuleBlock)
  policyTypes : List Direction
deriving DecidableEq, Repr

/-- A network policy. -/
structure NetworkPolicy where
  name : String
  ns : String
  spec : PolicySpec
deriving DecidableEq, Repr

/-- `policy['spec'].get(direction)`. -/
def PolicySpec.ruleList (s : PolicySpec) : Direction → Option (List RuleBlock)
  | .ingress => s.ingress
  | .egress => s.egress

/-! ## Security group rules -/

/-- Address families. -/
inductive Ethertype where
  | IPv4 | IPv6
deriving DecidableEq, Repr

/-- The `sgRule` part of a rule. -/
structure SgRule where
  ethertype : Ethertype
  description : String
  direction : Direction
  port_range_min : Option Nat
  port_range_max : Option Nat
  protocol : Option Protocol
  remote_ip_prefix : Option String
deriving DecidableEq, Repr

/-- One entry of `affectedPods`. -/
structure PodInfo where
  podIP : String
  podNamespace : String
deriving DecidableEq, Repr

/-- A rule as it is stored in a KuryrNetworkPolicy. -/
structure Rule where
  sgRule : SgRule
  ns : Option String
  affectedPods : Option (List PodInfo)
deriving DecidableEq, Repr

/-- A KuryrNetworkPolicy, as far as the triggers read it. -/
structure KuryrNetworkPolicy where
  name : String
  ns : String
  podSelector : LabelSelector
  ingressSgRules : List Rule
  egressSgRules : List Rule
deriving DecidableEq, Repr

end KuryrKubernetes
