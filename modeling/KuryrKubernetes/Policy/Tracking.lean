import KuryrKubernetes.Lib.Transition
import KuryrKubernetes.Lib.Views
import KuryrKubernetes.Policy.PodCreation

/-!
# Network policies over time

A `KuryrNetworkPolicy` holds the rules of a policy as they were when it was last compiled.
`NetworkPolicyHandler.on_present` compiles a policy and writes the result
(`ensure_network_policy`); the handlers of pods bump the policies that a pod matters to
(`create_sg_rules`, `delete_sg_rules`, `update_sg_rules`), the one of services those of a
namespace (`bump_networkpolicies`); a bump annotates the policy, so `on_present` sees it again.

All this happens in turns. Pods come and go before anybody hears of it, events are handled while
a compilation is under way, and what it has read may be out of date when it is written.

- `ensureNetworkPolicy` and `getSecurityGroupRulesFromNetworkPolicy` complete the driver.
- `State`, `Label`, `step`: the cluster, the policies, the KuryrNetworkPolicies, what is being
  computed, and what has not been handled yet.
- `Careful` is what a run has to observe for one policy: the triggers' conditions from
  `createSgRules_complete_iff` and `deleteSgRules_complete`, and that no deletion of a pod is
  handled while rules that name it are about to be written. Services bump the policies of their
  own namespace only, so those of others must not matter to the policy; and its compilations see
  no `ipBlock`, and no pod without an address that a rule rests on.
- `rules_tracked`: in such a run, a policy that is neither bumped nor being compiled has a
  KuryrNetworkPolicy with the rules of the cluster as it is, once all pods and the services of
  its namespace have been handled.
- `Checked` and `checkedStep` run the system where the conditions can be checked;
  `late_write_keeps_rule` is a run that is not careful.

Rules are compared as sets of security group rules; `affectedPods` and `namespace` are not.
Namespaces stay as they are, policies are not deleted here, and `Namespace` termination, which
makes `_create_knp_crd` give up, is left out.
-/

namespace KuryrKubernetes

open Dicts LabelSelectors Results Transition

deriving instance DecidableEq for Cluster

namespace NetworkPolicyDriver

/-! ## The driver -/

/-- The options and the node subnets the driver reads. -/
structure Conf where
  /-- `octavia_defaults.enforce_sg_rules`. -/
  enforceSgRules : Bool
  /-- The CIDRs of `get_nodes_subnets`. -/
  nodesSubnets : List String
deriving DecidableEq, Repr

/-- One rule of `_get_default_np_rules`. -/
def defaultNpRule (net : Net) (cidr : String) : Rule where
  sgRule :=
    { ethertype := if net.isV6 cidr then .IPv6 else .IPv4
      description := npDescription
      direction := .ingress
      port_range_min := none
      port_range_max := none
      protocol := none
      remote_ip_prefix := some cidr }
  ns := none
  affectedPods := none

/-- `_get_default_np_rules` (191–221). -/
def getDefaultNpRules (net : Net) (conf : Conf) : List Rule :=
  ((if conf.enforceSgRules then [net.serviceSubnet] else []) ++ conf.nodesSubnets).map
    (defaultNpRule net)

/-- `_get_service_ingress_rules` (155–189). -/
def getServiceIngressRules (c : Cluster) (net : Net) (conf : Conf) (policy : NetworkPolicy) :
    List Rule :=
  if conf.enforceSgRules then []
  else (c.services.filter (·.ns = policy.ns)).filterMap fun svc => svc.address.map fun ip =>
    let rule := createSecurityGroupRuleBody net .ingress none none .IPv4 (some ip) none none
    { rule with sgRule := { rule.sgRule with
        description := "Allow traffic from local namespace service " ++ svc.name } }

/-- What a compilation comes to: the rules, and the `podSelector` as it is left behind. -/
structure Computed where
  ingress : List Rule
  egress : List Rule
  podSelector : LabelSelector
deriving DecidableEq, Repr

def Computed.rules (comp : Computed) : Direction → List Rule
  | .ingress => comp.ingress
  | .egress => comp.egress

/-- `_get_security_group_rules_from_network_policy` (137–153). -/
def getSecurityGroupRulesFromNetworkPolicy (c : Cluster) (net : Net) (conf : Conf)
    (policy : NetworkPolicy) (prefixes : List String) : Except Error Computed := do
  let (ingress, memo) ← parseSgRules c net .ingress policy ⟨policy.spec.podSelector, prefixes⟩
  let (egress, memo) ← parseSgRules c net .egress policy memo
  return ⟨runAppends ingress ++ getDefaultNpRules net conf ++
    getServiceIngressRules c net conf policy, runAppends egress, memo.podSelector⟩

end NetworkPolicyDriver

/-- The namespace and the name. -/
abbrev Key := String × String

def NetworkPolicy.key (policy : NetworkPolicy) : Key := (policy.ns, policy.name)

def KuryrNetworkPolicy.key (crd : KuryrNetworkPolicy) : Key := (crd.ns, crd.name)

theorem names_iff {crd : KuryrNetworkPolicy} {policy : NetworkPolicy} :
    crd.names policy = true ↔ crd.key = policy.key := by
  simp [KuryrNetworkPolicy.names, KuryrNetworkPolicy.key, NetworkPolicy.key]

namespace NetworkPolicyDriver

/-- `_create_knp_crd` (704–756). -/
def createKnpCrd (key : Key) (comp : Computed) : KuryrNetworkPolicy :=
  ⟨key.2, key.1, comp.podSelector, comp.ingress, comp.egress⟩

/-- `_patch_knp_crd` (758–775). -/
def patchKnpCrd (crd : KuryrNetworkPolicy) (comp : Computed) : KuryrNetworkPolicy :=
  { crd with
    ingressSgRules := comp.ingress
    egressSgRules := comp.egress
    podSelector :=
      if crd.podSelector ≠ comp.podSelector then comp.podSelector else crd.podSelector }

/-- The second half of `ensure_network_policy` (108–128): the KuryrNetworkPolicy is created, or
patched. -/
def ensureNetworkPolicy (crds : List KuryrNetworkPolicy) (key : Key) (comp : Computed) :
    List KuryrNetworkPolicy :=
  match crds.find? (·.key = key) with
  | none => crds ++ [createKnpCrd key comp]
  | some _ => crds.map fun crd => if crd.key = key then patchKnpCrd crd comp else crd

end NetworkPolicyDriver

namespace PolicyTracking

open NetworkPolicyDriver NetworkPolicySecurityGroupsDriver

/-! ## The system -/

/-- The store of the API server, and where the handlers are. -/
structure State where
  cluster : Cluster
  policies : List NetworkPolicy
  policies_nodup : (policies.map NetworkPolicy.key).Nodup
  crds : List KuryrNetworkPolicy
  /-- The policies `on_present` has to see: new, changed, or bumped. -/
  due : List Key
  /-- The calls of `ensure_network_policy` that have worked out their rules. -/
  computing : Key → Option Computed
  /-- The pods that have come, without a call of `create_sg_rules` since. -/
  come : List Pod
  /-- The pods that have gone, without a call of `delete_sg_rules` since. -/
  gone : List Pod
  /-- The namespaces of services that have changed, without a call of `bump_networkpolicies`
  since. -/
  services : List String

/-- What may happen. -/
inductive Label where
  /-- A pod is there, or is there again after a change. -/
  | podComes (c : Cluster) (p : Pod)
  | podGoes (p : Pod)
  /-- Services of a namespace are different. -/
  | servicesChange (c : Cluster) (ns : String)
  | policyComes (policy : NetworkPolicy)
  | policyChanges (spec : PolicySpec) (key : Key)
  /-- `KuryrPortHandler.on_present`. -/
  | createSgRules (p : Pod)
  /-- `KuryrPortHandler.on_finalize`. -/
  | deleteSgRules (p : Pod)
  /-- `PodLabelHandler.on_present`. -/
  | updateSgRules (p : Pod)
  /-- `ServiceHandler._bump_network_policies`. -/
  | bumpNetworkpolicies (ns : String)
  /-- A policy is listed again, or bumped for no reason. -/
  | bumped (key : Key)
  /-- `NetworkPolicyHandler.on_present` works out the rules. -/
  | compile (key : Key) (prefixes : List String)
  /-- `NetworkPolicyHandler.on_present` writes them. -/
  | write (key : Key)
  /-- The controller is started again. -/
  | restart

variable (net : Net) (conf : Conf)

def State.bump (s : State) (keys : List Key) : State := { s with due := s.due ++ keys }

/-- `create_sg_rules`; an exception is as if the event was still there. -/
def State.createSgRules (s : State) (p : Pod) : Option State :=
  match NetworkPolicySecurityGroupsDriver.createSgRules s.cluster s.crds s.policies p with
  | .ok bumps => some { s.bump (bumps.map fun b => b.crd.key) with come := s.come.filter (· ≠ p) }
  | .error _ => none

/-- `delete_sg_rules`. It is heard of for all that had the address of the pod. -/
def State.deleteSgRules (s : State) (p : Pod) : State :=
  { s.bump ((NetworkPolicySecurityGroupsDriver.deleteSgRules s.crds p).map fun b => b.crd.key) with
    gone := s.gone.filter (·.podIP ≠ p.kuryrPortIP) }

/-- The policy with another `spec`. -/
def withSpec (spec : PolicySpec) (key : Key) (policy : NetworkPolicy) :
    NetworkPolicy :=
  if policy.key = key then { policy with spec := spec } else policy

theorem withSpec_key (spec : PolicySpec) (key : Key) :
    NetworkPolicy.key ∘ withSpec spec key = NetworkPolicy.key := by
  funext policy
  unfold Function.comp withSpec
  split <;> rfl

/-- The same cluster, but for services of a namespace. -/
def OtherServices (c c' : Cluster) (ns : String) : Prop :=
  c'.pods = c.pods ∧ c'.namespaces = c.namespaces ∧
    c'.services.filter (·.ns ≠ ns) = c.services.filter (·.ns ≠ ns)

instance (c c' : Cluster) (ns : String) : Decidable (OtherServices c c' ns) :=
  inferInstanceAs (Decidable (_ ∧ _ ∧ _))

def step (s : State) : Label → Option State
  | .podComes c p =>
    if p ∈ c.pods ∧ c.withoutPod p = s.cluster then
      some { s with cluster := c, come := p :: s.come }
    else none
  | .podGoes p =>
    if p ∈ s.cluster.pods then
      some { s with
        cluster := s.cluster.withoutPod p
        come := s.come.filter (· ≠ p)
        gone := p :: s.gone }
    else none
  | .servicesChange c ns =>
    if OtherServices s.cluster c ns then some { s with cluster := c, services := ns :: s.services }
    else none
  | .policyComes policy =>
    if h : policy.key ∉ s.policies.map NetworkPolicy.key then
      some { s.bump [policy.key] with
        policies := policy :: s.policies
        policies_nodup := List.nodup_cons.mpr ⟨h, s.policies_nodup⟩ }
    else none
  | .policyChanges spec key =>
    some { s.bump [key] with
      policies := s.policies.map (withSpec spec key)
      policies_nodup := by
        rw [List.map_map, withSpec_key]
        exact s.policies_nodup }
  | .createSgRules p => s.createSgRules p
  | .deleteSgRules p => some (s.deleteSgRules p)
  | .updateSgRules p => (s.deleteSgRules p).createSgRules p
  | .bumpNetworkpolicies ns =>
    some { s.bump ((s.policies.filter (·.ns = ns)).map NetworkPolicy.key) with
      services := s.services.filter (· ≠ ns) }
  | .bumped key => some (s.bump [key])
  | .compile key prefixes =>
    match s.policies.find? (·.key = key) with
    | some policy =>
      if key ∈ s.due ∧ s.computing key = none then
        match getSecurityGroupRulesFromNetworkPolicy s.cluster net conf policy prefixes with
        | .ok comp => some { s with
            due := s.due.filter (· ≠ key)
            computing := Function.update s.computing key (some comp) }
        | .error _ => none
      else none
    | none => none
  | .write key =>
    match s.computing key with
    | some comp => some { s with
        crds := ensureNetworkPolicy s.crds key comp
        computing := Function.update s.computing key none }
    | none => none
  | .restart => some { s.bump (s.policies.map NetworkPolicy.key) with computing := fun _ => none }

/-- No policy and nothing to do yet. -/
def State.initial (c : Cluster) : State where
  cluster := c
  policies := []
  policies_nodup := List.nodup_nil
  crds := []
  due := []
  computing := fun _ => none
  come := []
  gone := []
  services := []

def system : System State Label where
  init s := ∃ c, s = .initial c
  step s a s' := step net conf s a = some s'

/-! ## Rules as a view -/

/-- The rules that no resource of the policy is needed for. -/
def otherRules (c : Cluster) (policy : NetworkPolicy) : List Rule :=
  getDefaultNpRules net conf ++ getServiceIngressRules c net conf policy

theorem getSecurityGroupRules_ok {c : Cluster} {policy : NetworkPolicy} {prefixes : List String}
    {comp : Computed}
    (h : getSecurityGroupRulesFromNetworkPolicy c net conf policy prefixes = .ok comp) :
    ∃ out, parseNetworkPolicyRules c net policy prefixes = .ok out ∧
      comp.ingress = runAppends out.1 ++ otherRules net conf c policy ∧
      comp.egress = runAppends out.2 := by
  obtain ⟨⟨ingress, memo⟩, hi, h⟩ := bind_eq_ok.mp h
  obtain ⟨⟨egress, memo'⟩, he, h⟩ := bind_eq_ok.mp h
  cases h
  refine ⟨(ingress, egress), ?_, List.append_assoc .., rfl⟩
  exact bind_eq_ok.mpr ⟨_, hi, bind_eq_ok.mpr ⟨_, he, rfl⟩⟩

/-- A body of a direction, and the reason for it; the other rules have none. -/
abbrev Derivation := Direction × SgRule × Option Reason

/-- The bodies a policy has in a cluster, with the pods they rest on. -/
def derivations (policy : NetworkPolicy) (prefixes : List String) :
    Views.Derivations Cluster Pod Derivation (Direction × SgRule) where
  without := Cluster.withoutPod
  valid c w :=
    match w.2.2 with
    | some why => Produces c net policy prefixes w.1 w.2.1 why
    | none => w.1 = .ingress ∧ w.2.1 ∈ (otherRules net conf c policy).map Rule.sgRule
  rests w p := ∃ why, w.2.2 = some why ∧ why.Names p
  gives w := (w.1, w.2.1)
  valid_without {c p w} := by
    obtain ⟨d, b, why⟩ := w
    cases why with
    | some why =>
      simp only [produces_withoutPod (c := c) (p := p) (fun _ => Iff.rfl), kept_othersThan,
        Option.some.injEq, exists_eq_left']
    | none =>
      -- the services are the same without the pod
      simp only [reduceCtorEq, false_and, exists_false, not_false_eq_true, and_true]
      rfl

variable {net conf} {policy : NetworkPolicy} {prefixes prefixes' : List String} {c : Cluster}

theorem mem_view {b : Direction × SgRule} :
    b ∈ Views.view (derivations net conf policy prefixes) c ↔
      (∃ why, Produces c net policy prefixes b.1 b.2 why) ∨
        b.1 = .ingress ∧ b.2 ∈ (otherRules net conf c policy).map Rule.sgRule := by
  constructor
  · rintro ⟨⟨d, b, why⟩, hw, rfl⟩
    cases why with
    | some why => exact .inl ⟨why, hw⟩
    | none => exact .inr hw
  · rintro (⟨why, hwhy⟩ | h)
    · exact ⟨(b.1, b.2, some why), hwhy, rfl⟩
    · exact ⟨(b.1, b.2, none), h, rfl⟩

/-- A cluster is a part of itself. -/
theorem part_self (c : Cluster) : Part ⟨fun _ => true, fun _ => true, fun _ => true⟩ c c where
  pods := (List.filter_eq_self.mpr fun _ _ => rfl).symm
  namespaces := (List.filter_eq_self.mpr fun _ _ => rfl).symm
  services := (List.filter_eq_self.mpr fun _ _ => rfl).symm
  housed := fun _ _ _ _ => rfl

/-- The reasons are the same with the prefixes of the pool in another order. -/
theorem produces_samePool (hpool : SamePool net prefixes prefixes') {d : Direction} {b : SgRule}
    {why : Reason} (h : Produces c net policy prefixes d b why) :
    Produces c net policy prefixes' d b why := by
  refine (part_self c).produces_restrict hpool (fun block _ rs hrs => ?_) h ?_
  · exact ⟨rs, hrs, List.filter_sublist⟩
  · exact ⟨fun r _ => by cases r <;> rfl, fun _ _ => rfl, fun _ _ => rfl, fun _ _ _ _ => rfl⟩

/-- **A compilation gives the view.** -/
theorem mem_rules_of_computed {comp : Computed} (hpool : SamePool net prefixes prefixes')
    (h : getSecurityGroupRulesFromNetworkPolicy c net conf policy prefixes' = .ok comp)
    {b : Direction × SgRule} :
    b.2 ∈ (comp.rules b.1).map Rule.sgRule ↔
      b ∈ Views.view (derivations net conf policy prefixes) c := by
  obtain ⟨out, hout, hi, he⟩ := getSecurityGroupRules_ok net conf h
  have hpools : (∃ why, Produces c net policy prefixes b.1 b.2 why) ↔
      ∃ why, Produces c net policy prefixes' b.1 b.2 why :=
    exists_congr fun why => ⟨produces_samePool hpool, produces_samePool hpool.symm⟩
  rw [mem_view, hpools, ← mem_bodies hout]
  obtain ⟨d, b⟩ := b
  cases d with
  | ingress => simp [Computed.rules, hi, bodies, appendsOf]
  | egress => simp [Computed.rules, he, bodies, appendsOf]

/-! ## Pods that the rules mention -/

/-- No rule rests on a pod that has no address yet. -/
def Addressed (c : Cluster) (net : Net) (policy : NetworkPolicy) (prefixes : List String) : Prop :=
  ∀ d b why p, Produces c net policy prefixes d b why → why.Names p → p.podIP ≠ none

/-- A rule mentions the address of the pod. -/
def MentionedIn (rules : Direction → List Rule) (p : Pod) : Prop :=
  ∃ ip, p.podIP = some ip ∧ ∃ d, ∃ r ∈ rules d, r.Mentions ip

/-- The pods that the rules of a compilation rest on are mentioned in them. -/
theorem mentionedIn_of_computed {comp : Computed} (hno : policy.NoIpBlocks)
    (hpool : SamePool net prefixes prefixes') (haddressed : Addressed c net policy prefixes)
    (h : getSecurityGroupRulesFromNetworkPolicy c net conf policy prefixes' = .ok comp)
    {w : Derivation} {p : Pod} (hw : (derivations net conf policy prefixes).valid c w)
    (hrests : (derivations net conf policy prefixes).rests w p) : MentionedIn comp.rules p := by
  obtain ⟨d, b, why⟩ := w
  obtain ⟨why, rfl, hnames⟩ := hrests
  obtain ⟨ip, hip⟩ := Option.ne_none_iff_exists'.mp (haddressed d b why p hw hnames)
  obtain ⟨out, hout, hi, he⟩ := getSecurityGroupRules_ok net conf h
  by_contra hsilent
  obtain ⟨a, ha, -⟩ := produces_samePool hpool hw
  cases ha with
  | default => simp [Reason.Names] at hnames
  | block hblock hmade =>
    refine kept_othersThan.mp (hmade.kept_of_not_mentioned (hno d _ (mem_of_blockMemos hblock)) hip
      fun a' why' h' hment => hsilent ⟨ip, hip, d, a'.rule, ?_, hment⟩) hnames
    have hmem : a'.rule ∈ runAppends (appendsOf out d) := mem_runAppends.mpr
      ⟨a', (mem_parseNetworkPolicyRules hout d a').mpr ⟨why', .block hblock h'⟩, rfl⟩
    cases d with
    | ingress =>
      rw [Computed.rules, hi]
      exact List.mem_append_left _ hmem
    | egress =>
      rw [Computed.rules, he]
      exact hmem

/-! ## The view of a state -/

/-- The rules of a policy that are about to be written, or those in its KuryrNetworkPolicy. -/
def State.latest (s : State) (key : Key) : Option (Direction → List Rule) :=
  match s.computing key with
  | some comp => some comp.rules
  | none => (s.crds.find? (·.key = key)).map KuryrNetworkPolicy.rules

/-- The policy has an event to come, and if only that of a service; or nothing at all has been
done for it yet. -/
def State.Due (s : State) (policy : NetworkPolicy) : Prop :=
  policy.key ∈ s.due ∨ policy.ns ∈ s.services ∨ s.latest policy.key = none

def State.kept (s : State) (policy : NetworkPolicy) :
    Views.Kept Cluster Pod (Direction × SgRule) where
  base := s.cluster
  held := {b | ∃ rules, s.latest policy.key = some rules ∧ b.2 ∈ (rules b.1).map Rule.sgRule}
  mentioned := {p | ∃ rules, s.latest policy.key = some rules ∧ MentionedIn rules p}
  due := s.Due policy
  come := {p | p ∈ s.come}
  gone := {p | p ∈ s.gone}

theorem latest_congr {s s' : State} {key : Key} (hcomp : s'.computing key = s.computing key)
    (hcrds : s'.crds = s.crds) : s'.latest key = s.latest key := by
  rw [State.latest, State.latest, hcomp, hcrds]

/-- Apart from the base and what is outstanding, the view is the same. -/
theorem step_of_latest {F : Views.Derivations Cluster Pod Derivation (Direction × SgRule)}
    {s s' : State} (hlatest : s'.latest policy.key = s.latest policy.key)
    (h : Views.Step F (s.kept policy) { s.kept policy with
      base := s'.cluster
      due := s'.Due policy
      come := {p | p ∈ s'.come}
      gone := {p | p ∈ s'.gone} }) : Views.Step F (s.kept policy) (s'.kept policy) := by
  have heq : s'.kept policy = { s.kept policy with
      base := s'.cluster
      due := s'.Due policy
      come := {p | p ∈ s'.come}
      gone := {p | p ∈ s'.gone} } := by
    rw [State.kept, State.kept, hlatest]
  rw [heq]
  exact h

theorem mem_filter_ne (l : List Pod) (p : Pod) :
    {q | q ∈ l.filter (· ≠ p)} = {q | q ∈ l} \ {p} := by
  ext q
  simp

/-! ## What a run has to observe -/

variable (net conf)

/-- A pod that has come is recognised by the policy, or the policy does not need it. -/
def Noticed (key : Key) (prefixes : List String) (s : State) (p : Pod) : Prop :=
  p.kuryrPortIP ≠ none ∧ ∀ policy ∈ s.policies, policy.key = key →
    key ∈ s.due ∨ (∃ crd ∈ s.crds, crd.key = key ∧ Recognised s.cluster crd policy (.pod p)) ∨
      Views.Dispensable (derivations net conf policy prefixes) s.cluster {q | q ∈ s.come} p

/-- The rules that are about to be written do not mention the pod. -/
def Unwritten (key : Key) (s : State) (p : Pod) : Prop :=
  ∀ comp, s.computing key = some comp → key ∈ s.due ∨
    ∀ ip, p.kuryrPortIP = some ip → ∀ d, ∀ r ∈ comp.rules d, ¬ r.Mentions ip

/-- What the steps of a run have to observe for one policy. A pod that comes is recognised, and one
that goes is not in rules about to be written. Services of other namespaces change nothing for the
policy. It is compiled without `ipBlock`s, with the same prefixes, and when every pod its rules
rest on has an address. -/
def Careful (key : Key) (prefixes : List String) (s : State) : Label → Prop
  | .createSgRules p => Noticed net conf key prefixes s p
  | .deleteSgRules p => Unwritten key s p
  | .updateSgRules p => Noticed net conf key prefixes s p ∧ Unwritten key s p
  | .servicesChange c ns => ∀ policy ∈ s.policies, policy.key = key → policy.ns = ns ∨
      ∀ d b why, Produces c net policy prefixes d b why ↔
        Produces s.cluster net policy prefixes d b why
  | .compile key' prefixes' => key' = key → SamePool net prefixes prefixes' ∧
      ∀ policy ∈ s.policies, policy.key = key →
        policy.NoIpBlocks ∧ Addressed s.cluster net policy prefixes
  | _ => True

variable {net conf} {s s' : State} {p : Pod} {key : Key}

/-! ## The steps -/

theorem State.Due.mono (h : s.Due policy) (hdue : s.due ⊆ s'.due)
    (hservices : s.services ⊆ s'.services)
    (hlatest : s'.latest policy.key = s.latest policy.key) : s'.Due policy :=
  h.imp (fun h => hdue h) (Or.imp (fun h => hservices h) fun h => hlatest.trans h)

/-- The policy of a KuryrNetworkPolicy is found. -/
theorem mem_zipKnpNp {crd : KuryrNetworkPolicy} (hcrd : crd ∈ s.crds) (hpolicy : policy ∈ s.policies)
    (hkey : crd.key = policy.key) : (crd, policy) ∈ zipKnpNp s.crds s.policies := by
  refine List.mem_filterMap.mpr ⟨crd, hcrd, ?_⟩
  have hfound : s.policies.find? (fun policy => crd.names policy) = some policy := by
    cases hf : s.policies.find? (fun policy => crd.names policy) with
    | none => exact absurd (names_iff.mpr hkey) (List.find?_eq_none.mp hf policy hpolicy)
    | some policy' =>
      -- keys identify policies
      have hkey' := names_iff.mp (List.find?_some hf)
      rw [List.inj_on_of_nodup_map s.policies_nodup (List.mem_of_find?_eq_some hf) hpolicy
        (hkey'.symm.trans hkey)]
  rw [hfound]
  rfl

theorem createSgRules_spec (h : s.createSgRules p = some s') : ∃ bumps,
    NetworkPolicySecurityGroupsDriver.createSgRules s.cluster s.crds s.policies p = .ok bumps ∧
      s' = { s.bump (bumps.map fun b => b.crd.key) with come := s.come.filter (· ≠ p) } := by
  unfold State.createSgRules at h
  split at h
  · next bumps hbumps =>
    cases h
    exact ⟨bumps, hbumps, rfl⟩
  · cases h

/-- **A new pod is heard of.** -/
theorem createSgRules_step (h : s.createSgRules p = some s')
    (hok : Noticed net conf key prefixes s p) (hpolicy : policy ∈ s.policies)
    (hkey : policy.key = key) :
    Views.Step (derivations net conf policy prefixes) (s.kept policy) (s'.kept policy) := by
  obtain ⟨bumps, hbumps, rfl⟩ := createSgRules_spec h
  subst hkey
  refine step_of_latest (latest_congr rfl rfl) ?_
  rw [mem_filter_ne]
  refine .heardCome (fun hdue => hdue.mono (List.subset_append_left ..) (List.Subset.refl _) rfl) ?_
  rcases hok.2 policy hpolicy rfl with hdue | ⟨crd, hcrd, hkey, hrec⟩ | hdisp
  · exact .inl (.inl (List.mem_append_left _ hdue))
  · have hready : Trigger.Subject.Ready (.pod p) := hok.1
    obtain ⟨bump, hbump, heq⟩ :=
      (createRulesFor_iff hready hbumps (mem_zipKnpNp hcrd hpolicy hkey)).mpr hrec
    refine .inl (.inl (List.mem_append_right _ (List.mem_map.mpr ⟨bump, hbump, ?_⟩)))
    rw [heq, hkey]
  · exact .inr hdisp

/-- **A pod that has gone is heard of.** -/
theorem deleteSgRules_step (hok : Unwritten policy.key s p) :
    Views.Step (derivations net conf policy prefixes) (s.kept policy)
      ((s.deleteSgRules p).kept policy) := by
  have hgone : {q | q ∈ s.gone.filter (·.podIP ≠ p.kuryrPortIP)} =
      {q | q ∈ s.gone} \ {q | q.podIP = p.kuryrPortIP} := by
    ext q
    simp
  refine step_of_latest (latest_congr rfl rfl) ?_
  rw [State.deleteSgRules, hgone]
  refine .heardGone (fun hdue => hdue.mono (List.subset_append_left ..) (List.Subset.refl _) rfl) ?_
  rintro q hq ⟨rules, hlatest, ip, hip, d, r, hr, hment⟩
  have hport : p.kuryrPortIP = some ip := hq.symm.trans hip
  unfold State.latest at hlatest
  split at hlatest
  · next comp hcomp =>
    cases hlatest
    rcases hok comp hcomp with hdue | hsilent
    · exact .inl (List.mem_append_left _ hdue)
    · exact absurd hment (hsilent ip hport d r hr)
  · obtain ⟨crd, hfind, rfl⟩ := Option.map_eq_some_iff.mp hlatest
    obtain ⟨bump, hbump, heq⟩ := mem_deleteSgRules hport (List.mem_of_find?_eq_some hfind)
      ⟨r, hr, hment⟩
    refine .inl (List.mem_append_right _ (List.mem_map.mpr ⟨bump, hbump, ?_⟩))
    rw [heq]
    simpa using List.find?_some hfind

/-- **What is written is what was computed**, and other policies keep theirs. -/
theorem find?_ensureNetworkPolicy {crds : List KuryrNetworkPolicy} {comp : Computed} {key' : Key} :
    ((ensureNetworkPolicy crds key comp).find? (·.key = key')).map KuryrNetworkPolicy.rules =
      if key' = key then some comp.rules
      else (crds.find? (·.key = key')).map KuryrNetworkPolicy.rules := by
  have hcreate : (createKnpCrd key comp).rules = comp.rules := by
    funext d
    cases d <;> rfl
  have hpatch : ∀ crd, (patchKnpCrd crd comp).rules = comp.rules := fun crd => by
    funext d
    cases d <;> rfl
  unfold ensureNetworkPolicy
  split
  · next hnone =>
    rw [List.find?_append]
    split
    · next heq =>
      subst heq
      rw [hnone, List.find?_cons_of_pos (by simp [createKnpCrd, KuryrNetworkPolicy.key])]
      exact congrArg some hcreate
    · next hne =>
      have hother : ¬ (createKnpCrd key comp).key = key' := fun h => hne h.symm
      rw [List.find?_cons_of_neg (by simpa using hother)]
      simp
  · next crd hcrd =>
    have hkeys : ((fun crd : KuryrNetworkPolicy => decide (crd.key = key')) ∘ fun crd =>
        if crd.key = key then patchKnpCrd crd comp else crd) = fun crd => decide (crd.key = key') := by
      funext crd
      simp only [Function.comp]
      split <;> rfl
    rw [List.find?_map, hkeys]
    split
    · next heq =>
      subst heq
      have hk : crd.key = key' := by simpa using List.find?_some hcrd
      simp [hcrd, hk, hpatch]
    · next hne =>
      cases hf : crds.find? (·.key = key') with
      | none => rfl
      | some crd' =>
        have hk : crd'.key = key' := by simpa using List.find?_some hf
        simp [hk, hne]

theorem latest_write {comp : Computed} {key' : Key} (hcomp : s.computing key = some comp)
    (hs : s' = { s with
      crds := ensureNetworkPolicy s.crds key comp
      computing := Function.update s.computing key none }) : s'.latest key' = s.latest key' := by
  subst hs
  unfold State.latest
  by_cases heq : key' = key
  · subst heq
    simp [hcomp, find?_ensureNetworkPolicy]
  · simp [heq, find?_ensureNetworkPolicy]

theorem latest_compile (comp : Computed) {key' : Key} (hne : key' ≠ key)
    (hs : s' = { s with
      due := s.due.filter (· ≠ key)
      computing := Function.update s.computing key (some comp) }) :
    s'.latest key' = s.latest key' := by
  subst hs
  exact latest_congr (Function.update_of_ne hne _ _) rfl

/-- **A compilation.** -/
theorem compile_step {prefixes' : List String} {comp : Computed}
    (hpool : SamePool net prefixes prefixes') (hno : policy.NoIpBlocks)
    (haddressed : Addressed s.cluster net policy prefixes)
    (h : getSecurityGroupRulesFromNetworkPolicy s.cluster net conf policy prefixes' = .ok comp)
    (hs : s' = { s with
      due := s.due.filter (· ≠ policy.key)
      computing := Function.update s.computing policy.key (some comp) }) :
    Views.Step (derivations net conf policy prefixes) (s.kept policy) (s'.kept policy) := by
  have hlatest : s'.latest policy.key = some comp.rules := by
    subst hs
    simp [State.latest]
  have heq : s'.kept policy = { s.kept policy with
      held := Views.view (derivations net conf policy prefixes) s.cluster
      mentioned := {p | MentionedIn comp.rules p}
      due := s'.Due policy } := by
    have hheld : {b : Direction × SgRule | b.2 ∈ (comp.rules b.1).map Rule.sgRule} =
        Views.view (derivations net conf policy prefixes) s.cluster := by
      ext b
      exact mem_rules_of_computed hpool h
    rw [State.kept, State.kept, ← hheld]
    simp only [hlatest, Option.some.injEq, exists_eq_left']
    subst hs
    rfl
  rw [heq]
  exact .compute fun w p hw hrests => mentionedIn_of_computed hno hpool haddressed h hw hrests

/-- The steps that do not touch the rules: the policy is due when it was. -/
theorem keep_step {F : Views.Derivations Cluster Pod Derivation (Direction × SgRule)}
    (hcluster : s'.cluster = s.cluster) (hcome : s'.come = s.come) (hgone : s'.gone = s.gone)
    (hlatest : s'.latest policy.key = s.latest policy.key) (hdue : s.Due policy → s'.Due policy) :
    Views.Step F (s.kept policy) (s'.kept policy) := by
  refine step_of_latest hlatest ?_
  rw [hcluster, hcome, hgone]
  exact .unseen hdue fun _ => Iff.rfl

theorem podComes_step {p : Pod} (hc : c.withoutPod p = s.cluster)
    (hs : s' = { s with cluster := c, come := p :: s.come }) :
    Views.Step (derivations net conf policy prefixes) (s.kept policy) (s'.kept policy) := by
  subst hs
  refine step_of_latest (latest_congr rfl rfl) ?_
  have hcome : {q | q ∈ p :: s.come} = insert p {q | q ∈ s.come} := by
    ext q
    simp
  rw [hcome]
  exact .comes hc.symm

theorem podGoes_step {p : Pod} (hs : s' = { s with
      cluster := s.cluster.withoutPod p
      come := s.come.filter (· ≠ p)
      gone := p :: s.gone }) :
    Views.Step (derivations net conf policy prefixes) (s.kept policy) (s'.kept policy) := by
  subst hs
  refine step_of_latest (latest_congr rfl rfl) ?_
  have hgone : {q | q ∈ p :: s.gone} = insert p {q | q ∈ s.gone} := by
    ext q
    simp
  rw [mem_filter_ne, hgone]
  exact .goes

theorem servicesChange_step {ns : String} (hc : OtherServices s.cluster c ns)
    (hok : policy.ns = ns ∨ ∀ d b why, Produces c net policy prefixes d b why ↔
      Produces s.cluster net policy prefixes d b why)
    (hs : s' = { s with cluster := c, services := ns :: s.services }) :
    Views.Step (derivations net conf policy prefixes) (s.kept policy) (s'.kept policy) := by
  subst hs
  by_cases hns : policy.ns = ns
  · exact .change (.inr (.inl (hns ▸ List.mem_cons_self)))
  refine step_of_latest (latest_congr rfl rfl) (.unseen (fun h => ?_) fun w => ?_)
  · exact h.mono (List.Subset.refl _) (List.subset_cons_self ..) rfl
  · obtain ⟨d, b, why⟩ := w
    cases why with
    | some why => exact hok.resolve_left hns d b why
    | none =>
      -- the services of the namespace of the policy are the same
      have hservices : ∀ c : Cluster, c.services.filter (·.ns = policy.ns) =
          (c.services.filter (·.ns ≠ ns)).filter (·.ns = policy.ns) := fun c => by
        rw [List.filter_filter]
        refine List.filter_congr fun svc _ => ?_
        by_cases h : svc.ns = policy.ns <;> simp [h, hns]
      have hrules : otherRules net conf c policy = otherRules net conf s.cluster policy := by
        rw [otherRules, otherRules, getServiceIngressRules, getServiceIngressRules, hservices c,
          hservices s.cluster, hc.2.2]
      show _ ∧ _ ↔ _ ∧ _
      rw [hrules]
      rfl

/-- The view of the policy with a key is maintained. -/
def Tracked (net : Net) (conf : Conf) (key : Key) (prefixes : List String) (s : State) : Prop :=
  ∀ policy ∈ s.policies, policy.key = key →
    Views.Maintained (derivations net conf policy prefixes) (s.kept policy)

theorem Tracked.of_step (h : Tracked net conf key prefixes s) (hpolicies : s'.policies = s.policies)
    (hstep : ∀ policy ∈ s.policies, policy.key = key →
      Views.Step (derivations net conf policy prefixes) (s.kept policy) (s'.kept policy)) :
    Tracked net conf key prefixes s' := by
  intro policy hpolicy hkey
  rw [hpolicies] at hpolicy
  exact (h policy hpolicy hkey).step (hstep policy hpolicy hkey)

theorem Noticed.deleteSgRules {q : Pod} (h : Noticed net conf key prefixes s p) :
    Noticed net conf key prefixes (s.deleteSgRules q) p :=
  ⟨h.1, fun policy hpolicy hkey => (h.2 policy hpolicy hkey).imp
    (fun hdue => List.mem_append_left _ hdue) id⟩

/-- **One step.** -/
theorem Tracked.step {a : Label} (h : Tracked net conf key prefixes s)
    (hok : Careful net conf key prefixes s a) (hs : step net conf s a = some s') :
    Tracked net conf key prefixes s' := by
  unfold PolicyTracking.step at hs
  cases a with
  | podComes c p =>
    obtain ⟨⟨-, hc⟩, hs⟩ := Option.ite_none_right_eq_some.mp hs
    cases hs
    exact h.of_step rfl fun _ _ _ => podComes_step hc rfl
  | podGoes p =>
    obtain ⟨-, hs⟩ := Option.ite_none_right_eq_some.mp hs
    cases hs
    exact h.of_step rfl fun _ _ _ => podGoes_step rfl
  | servicesChange c ns =>
    obtain ⟨hc, hs⟩ := Option.ite_none_right_eq_some.mp hs
    cases hs
    exact h.of_step rfl fun policy hpolicy hkey =>
      servicesChange_step hc (hok policy hpolicy hkey) rfl
  | policyComes policy' =>
    dsimp only at hs
    split at hs
    · cases hs
      intro policy hpolicy hkey
      rcases List.mem_cons.mp hpolicy with rfl | hpolicy
      · exact .inl (.inl (List.mem_append_right _ (List.mem_singleton.mpr rfl)))
      · refine (h policy hpolicy hkey).step (keep_step rfl rfl rfl (latest_congr rfl rfl) fun hd => ?_)
        exact hd.mono (List.subset_append_left ..) (List.Subset.refl _) (latest_congr rfl rfl)
    · cases hs
  | policyChanges spec key' =>
    cases hs
    intro policy hpolicy hkey
    obtain ⟨policy', hpolicy', rfl⟩ := List.mem_map.mp hpolicy
    unfold withSpec at hkey ⊢
    split
    · next heq =>
      refine .inl (.inl (List.mem_append_right _ (List.mem_singleton.mpr ?_)))
      exact heq
    · next hne =>
      rw [if_neg hne] at hkey
      refine (h policy' hpolicy' hkey).step
        (keep_step rfl rfl rfl (latest_congr rfl rfl) fun hd => ?_)
      exact hd.mono (List.subset_append_left ..) (List.Subset.refl _) (latest_congr rfl rfl)
  | createSgRules p =>
    have hpolicies : s'.policies = s.policies := by
      obtain ⟨bumps, -, rfl⟩ := createSgRules_spec hs
      rfl
    exact h.of_step hpolicies fun policy hpolicy hkey => createSgRules_step hs hok hpolicy hkey
  | deleteSgRules p =>
    cases hs
    exact h.of_step rfl fun policy _ hkey => deleteSgRules_step (hkey ▸ hok)
  | updateSgRules p =>
    have hdeleted : Tracked net conf key prefixes (s.deleteSgRules p) :=
      h.of_step rfl fun policy _ hkey => deleteSgRules_step (hkey ▸ hok.2)
    have hpolicies : s'.policies = s.policies := by
      obtain ⟨bumps, -, rfl⟩ := createSgRules_spec hs
      rfl
    exact hdeleted.of_step hpolicies fun policy hpolicy hkey =>
      createSgRules_step hs hok.1.deleteSgRules hpolicy hkey
  | bumpNetworkpolicies ns =>
    cases hs
    refine h.of_step rfl fun policy hpolicy _ =>
      keep_step rfl rfl rfl (latest_congr rfl rfl) fun hd => ?_
    by_cases hns : policy.ns = ns
    · refine .inl (List.mem_append_right _ (List.mem_map_of_mem (List.mem_filter.mpr ⟨hpolicy, ?_⟩)))
      simpa using hns
    · refine hd.imp (fun hd => List.mem_append_left _ hd) (Or.imp (fun hd => ?_) id)
      exact List.mem_filter.mpr ⟨hd, by simpa using hns⟩
  | bumped key' =>
    cases hs
    refine h.of_step rfl fun policy _ _ => keep_step rfl rfl rfl (latest_congr rfl rfl) fun hd => ?_
    exact hd.mono (List.subset_append_left ..) (List.Subset.refl _) (latest_congr rfl rfl)
  | compile key' prefixes' =>
    dsimp only at hs
    split at hs
    · next policy' hfind =>
      obtain ⟨-, hs⟩ := Option.ite_none_right_eq_some.mp hs
      split at hs
      · next comp hcomp =>
        cases hs
        have hkey' : policy'.key = key' := by simpa using List.find?_some hfind
        refine h.of_step rfl fun policy hpolicy hkey => ?_
        by_cases heq : key' = key
        · obtain ⟨hpool, hcond⟩ := hok heq
          obtain ⟨hno, haddressed⟩ := hcond policy hpolicy hkey
          obtain rfl : policy = policy' := List.inj_on_of_nodup_map s.policies_nodup hpolicy
            (List.mem_of_find?_eq_some hfind) (by rw [hkey, hkey', heq])
          subst hkey'
          exact compile_step hpool hno haddressed hcomp rfl
        · have hne : policy.key ≠ key' := fun h => heq (h.symm.trans hkey)
          have hlatest : State.latest _ policy.key = s.latest policy.key := latest_compile comp hne rfl
          refine keep_step rfl rfl rfl hlatest fun hd => ?_
          refine hd.imp (fun hd => List.mem_filter.mpr ⟨hd, by simpa using hne⟩) (Or.imp id ?_)
          exact fun hd => hlatest.trans hd
      · cases hs
    · cases hs
  | write key' =>
    dsimp only at hs
    split at hs
    · next comp hcomp =>
      cases hs
      refine h.of_step rfl fun policy _ _ => ?_
      have hlatest : State.latest _ policy.key = s.latest policy.key := latest_write hcomp rfl
      exact keep_step rfl rfl rfl hlatest fun hd =>
        hd.mono (List.Subset.refl _) (List.Subset.refl _) hlatest
    · cases hs
  | restart =>
    cases hs
    exact h.of_step rfl fun policy hpolicy _ =>
      .change (.inl (List.mem_append_right _ (List.mem_map_of_mem hpolicy)))

/-- **Every run.** -/
theorem tracked_of_reach
    (h : Reach (system net conf) (Careful net conf key prefixes) s) :
    Tracked net conf key prefixes s := by
  refine Reach.invariant ?_ (fun _ _ _ h hok hs => h.step hok hs) h
  rintro _ ⟨c, rfl⟩ policy hpolicy
  cases hpolicy

/-! ## Every policy is seen to -/

/-- A policy that is not due has been compiled. -/
def Compiled (s : State) : Prop :=
  ∀ key ∈ s.policies.map NetworkPolicy.key, key ∈ s.due ∨ s.latest key ≠ none

theorem Compiled.mono (h : Compiled s)
    (hkeys : s'.policies.map NetworkPolicy.key = s.policies.map NetworkPolicy.key)
    (hdue : s.due ⊆ s'.due) (hlatest : ∀ key, s'.latest key = s.latest key) : Compiled s' := by
  intro key hkey
  rw [hkeys] at hkey
  rw [hlatest]
  exact (h key hkey).imp (fun h => hdue h) id

theorem Compiled.createSgRules (h : Compiled s) (hs : s.createSgRules p = some s') :
    Compiled s' := by
  obtain ⟨bumps, -, rfl⟩ := createSgRules_spec hs
  exact h.mono rfl (List.subset_append_left ..) fun _ => latest_congr rfl rfl

theorem Compiled.step {a : Label} (h : Compiled s) (hs : step net conf s a = some s') :
    Compiled s' := by
  have hdeleted : ∀ p, Compiled (s.deleteSgRules p) := fun p =>
    h.mono rfl (List.subset_append_left ..) fun _ => latest_congr rfl rfl
  unfold PolicyTracking.step at hs
  cases a with
  | podComes | podGoes | servicesChange =>
    obtain ⟨-, hs⟩ := Option.ite_none_right_eq_some.mp hs
    cases hs
    exact h.mono rfl (List.Subset.refl _) fun _ => latest_congr rfl rfl
  | policyComes policy =>
    dsimp only at hs
    split at hs
    · cases hs
      intro key hkey
      rcases List.mem_cons.mp hkey with rfl | hkey
      · exact .inl (List.mem_append_right _ (List.mem_singleton.mpr rfl))
      · exact (h key hkey).imp (fun h => List.mem_append_left _ h) id
    · cases hs
  | policyChanges spec key =>
    cases hs
    refine h.mono ?_ (List.subset_append_left ..) fun _ => latest_congr rfl rfl
    rw [List.map_map, withSpec_key]
  | createSgRules p => exact h.createSgRules hs
  | deleteSgRules p =>
    cases hs
    exact hdeleted p
  | updateSgRules p => exact (hdeleted p).createSgRules hs
  | bumpNetworkpolicies | bumped =>
    cases hs
    exact h.mono rfl (List.subset_append_left ..) fun _ => latest_congr rfl rfl
  | compile key prefixes =>
    dsimp only at hs
    split at hs
    · obtain ⟨-, hs⟩ := Option.ite_none_right_eq_some.mp hs
      split at hs
      · next comp hcomp =>
        cases hs
        intro key' hkey'
        by_cases heq : key' = key
        · exact .inr (by simp [State.latest, heq])
        · have hlatest : State.latest _ key' = s.latest key' := latest_compile comp heq rfl
          exact (h key' hkey').imp (fun h => List.mem_filter.mpr ⟨h, by simpa using heq⟩)
            fun h => hlatest.trans_ne h
      · cases hs
    · cases hs
  | write key =>
    dsimp only at hs
    split at hs
    · next comp hcomp =>
      cases hs
      exact h.mono rfl (List.Subset.refl _) fun _ => latest_write hcomp rfl
    · cases hs
  | restart =>
    cases hs
    exact fun key hkey => .inl (List.mem_append_right _ hkey)

/-! ## The rules that are stored -/

/-- **The rules that are stored are those of the cluster as it is**, once everything has been
handled. -/
theorem rules_tracked (net : Net) (conf : Conf) (key : Key) (prefixes prefixes' : List String)
    (s : State) (policy : NetworkPolicy) (comp : Computed)
    (h : Reach (system net conf) (Careful net conf key prefixes) s)
    (hpolicy : policy ∈ s.policies) (hkey : policy.key = key)
    (hdue : key ∉ s.due) (hcomputing : s.computing key = none)
    (hservices : policy.ns ∉ s.services) (hgone : s.gone = [])
    (hcome : ∀ p ∈ s.come, ∀ d b why, Produces s.cluster net policy prefixes d b why →
      ¬ why.Names p)
    (hpool : SamePool net prefixes prefixes')
    (hcomp : getSecurityGroupRulesFromNetworkPolicy s.cluster net conf policy prefixes' =
      .ok comp) :
    ∃ crd ∈ s.crds, crd.key = key ∧
      ∀ d b, b ∈ (crd.rules d).map Rule.sgRule ↔ b ∈ (comp.rules d).map Rule.sgRule := by
  subst hkey
  have hcompiled : Compiled s := by
    refine Reach.invariant ?_ (fun _ _ _ h _ hs => h.step hs) h
    rintro _ ⟨c, rfl⟩ key hkey
    cases hkey
  have hlatest := (hcompiled _ (List.mem_map_of_mem hpolicy)).resolve_left hdue
  have hheld := (tracked_of_reach h policy hpolicy rfl).held_eq
    (fun hd => hd.elim hdue (Or.rec hservices hlatest))
    (by simp [State.kept, hgone])
    (fun w hw p hp ⟨why, hwhy, hnames⟩ => by
      obtain ⟨d, b, _⟩ := w
      cases hwhy
      exact hcome p hp d b why hw hnames)
  obtain ⟨rules, hrules⟩ := Option.ne_none_iff_exists'.mp hlatest
  have hfound := hrules
  unfold State.latest at hfound
  rw [hcomputing] at hfound
  obtain ⟨crd, hfind, rfl⟩ := Option.map_eq_some_iff.mp hfound
  refine ⟨crd, List.mem_of_find?_eq_some hfind, by simpa using List.find?_some hfind, fun d b => ?_⟩
  have hview : (d, b) ∈ (s.kept policy).held ↔
      (d, b) ∈ Views.view (derivations net conf policy prefixes) s.cluster := by
    rw [hheld]
    rfl
  refine Iff.trans ⟨fun hb => ⟨_, hrules, hb⟩, ?_⟩
    (hview.trans (mem_rules_of_computed hpool hcomp).symm)
  rintro ⟨rules, hr, hb⟩
  cases hrules.symm.trans hr
  exact hb

/-! ### A run -/

/-- A rule rests on pods that are there. -/
theorem mem_of_names {d : Direction} {b : SgRule} {why : Reason}
    (h : Produces c net policy prefixes d b why) (hnames : why.Names p) : p ∈ c.pods := by
  by_contra hp
  have hsame : c.withoutPod p = c := by
    have hpods : c.pods.filter (· ≠ p) = c.pods :=
      List.filter_eq_self.mpr fun q hq => decide_eq_true fun heq : q = p => hp (heq ▸ hq)
    simp only [Cluster.withoutPod, hpods]
  have hkept := (produces_withoutPod (fun _ => Iff.rfl)).mp (hsame.symm ▸ h)
  exact kept_othersThan.mp hkept.2 hnames

instance (c : Cluster) (crd : KuryrNetworkPolicy) (policy : NetworkPolicy)
    (subject : Trigger.Subject) : Decidable (Recognised c crd policy subject) :=
  decidable_of_iff _ Direction.exists_iff.symm

instance (policy : NetworkPolicy) : Decidable policy.NoIpBlocks :=
  decidable_of_iff
    ((∀ block ∈ policy.spec.blocks .ingress, ∀ rule ∈ block.peers.getD [], rule.ipBlock = none) ∧
      ∀ block ∈ policy.spec.blocks .egress, ∀ rule ∈ block.peers.getD [], rule.ipBlock = none)
    ⟨fun h d => by cases d; exacts [h.1, h.2], fun h => ⟨h .ingress, h .egress⟩⟩

/-- Conditions that are enough, and can be checked. -/
def Checked (key : Key) (prefixes : List String) (s : State) : Label → Prop
  | .createSgRules p | .updateSgRules p => p.kuryrPortIP ≠ none ∧ s.computing key = none ∧
      ∀ policy ∈ s.policies, policy.key = key →
        ∃ crd ∈ s.crds, crd.key = key ∧ Recognised s.cluster crd policy (.pod p)
  | .deleteSgRules _ => s.computing key = none
  | .servicesChange _ ns => ∀ policy ∈ s.policies, policy.key = key → policy.ns = ns
  | .compile _ prefixes' => prefixes' = prefixes ∧
      (∀ policy ∈ s.policies, policy.key = key → policy.NoIpBlocks) ∧
        ∀ p ∈ s.cluster.pods, p.podIP ≠ none
  | _ => True

instance (key : Key) (prefixes : List String) (s : State) (a : Label) :
    Decidable (Checked key prefixes s a) := by
  cases a <;> unfold Checked <;> infer_instance

theorem Checked.careful {a : Label} (h : Checked key prefixes s a) :
    Careful net conf key prefixes s a := by
  cases a with
  | createSgRules p => exact ⟨h.1, fun policy hpolicy hkey => .inr (.inl (h.2.2 policy hpolicy hkey))⟩
  | updateSgRules p =>
    refine ⟨⟨h.1, fun policy hpolicy hkey => .inr (.inl (h.2.2 policy hpolicy hkey))⟩, ?_⟩
    intro comp hcomp
    rw [h.2.1] at hcomp
    cases hcomp
  | deleteSgRules p =>
    intro comp hcomp
    rw [show s.computing key = none from h] at hcomp
    cases hcomp
  | servicesChange c ns => exact fun policy hpolicy hkey => .inl (h policy hpolicy hkey)
  | compile key' prefixes' =>
    intro _
    obtain ⟨rfl, hno, haddressed⟩ := h
    refine ⟨fun _ => Iff.rfl, fun policy hpolicy hkey => ⟨hno policy hpolicy hkey, ?_⟩⟩
    exact fun d b why p hwhy hnames => haddressed p (mem_of_names hwhy hnames)
  | podComes | podGoes | policyComes | policyChanges | bumpNetworkpolicies | bumped | write | restart =>
    trivial

/-- The step function, for steps that are checked. -/
def checkedStep (net : Net) (conf : Conf) (key : Key) (prefixes : List String) :
    State → Label → Option State :=
  guarded (Checked key prefixes) (step net conf)

theorem reach_of_checked {labels : List Label} {c : Cluster}
    (h : execute (checkedStep net conf key prefixes) (.initial c) labels = some s) :
    Reach (system net conf) (Careful net conf key prefixes) s :=
  Reach.execute (fun _ _ _ h => ⟨(of_guarded h).1.careful, (of_guarded h).2⟩) (.init ⟨c, rfl⟩) h

/-- No node subnets, and rules for the services of the namespace. -/
def sampleConf : Conf := ⟨false, []⟩

/-- The web pod comes, and goes, and comes again. -/
def webRun : List Label :=
  [.policyComes (webPolicy none), .compile ("shop", "np") [], .podComes webCluster webPod,
    .write ("shop", "np"), .createSgRules webPod, .compile ("shop", "np") [], .podGoes webPod,
    .write ("shop", "np"), .deleteSgRules webPod, .podComes webCluster webPod,
    .compile ("shop", "np") [], .write ("shop", "np"), .createSgRules webPod,
    .compile ("shop", "np") [], .write ("shop", "np")]

/-- The cluster without the web pod, where the run begins. -/
def webStart : State := .initial (webCluster.withoutPod webPod)

/-- Where it ends. -/
def webEnd : State :=
  (execute (checkedStep sampleNet sampleConf ("shop", "np") []) webStart webRun).get
    (by decide +kernel)

theorem rules_tracked_web : ∃ crd ∈ webEnd.crds, crd.key = ("shop", "np") ∧
    ∀ d b, b ∈ (crd.rules d).map Rule.sgRule ↔
      b ∈ ((⟨[webAppend.rule], runAppends (createDefaultSgRule sampleNet .egress), webSelector⟩ :
        Computed).rules d).map Rule.sgRule :=
  rules_tracked sampleNet sampleConf ("shop", "np") [] [] webEnd (webPolicy none) _
    (reach_of_checked (Option.some_get _).symm) (by decide +kernel) rfl (by decide +kernel)
    (by decide +kernel) (by decide +kernel) (by decide +kernel)
    (fun p hp => by
      have hnone : webEnd.come = [] := by decide +kernel
      rw [hnone] at hp
      cases hp)
    (fun _ => Iff.rfl) (by decide +kernel)

/-- The web pod goes while the policy is compiled. -/
def lateRun : List Label :=
  [.policyComes (webPolicy none), .compile ("shop", "np") [], .podGoes webPod,
    .deleteSgRules webPod, .write ("shop", "np")]

/-- **A deletion that is handled during a compilation is lost**: everything has been handled, and
the rule for a pod that is gone stays. -/
theorem late_write_keeps_rule : ∃ s,
    execute (step sampleNet sampleConf) (.initial webCluster) lateRun = some s ∧
      s.due = [] ∧ s.computing ("shop", "np") = none ∧ s.come = [] ∧ s.gone = [] ∧
      webPod ∉ s.cluster.pods ∧ ∃ crd ∈ s.crds, webAppend.rule ∈ crd.rules .ingress := by
  refine ⟨(execute (step sampleNet sampleConf) (.initial webCluster) lateRun).get
    (by decide +kernel), (Option.some_get _).symm, by decide +kernel, by decide +kernel,
    by decide +kernel, by decide +kernel, by decide +kernel, by decide +kernel⟩

end PolicyTracking

end KuryrKubernetes
