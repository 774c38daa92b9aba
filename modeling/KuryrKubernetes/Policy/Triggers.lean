import KuryrKubernetes.Policy.Compiler

/-!
# The recompilation triggers

`controller/drivers/network_policy_security_groups.py`: which network policies have
to be compiled again when a pod or a namespace comes or goes.

- For a new pod or namespace the drivers read the policies again (`parseRules`). The
  flag `matched` goes through all loops; a rule on a named port never raises it, it
  keeps it or takes it back. Where the source returns `None` for the flag the model
  has `false`: the flag is only tested for truth.
- For a deleted one they look at the rules stored in the KuryrNetworkPolicies
  (`parseRulesOnDeletePod`, `parseRulesOnDeleteNamespace`).

`get_pods` pops a label from the `podSelector` of the KuryrNetworkPolicy at hand, so
the selector goes along with the flag.
-/

namespace KuryrKubernetes

open Dicts LabelSelectors Results

namespace Trigger

/-- The flag `matched`, and the `podSelector` of the KuryrNetworkPolicy. -/
abbrev Flag := Bool × LabelSelector

/-- `_create_sg_rules_with_container_ports` (45–60). -/
def createSgRulesWithContainerPorts (containerPorts : List (Pod × Nat)) (matched : Bool) : Bool :=
  if containerPorts.any fun e => e.1.kuryrPortIP.isSome then matched else false

/-- `_create_sg_rule_on_text_port` (63–87). -/
def createSgRuleOnTextPort (c : Cluster) (policyNs : String) (d : Direction)
    (npPort : Option String) (ruleSelectedPods : List Pod) (flag : Flag) : Except Error Flag := do
  let specPods ← getPods c flag.2 (some policyNs)
  let podSelector := flag.2.popHash
  match d with
  | .ingress =>
    return (specPods.foldl (fun matched specPod =>
      createSgRulesWithContainerPorts (getContainerPorts npPort specPod) matched) flag.1,
      podSelector)
  | .egress =>
    return (ruleSelectedPods.foldl (fun matched p =>
      if matchSelector (some podSelector) p.labels && policyNs = p.ns then matched
      else createSgRulesWithContainerPorts (getContainerPorts npPort p) matched) flag.1,
      podSelector)

/-- One port of a block; `raises` says whether a number raises the flag. -/
def portMatched (c : Cluster) (policyNs : String) (d : Direction) (pods : List Pod)
    (raises : Bool) (port : PolicyPort) (flag : Flag) : Except Error Flag :=
  match port.port with
  | .text npPort => createSgRuleOnTextPort c policyNs d npPort pods flag
  | .number _ => .ok (flag.1 || raises, flag.2)

/-- The loop over the ports of a block. -/
def portsMatched (c : Cluster) (policyNs : String) (d : Direction) (pods : List Pod)
    (raises : Bool) : List PolicyPort → Flag → Except Error Flag
  | [], flag => .ok flag
  | port :: ports, flag => do
    let flag ← portMatched c policyNs d pods raises port flag
    portsMatched c policyNs d pods raises ports flag

/-- What a block does to the flag once one of its entries applies to some pods. -/
def blockMatched (c : Cluster) (policyNs : String) (d : Direction) (pods : List Pod)
    (raises : Bool) (block : RuleBlock) (flag : Flag) : Except Error Flag :=
  match block.ports with
  | some ports => portsMatched c policyNs d pods raises ports flag
  | none => .ok (flag.1 || raises, flag.2)

/-- `_create_sg_rules` (90–119). Without a `podSelector` only named ports are looked
at. -/
def createSgRules (c : Cluster) (policyNs : String) (d : Direction) (pod : Pod)
    (podSelector : Option LabelSelector) (block : RuleBlock) (flag : Flag) : Except Error Flag :=
  if pod.kuryrPortIP = none then .ok (false, flag.2)
  else
    match truthy podSelector with
    | some s =>
      if matchSelector (some s) pod.labels then blockMatched c policyNs d [pod] true block flag
      else .ok flag
    | none => blockMatched c policyNs d [pod] false block flag

/-- `_parse_selectors_on_pod` (122–141). -/
def parseSelectorsOnPod (c : Cluster) (policyNs : String) (d : Direction) (pod : Pod) (rule : Peer)
    (block : RuleBlock) (flag : Flag) : Except Error Flag := do
  let ns ← c.namespace? pod.ns
  if rule.namespaceSelector = some LabelSelector.none then
    createSgRules c policyNs d pod rule.podSelector block flag
  else
    match truthy rule.namespaceSelector with
    | some nsSelector =>
      if (truthyLabels ns.labels).any fun labels => matchSelector (some nsSelector) (some labels) then
        createSgRules c policyNs d pod rule.podSelector block flag
      else return flag
    | none =>
      if pod.ns = policyNs then createSgRules c policyNs d pod rule.podSelector block flag
      else return flag

/-- `_parse_selectors_on_namespace` (144–189). Without a `podSelector` the pods are
looked up with the selector of the namespaces. -/
def parseSelectorsOnNamespace (c : Cluster) (policyNs : String) (d : Direction) (ns : Namespace)
    (rule : Peer) (block : RuleBlock) (flag : Flag) : Except Error Flag :=
  match truthy rule.namespaceSelector, truthyLabels ns.labels with
  | some nsSelector, some labels =>
    if matchSelector (some nsSelector) (some labels) then
      match truthy rule.podSelector with
      | some podSelector => do
        let pods ← getPods c podSelector (some ns.name)
        blockMatched c policyNs d pods (pods.any (·.kuryrPortIP.isSome)) block flag
      | none => do
        let nsPods ← getPods c nsSelector none
        blockMatched c policyNs d nsPods true block flag
    else .ok flag
  | _, _ => .ok flag

/-- What has come: a pod or a namespace. -/
inductive Subject where
  | pod (p : Pod)
  | namespace (n : Namespace)
deriving DecidableEq, Repr

/-- One entry of a block. -/
def parseEntry (c : Cluster) (policyNs : String) (d : Direction) (subject : Subject)
    (block : RuleBlock) (rule : Peer) (flag : Flag) : Except Error Flag :=
  match subject with
  | .pod p => parseSelectorsOnPod c policyNs d p rule block flag
  | .namespace n => parseSelectorsOnNamespace c policyNs d n rule block flag

/-- The loop over the entries of a block. -/
def parseEntries (c : Cluster) (policyNs : String) (d : Direction) (subject : Subject)
    (block : RuleBlock) : List Peer → Flag → Except Error Flag
  | [], flag => .ok flag
  | rule :: rules, flag => do
    let flag ← parseEntry c policyNs d subject block rule flag
    parseEntries c policyNs d subject block rules flag

/-- A named port of a block, once more for a pod (217–221). -/
def namedPortMatched (c : Cluster) (policyNs : String) (d : Direction) (pod : Pod)
    (block : RuleBlock) (port : PolicyPort) (flag : Flag) : Except Error Flag :=
  match port.port with
  | .text npPort =>
    if block.peers.getD [] = [] ∨ d = .ingress then
      createSgRuleOnTextPort c policyNs d npPort [pod] flag
    else .ok flag
  | .number _ => .ok flag

/-- The named ports of a block, once more for a pod (216–221). -/
def namedPortsMatched (c : Cluster) (policyNs : String) (d : Direction) (pod : Pod)
    (block : RuleBlock) : List PolicyPort → Flag → Except Error Flag
  | [], flag => .ok flag
  | port :: ports, flag => do
    let flag ← namedPortMatched c policyNs d pod block port flag
    namedPortsMatched c policyNs d pod block ports flag

/-- One block (199–221). -/
def parseBlock (c : Cluster) (policyNs : String) (d : Direction) (subject : Subject)
    (block : RuleBlock) (flag : Flag) : Except Error Flag := do
  let flag ← parseEntries c policyNs d subject block (block.peers.getD []) flag
  match subject with
  | .pod p =>
    if flag.1 then return flag
    else namedPortsMatched c policyNs d p block (block.ports.getD []) flag
  | .namespace _ => return flag

/-- The loop over the blocks. -/
def parseBlocks (c : Cluster) (policyNs : String) (d : Direction) (subject : Subject) :
    List RuleBlock → Flag → Except Error Flag
  | [], flag => .ok flag
  | block :: blocks, flag => do
    let flag ← parseBlock c policyNs d subject block flag
    parseBlocks c policyNs d subject blocks flag

/-- `_parse_rules` (192–222). -/
def parseRules (c : Cluster) (policyNs : String) (d : Direction) (spec : PolicySpec)
    (subject : Subject) (podSelector : LabelSelector) : Except Error Flag :=
  parseBlocks c policyNs d subject ((spec.ruleList d).getD []) (false, podSelector)

/-- `_parse_rules_on_delete_namespace` (225–236). -/
def parseRulesOnDeleteNamespace (rules : List Rule) (name : String) : Bool :=
  rules.any fun r => r.ns = some name || (r.affectedPods.getD []).any (·.podNamespace = name)

/-- `_parse_rules_on_delete_pod` (239–250). -/
def parseRulesOnDeletePod (rules : List Rule) (podIP : String) : Bool :=
  rules.any fun r => r.sgRule.remote_ip_prefix = some podIP ||
    (r.affectedPods.getD []).any (·.podIP = podIP)

end Trigger

/-! ## The driver -/

/-- `get_res_unique_name` of both kinds, compared. -/
def KuryrNetworkPolicy.names (crd : KuryrNetworkPolicy) (policy : NetworkPolicy) : Bool :=
  crd.ns = policy.ns && crd.name = policy.name

/-- `zip_knp_np` (utils.py:408–431). -/
def zipKnpNp (crds : List KuryrNetworkPolicy) (policies : List NetworkPolicy) :
    List (KuryrNetworkPolicy × NetworkPolicy) :=
  crds.filterMap fun crd => (policies.find? fun policy => crd.names policy).map (crd, ·)

/-- A policy that is bumped, whether its ingress rules changed, and its
`podSelector`. -/
structure Bump where
  crd : KuryrNetworkPolicy
  ingress : Bool
  podSelector : LabelSelector
deriving DecidableEq, Repr

/-- The `podSelector`s the driver returns. -/
def crdPodSelectors (bumps : List Bump) : List LabelSelector :=
  (bumps.filter (·.ingress)).map Bump.podSelector

namespace NetworkPolicySecurityGroupsDriver

open Trigger

/-- The bump of one policy, if a direction matched. -/
def bumpNetworkpolicy (crd : KuryrNetworkPolicy) (ingress egress : Bool)
    (podSelector : LabelSelector) : List Bump :=
  if ingress || egress then [⟨crd, ingress, podSelector⟩] else []

theorem bumpNetworkpolicy_iff {crd crd' : KuryrNetworkPolicy} {i e : Bool} {s : LabelSelector} :
    (∃ bump ∈ bumpNetworkpolicy crd i e s, bump.crd = crd') ↔ (i || e) = true ∧ crd = crd' := by
  unfold bumpNetworkpolicy
  cases h : i || e <;> simp

/-- `create_sg_rules` and `create_namespace_sg_rules` (292–314, 379–400). -/
def createRulesFor (c : Cluster) (crds : List KuryrNetworkPolicy) (policies : List NetworkPolicy)
    (subject : Subject) : Except Error (List Bump) :=
  collect (fun pair => do
    let (ingress, podSelector) ← parseRules c pair.1.ns .ingress pair.2.spec subject
      pair.1.podSelector
    let (egress, podSelector) ← parseRules c pair.1.ns .egress pair.2.spec subject podSelector
    return bumpNetworkpolicy pair.1 ingress egress podSelector) (zipKnpNp crds policies)

/-- `create_sg_rules` (292–314). -/
def createSgRules (c : Cluster) (crds : List KuryrNetworkPolicy) (policies : List NetworkPolicy)
    (pod : Pod) : Except Error (List Bump) :=
  createRulesFor c crds policies (.pod pod)

/-- `create_namespace_sg_rules` (379–400). -/
def createNamespaceSgRules (c : Cluster) (crds : List KuryrNetworkPolicy)
    (policies : List NetworkPolicy) (ns : Namespace) : Except Error (List Bump) :=
  createRulesFor c crds policies (.namespace ns)

/-- `delete_sg_rules` (316–343). -/
def deleteSgRules (crds : List KuryrNetworkPolicy) (pod : Pod) : List Bump :=
  match pod.kuryrPortIP with
  | none => []
  | some podIP => crds.flatMap fun crd =>
      bumpNetworkpolicy crd (parseRulesOnDeletePod crd.ingressSgRules podIP)
        (parseRulesOnDeletePod crd.egressSgRules podIP) crd.podSelector

/-- `delete_namespace_sg_rules` (353–377). -/
def deleteNamespaceSgRules (crds : List KuryrNetworkPolicy) (ns : Namespace) : List Bump :=
  crds.flatMap fun crd =>
    bumpNetworkpolicy crd (parseRulesOnDeleteNamespace crd.ingressSgRules ns.name)
      (parseRulesOnDeleteNamespace crd.egressSgRules ns.name) crd.podSelector

end NetworkPolicySecurityGroupsDriver

end KuryrKubernetes
