import KuryrKubernetes.Drivers.Selectors
import KuryrKubernetes.Lib.Result

/-!
# The network policy compiler

`NetworkPolicyDriver._parse_network_policy_rules`
(`controller/drivers/network_policy.py`): a network policy and the current
cluster state become two lists of security group rules.

- `parseSelectors` resolves the `from`/`to` entries of a block to resources.
- The emitters (`createSgRuleBodyOnTextPort`, `createSgRuleOnNumberPort`,
  `createAllPodsSgRules`, `createSvcEgressSgRule`) return the appends they make to
  `sg_rule_body_list`, in order. An `Append` remembers, besides the rule, whether
  it is skipped when the rule is already in the list, and for which resource it is
  made; only proofs read the latter.
- `parseSgRules` walks the blocks of one direction, `parseNetworkPolicyRules` both.

Two objects outlive a call and are written by it, so they are passed along in
`Memo`: the policy's own `podSelector` (`get_pods` pops a label from it) and the
prefixes of the cached subnet pool (`allowed_cidrs.append` extends them).
-/

namespace KuryrKubernetes

open Dicts LabelSelectors Results

/-- Address arithmetic of the libraries, and the Neutron objects of the
configuration. -/
structure Net where
  /-- `netaddr.IPNetwork(cidr).version == 6`. -/
  isV6 : String → Bool
  /-- `netaddr.cidr_exclude(cidr, except)`. -/
  cidrExclude : String → String → List String
  /-- `ipaddress.ip_address(a) in ipaddress.ip_network(cidr)`. -/
  inNetwork : String → String → Except Error Bool
  /-- CIDR of `neutron_defaults.service_subnet`. -/
  serviceSubnet : String
  /-- Whether `_get_subnetpool` is served from the cache. -/
  subnetCaching : Bool

/-- What a call leaves behind in objects it shares with later calls. -/
structure Memo where
  podSelector : LabelSelector
  prefixes : List String
deriving DecidableEq, Repr

/-! ## Resources -/

/-- An allowed resource: a pod, a namespace, or a dictionary with a `cidr`. -/
inductive Resource where
  | pod (p : Pod)
  | namespace (n : Namespace)
  | cidr (cidr : String)
deriving DecidableEq, Repr

/-- `_get_resource_details` (network_policy.py:777–788). -/
def Resource.details : Resource → Option String × Option String
  | .pod p => (p.podIP, some p.ns)
  | .cidr block => (some block, none)
  | .namespace n => (n.subnetCIDR, some n.name)

/-- The truth value of `resource.get('spec')`. -/
def Resource.hasSpec : Resource → Bool
  | .pod _ => true
  | .namespace n => n.finalizers ≠ []
  | .cidr _ => false

/-- `get_container_ports` (utils.py:581–591). -/
def getContainerPorts (npPort : Option String) (p : Pod) : List (Pod × Nat) :=
  if p.hostNetwork then []
  else p.containers.flatten.filterMap fun cp =>
    if cp.name = npPort then some (p, cp.containerPort) else none

/-- `get_ports` (utils.py:594–616). -/
def getPorts (c : Cluster) (npPort : Option String) : Resource → List (Pod × Nat)
  | .pod p => getContainerPorts npPort p
  | .namespace n => (c.podsIn (some n.name)).flatMap (getContainerPorts npPort)
  | .cidr _ => []

/-- `_get_pods(pod_selector, namespace_selector=…)` after the namespaces have been
listed (network_policy.py:224–228): the result of each namespace replaces the one
before. The first request pops a label from the selector of all later ones. -/
def getPodsInNamespaces (c : Cluster) (podSelector : LabelSelector) :
    List Pod → List Namespace → Except Error (List Pod)
  | matching, [] => .ok matching
  | _, ns :: rest => do
    let matching ← getPods c podSelector (some ns.name)
    getPodsInNamespaces c podSelector.popHash matching rest

/-- The accumulators of `_parse_selectors`. -/
structure Peers where
  allowedCidrs : Option (List String)
  selectors : Bool
  allowedResources : List Resource
deriving DecidableEq, Repr

/-- A selector that is present and not `{}`. -/
def truthy (s : Option LabelSelector) : Option LabelSelector := s.filter (· ≠ LabelSelector.none)

/-- One iteration of `_parse_selectors` (network_policy.py:246–288). -/
def parsePeer (c : Cluster) (net : Net) (policyNs : String) (rule : Peer)
    (acc : Peers × List String) : Except Error (Peers × List String) :=
  let (peers, prefixes) := acc
  if rule.namespaceSelector = some LabelSelector.none then
    match truthy rule.podSelector with
    | some podSelector => do
      -- allow matching pods in all namespaces
      let pods ← getPods c podSelector none
      return ({ peers with selectors := true,
                           allowedResources := peers.allowedResources ++ pods.map .pod }, prefixes)
    | none =>
      -- allow from all the cluster; the list appended to may be the cached one
      let cidrs := prefixes ++ [net.serviceSubnet]
      .ok ({ peers with selectors := true, allowedCidrs := some cidrs },
        if net.subnetCaching then cidrs else prefixes)
  else
    match truthy rule.namespaceSelector with
    | some nsSelector =>
      match truthy rule.podSelector with
      | some podSelector => do
        let namespaces ← getNamespaces c nsSelector
        let pods ← getPodsInNamespaces c podSelector [] namespaces
        return ({ peers with selectors := true,
                             allowedResources := peers.allowedResources ++ pods.map .pod }, prefixes)
      | none => do
        let namespaces ← getNamespaces c nsSelector
        return ({ peers with selectors := true,
                             allowedResources := peers.allowedResources ++ namespaces.map .namespace },
          prefixes)
    | none =>
      match rule.podSelector with
      | none => .ok (peers, prefixes)
      | some podSelector =>
        if podSelector = LabelSelector.none then do
          let ns ← c.namespace? policyNs
          return ({ peers with selectors := true,
                               allowedResources := peers.allowedResources ++ [.namespace ns] }, prefixes)
        else do
          let pods ← getPods c podSelector (some policyNs)
          return ({ peers with selectors := true,
                               allowedResources := peers.allowedResources ++ pods.map .pod }, prefixes)

/-- The loop of `_parse_selectors`. -/
def parsePeers (c : Cluster) (net : Net) (policyNs : String) :
    List Peer → Peers × List String → Except Error (Peers × List String)
  | [], acc => .ok acc
  | rule :: rules, acc => do
    let acc ← parsePeer c net policyNs rule acc
    parsePeers c net policyNs rules acc

/-- `_parse_selectors` (network_policy.py:242–289). -/
def parseSelectors (c : Cluster) (net : Net) (policyNs : String) (block : RuleBlock)
    (prefixes : List String) : Except Error (Peers × List String) :=
  parsePeers c net policyNs (block.peers.getD []) (⟨none, false, []⟩, prefixes)

/-! ## Rule bodies -/

/-- The description of every rule the compiler makes. -/
def npDescription : String := "Kuryr-Kubernetes NetPolicy SG rule"

/-- The pods behind a container port: address (if any) to namespace. -/
abbrev PodMap := Dict (Option String) String

/-- `create_security_group_rule_body` (utils.py:275–307). No caller passes an upper
port, so the range is the one port; port 0 counts as no port. -/
def createSecurityGroupRuleBody (net : Net) (direction : Direction) (port : Option Nat)
    (protocol : Option Protocol) (ethertype : Ethertype) (cidr : Option String)
    (ns : Option String) (pods : Option PodMap) : Rule where
  sgRule :=
    { ethertype := if cidr.any net.isV6 then .IPv6 else ethertype
      description := npDescription
      direction := direction
      port_range_min := port.filter (· ≠ 0)
      port_range_max := port.filter (· ≠ 0)
      protocol := protocol
      remote_ip_prefix := cidr }
  ns := ns
  affectedPods := (pods.filter (·.items ≠ [])).map fun pods =>
    pods.items.filterMap fun e => e.1.map (⟨·, e.2⟩)

/-- One append to `sg_rule_body_list`. -/
structure Append where
  /-- The rule. -/
  rule : Rule
  /-- Skipped when the rule is in the list. -/
  ifNew : Bool
  /-- The resource the rule is made for. -/
  origin : Option Resource
  /-- For a rule on a named port, the pods that have it. -/
  owners : Option PodMap
deriving DecidableEq, Repr

/-- The list after one append. -/
def Append.run (rules : List Rule) (a : Append) : List Rule :=
  if a.ifNew ∧ a.rule ∈ rules then rules else rules ++ [a.rule]

/-- The list after a sequence of appends. -/
def runAppends (as : List Append) : List Rule := as.foldl Append.run []

/-! ## Services -/

/-- `_pods_in_ip_block` (network_policy.py:636–644). -/
def podsInIpBlock (net : Net) (cidr : String) : List Pod → Except Error Bool
  | [] => .ok false
  | p :: ps =>
    match p.kuryrPortIP with
    | none => podsInIpBlock net cidr ps
    | some ip => do
      if ← net.inNetwork ip cidr then return true
      podsInIpBlock net cidr ps

/-- `_targets_in_ip_block` (network_policy.py:646–651). -/
def targetsInIpBlock (net : Net) (cidr : String) : List String → Except Error Bool
  | [] => .ok true
  | target :: targets => do
    if ← net.inNetwork target cidr then targetsInIpBlock net cidr targets
    else return false

/-- A non-empty dictionary. -/
def truthyLabels (l : Option Labels) : Option Labels := l.filter (·.items ≠ [])

/-- Whether the loop over the services reaches the rule for a resource
(network_policy.py:596–630). -/
def svcMatches (c : Cluster) (net : Net) (policyNs : String) (svc : Service) :
    Resource → Except Error Bool
  | .pod p =>
    match truthyLabels svc.selector with
    | none => .ok (p.podIP.all (· ∈ svc.targets))
    | some svcSelector =>
      -- a pod without labels is not filtered out
      .ok ((truthyLabels p.labels).all (matchLabels svcSelector))
  | .cidr cidr =>
    match truthyLabels svc.selector with
    | none => if svc.targets = [] then .ok false else targetsInIpBlock net cidr svc.targets
    | some svcSelector =>
      if svc.ns ≠ policyNs then .ok false
      else do
        let pods ← getServicePods c svcSelector (some svc.ns)
        podsInIpBlock net cidr pods
  | .namespace n => .ok (svc.ns = n.name)

/-- The cluster address of a service that has one and is not being deleted. -/
def Service.address (svc : Service) : Option String :=
  if svc.deletionTimestamp.isSome then none else svc.clusterIP.filter (· ≠ "None")

/-- `_create_svc_egress_sg_rule` (network_policy.py:571–634). -/
def createSvcEgressSgRule (c : Cluster) (net : Net) (policyNs : String) (resource : Option Resource)
    (port : Option Nat) (protocol : Option Protocol) (owners : Option PodMap) :
    Except Error (List Append) :=
  match resource with
  | none =>
    .ok [⟨createSecurityGroupRuleBody net .egress port protocol .IPv4 (some net.serviceSubnet)
      none none, true, none, owners⟩]
  | some r =>
    collect (fun svc => do
      match svc.address with
      | none => return []
      | some clusterIP =>
        if ← svcMatches c net policyNs svc r then
          return [⟨createSecurityGroupRuleBody net .egress port protocol .IPv4 (some clusterIP)
            none none, true, some r, owners⟩]
        else return []) c.services

/-- The rules for the services behind a resource, which only egress needs
(network_policy.py:323–329, 412–417, 553–556). -/
def serviceAppends (c : Cluster) (net : Net) (direction : Direction) (policyNs : String)
    (resource : Resource) (port : Option Nat) (protocol : Option Protocol)
    (owners : Option PodMap) : Except Error (List Append) :=
  match direction with
  | .ingress => .ok []
  | .egress => createSvcEgressSgRule c net policyNs (some resource) port protocol owners

/-! ## Named ports -/

/-- The pods found so far for each container port. -/
abbrev Matched := Dict Nat PodMap

/-- `port.get('protocol', 'TCP')`. -/
def PolicyPort.protocolOrTCP (port : PolicyPort) : Option Protocol := some (port.protocol.getD .TCP)

/-- The pods the policy itself selects, whom an egress rule does not open. -/
def ownPods (direction : Direction) (podSelector : LabelSelector) (policyNs : String) :
    Option (LabelSelector × String) :=
  match direction with
  | .ingress => none
  | .egress => some (podSelector, policyNs)

/-- One iteration of the first loop of `_create_sg_rules_with_container_ports`
(network_policy.py:296–313). -/
def addContainerPort (spec : Option (LabelSelector × String)) (matched : Matched)
    (e : Pod × Nat) : Matched :=
  if spec.any fun s => matchSelector (some s.1) e.1.labels && s.2 = e.1.ns then matched
  else matched.upsert e.2 fun pods => (pods.getD Dict.empty).set e.1.podIP e.1.ns

/-- `_create_sg_rules_with_container_ports` (network_policy.py:291–329), returning
its appends and the updated `matched_pods`. -/
def createSgRulesWithContainerPorts (c : Cluster) (net : Net) (direction : Direction)
    (port : PolicyPort) (podSelector : LabelSelector) (policyNs : String)
    (allowedCidrs : List String) (matched : Matched) (containerPorts : List (Pod × Nat))
    (resource : Resource) : Except Error (List Append × Matched) := do
  let matched := containerPorts.foldl (addContainerPort (ownPods direction podSelector policyNs))
    matched
  match allowedCidrs, resource.details.1 with
  | [], some cidr =>
    let appends ← collect (fun e => do
      let rule := createSecurityGroupRuleBody net direction (some e.1) port.protocolOrTCP .IPv4
        (some cidr) none (some e.2)
      let svc ← serviceAppends c net direction policyNs resource (some e.1) port.protocolOrTCP
        (some e.2)
      return ⟨rule, true, some resource, some e.2⟩ :: svc) matched.items
    return (appends, matched)
  | _, _ => return ([], matched)

/-- The calls of `_create_sg_rules_with_container_ports` one named port makes, one
after the other. -/
def runContainerPorts (c : Cluster) (net : Net) (direction : Direction)
    (port : PolicyPort) (podSelector : LabelSelector) (policyNs : String)
    (allowedCidrs : List String) :
    Matched → List (List (Pod × Nat) × Resource) → Except Error (List Append × Matched)
  | matched, [] => .ok ([], matched)
  | matched, call :: calls => do
    let (appends, matched) ← createSgRulesWithContainerPorts c net direction port podSelector
      policyNs allowedCidrs matched call.1 call.2
    let (rest, matched) ← runContainerPorts c net direction port podSelector policyNs
      allowedCidrs matched calls
    return (appends ++ rest, matched)

/-- The appends behind the loops, one per container port and CIDR
(network_policy.py:382–391). -/
def cidrAppends (net : Net) (direction : Direction) (port : PolicyPort) (cidrs : List String)
    (matched : Matched) : List Append :=
  matched.items.flatMap fun e => cidrs.map fun cidr =>
    ⟨createSecurityGroupRuleBody net direction (some e.1) port.protocolOrTCP .IPv4 (some cidr)
      none (some e.2), false, none, some e.2⟩

/-- `_create_sg_rule_body_on_text_port` (network_policy.py:331–391). Ingress looks for
the port on the pods of the policy, egress on the resources; an IP block has no
pods to look at. -/
def createSgRuleBodyOnTextPort (c : Cluster) (net : Net) (direction : Direction)
    (port : PolicyPort) (npPort : Option String) (resources : List Resource) (policyNs : String)
    (allowedCidrs : List String) (memo : Memo) : Except Error (List Append × Memo) := do
  match direction with
  | .ingress =>
    let selected ← getPods c memo.podSelector (some policyNs)
    let memo := { memo with podSelector := memo.podSelector.popHash }
    let (appends, matched) ← runContainerPorts c net .ingress port memo.podSelector policyNs
      allowedCidrs Dict.empty
      (selected.flatMap fun p => resources.map fun r => (getContainerPorts npPort p, r))
    return (appends ++ cidrAppends net .ingress port allowedCidrs matched, memo)
  | .egress =>
    let (appends, matched) ← runContainerPorts c net .egress port memo.podSelector policyNs
      allowedCidrs Dict.empty
      ((resources.filter Resource.hasSpec).map fun r => (getPorts c npPort r, r))
    return (appends ++ cidrAppends net .egress port allowedCidrs matched, memo)

/-! ## Numeric ports, and no ports at all -/

/-- The rules for resources with an address, with the services behind them
(network_policy.py:393–417, 541–556). -/
def resourceAppends (c : Cluster) (net : Net) (direction : Direction) (port : Option Nat)
    (protocol : Option Protocol) (policyNs : String) (resources : List Resource) :
    Except Error (List Append) :=
  collect (fun r => do
    match r.details with
    | (none, _) => return []
    | (some cidr, ns) =>
      let rule := createSecurityGroupRuleBody net direction port protocol .IPv4 (some cidr) ns none
      let svc ← serviceAppends c net direction policyNs r port protocol none
      return ⟨rule, false, some r, none⟩ :: svc) resources

/-- `_create_sg_rule_on_number_port` (network_policy.py:393–417). -/
def createSgRuleOnNumberPort (c : Cluster) (net : Net) (direction : Direction) (port : PolicyPort)
    (n : Nat) (policyNs : String) (resources : List Resource) : Except Error (List Append) :=
  resourceAppends c net direction (some n) port.protocolOrTCP policyNs resources

/-- `_create_all_pods_sg_rules` (network_policy.py:419–447). With CIDRs and a number
the protocol is not defaulted. -/
def createAllPodsSgRules (c : Cluster) (net : Net) (direction : Direction) (port : PolicyPort)
    (policyNs : String) (allowedCidrs : List String) (memo : Memo) :
    Except Error (List Append × Memo) :=
  match port.port with
  | .text npPort =>
    createSgRuleBodyOnTextPort c net direction port npPort (c.pods.map .pod) policyNs
      allowedCidrs memo
  | .number n =>
    if allowedCidrs ≠ [] then
      .ok (allowedCidrs.map fun cidr =>
        ⟨createSecurityGroupRuleBody net direction (some n) port.protocol .IPv4 (some cidr)
          none none, false, none, none⟩, memo)
    else
      .ok ([Ethertype.IPv4, .IPv6].map fun ethertype =>
        ⟨createSecurityGroupRuleBody net direction (some n) port.protocolOrTCP ethertype none
          none none, false, none, none⟩, memo)

/-- `_create_default_sg_rule` (network_policy.py:439–447): both families, no
restriction. -/
def createDefaultSgRule (net : Net) (direction : Direction) : List Append :=
  [Ethertype.IPv4, .IPv6].map fun ethertype =>
    ⟨createSecurityGroupRuleBody net direction none none ethertype none none none,
      false, none, none⟩

/-! ## Rule blocks -/

/-- The resources of the IP blocks of a rule block (network_policy.py:505–524). -/
def ipBlockResources (net : Net) (block : RuleBlock) : List Resource :=
  ((block.peers.getD []).filterMap Peer.ipBlock).flatMap fun b =>
    if b.except ≠ [] then b.except.flatMap fun ex => (net.cidrExclude b.cidr ex).map .cidr
    else [.cidr b.cidr]

/-- `_create_sg_rule_body_on_text_port` or `_create_sg_rule_on_number_port`
(network_policy.py:529–537). -/
def resourcePortAppends (c : Cluster) (net : Net) (direction : Direction) (policyNs : String)
    (resources : List Resource) (port : PolicyPort) (memo : Memo) :
    Except Error (List Append × Memo) :=
  match port.port with
  | .text npPort =>
    createSgRuleBodyOnTextPort c net direction port npPort resources policyNs [] memo
  | .number n => do
    let appends ← createSgRuleOnNumberPort c net direction port n policyNs resources
    return (appends, memo)

/-- The rules of one entry of `ports` (network_policy.py:527–540). -/
def portAppends (c : Cluster) (net : Net) (direction : Direction) (policyNs : String)
    (peers : Peers) (port : PolicyPort) (memo : Memo) : Except Error (List Append × Memo) :=
  if peers.allowedResources = [] ∧ peers.allowedCidrs.getD [] = [] ∧ ¬ peers.selectors then
    createAllPodsSgRules c net direction port policyNs [] memo
  else do
    let (appends, memo) ← resourcePortAppends c net direction policyNs peers.allowedResources port
      memo
    if peers.allowedCidrs.getD [] = [] then return (appends, memo)
    let (more, memo) ← createAllPodsSgRules c net direction port policyNs
      (peers.allowedCidrs.getD []) memo
    return (appends ++ more, memo)

/-- The loop over `ports`. -/
def portsAppends (c : Cluster) (net : Net) (direction : Direction) (policyNs : String)
    (peers : Peers) : List PolicyPort → Memo → Except Error (List Append × Memo)
  | [], memo => .ok ([], memo)
  | port :: ports, memo => do
    let (appends, memo) ← portAppends c net direction policyNs peers port memo
    let (rest, memo) ← portsAppends c net direction policyNs peers ports memo
    return (appends ++ rest, memo)

/-- One iteration over the rule blocks (network_policy.py:496–569). -/
def blockAppends (c : Cluster) (net : Net) (direction : Direction) (policyNs : String)
    (block : RuleBlock) (memo : Memo) : Except Error (List Append × Memo) := do
  let (peers, prefixes) ← parseSelectors c net policyNs block memo.prefixes
  let memo := { memo with prefixes := prefixes }
  let peers := { peers with
    allowedResources := peers.allowedResources ++ ipBlockResources net block }
  match block.ports with
  | some ports => portsAppends c net direction policyNs peers ports memo
  | none =>
    let appends ← resourceAppends c net direction none none policyNs peers.allowedResources
    return (appends ++ (peers.allowedCidrs.getD []).map fun cidr =>
      ⟨createSecurityGroupRuleBody net direction none none .IPv4 (some cidr) none none,
        false, none, none⟩, memo)

/-- The loop over the rule blocks. -/
def blocksAppends (c : Cluster) (net : Net) (direction : Direction) (policyNs : String) :
    List RuleBlock → Memo → Except Error (List Append × Memo)
  | [], memo => .ok ([], memo)
  | block :: blocks, memo => do
    let (appends, memo) ← blockAppends c net direction policyNs block memo
    let (rest, memo) ← blocksAppends c net direction policyNs blocks memo
    return (appends ++ rest, memo)

/-- `_parse_sg_rules` (network_policy.py:449–569). -/
def parseSgRules (c : Cluster) (net : Net) (direction : Direction) (policy : NetworkPolicy)
    (memo : Memo) : Except Error (List Append × Memo) :=
  match (policy.spec.ruleList direction).getD [] with
  | [] =>
    match direction with
    | .ingress =>
      .ok (if policy.spec.policyTypes = [.egress] then createDefaultSgRule net .ingress else [],
        memo)
    | .egress =>
      .ok (if policy.spec.policyTypes ≠ [] ∧ .egress ∉ policy.spec.policyTypes then
        createDefaultSgRule net .egress else [], memo)
  | block :: blocks => do
    let default := if block = RuleBlock.empty then createDefaultSgRule net direction else []
    let (appends, memo) ← blocksAppends c net direction policy.ns (block :: blocks) memo
    return (default ++ appends, memo)

/-- `_parse_network_policy_rules` (network_policy.py:653–668). -/
def parseNetworkPolicyRules (c : Cluster) (net : Net) (policy : NetworkPolicy)
    (prefixes : List String) : Except Error (List Append × List Append) := do
  let (ingress, memo) ← parseSgRules c net .ingress policy ⟨policy.spec.podSelector, prefixes⟩
  let (egress, _) ← parseSgRules c net .egress policy memo
  return (ingress, egress)

end KuryrKubernetes
