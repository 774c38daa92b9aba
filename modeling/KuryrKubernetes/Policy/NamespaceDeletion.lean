import KuryrKubernetes.Policy.PodDeletion

/-!
# The trigger for a deleted namespace

`delete_namespace_sg_rules` looks for the name of the namespace in the stored rules: in
their `namespace`, and in the `affectedPods`. A rule on a named port gets no
`namespace`, only the pods that have the port. So the rules that open a named port to
the namespace, or to its pods, are missed when the port is on pods of other namespaces
(`deleteNamespaceSgRules_misses_named_port`). `deleteNamespaceSgRules_iff` says exactly
when the trigger is complete.
-/

namespace KuryrKubernetes

open Dicts LabelSelectors Results

/-- The rule carries the name of a namespace. -/
def Rule.Tagged (r : Rule) (name : String) : Prop :=
  r.ns = some name ∨ ∃ info ∈ r.affectedPods.getD [], info.podNamespace = name

theorem parseRulesOnDeleteNamespace_iff {rules : List Rule} {name : String} :
    Trigger.parseRulesOnDeleteNamespace rules name = true ↔ ∃ r ∈ rules, r.Tagged name := by
  simp [Trigger.parseRulesOnDeleteNamespace, Rule.Tagged]

open NetworkPolicySecurityGroupsDriver in
/-- The policies with a rule that carries the name. -/
theorem mem_deleteNamespaceSgRules {crds : List KuryrNetworkPolicy} {ns : Namespace}
    {crd : KuryrNetworkPolicy} (hcrd : crd ∈ crds) :
    (∃ bump ∈ deleteNamespaceSgRules crds ns, bump.crd = crd) ↔
      ∃ d, ∃ r ∈ crd.rules d, r.Tagged ns.name := by
  have hmatched : ∀ crd' : KuryrNetworkPolicy,
      (Trigger.parseRulesOnDeleteNamespace crd'.ingressSgRules ns.name ||
        Trigger.parseRulesOnDeleteNamespace crd'.egressSgRules ns.name) = true ↔
        ∃ d, ∃ r ∈ crd'.rules d, r.Tagged ns.name := by
    intro crd'
    rw [Bool.or_eq_true_iff, parseRulesOnDeleteNamespace_iff, parseRulesOnDeleteNamespace_iff,
      Direction.exists_iff]
    rfl
  unfold deleteNamespaceSgRules
  constructor
  · rintro ⟨bump, hbump, rfl⟩
    obtain ⟨crd', -, hbump⟩ := List.mem_flatMap.mp hbump
    obtain ⟨htrue, heq⟩ := bumpNetworkpolicy_iff.mp ⟨bump, hbump, rfl⟩
    rw [← heq]
    exact (hmatched crd').mp htrue
  · intro h
    obtain ⟨bump, hbump, heq⟩ := bumpNetworkpolicy_iff.mpr ⟨(hmatched crd).mpr h, rfl⟩
    exact ⟨bump, List.mem_flatMap.mpr ⟨crd, hcrd, hbump⟩, heq⟩

/-! ## Rules for a namespace -/

/-- The rule is for the CIDR of the namespace, or for one of its pods, as a peer or as
a pod that has the named port. -/
def Reason.For (why : Reason) (name : String) : Prop :=
  (∃ n, why.resource = some (.namespace n) ∧ n.name = name ∧ why.via = none) ∨
  (∃ p, why.resource = some (.pod p) ∧ p.ns = name) ∨
  ∃ p, why.owner = some p ∧ p.ns = name

section

variable {c : Cluster} {net : Net} {d : Direction} {policyNs : String} {block : RuleBlock}
  {memo : Memo}

/-- Without an owner the ports are not named. -/
theorem Opens.owners_none {r : Resource} {o : Opening}
    (h : Opens c net d policyNs block memo r o none) : o.owners = none := by
  cases h with
  | everything => rfl
  | number => rfl

/-- The rule for the address of a resource, on ports that are not named, carries the
namespace of the resource. -/
theorem tagged_ownAppend {o : Opening} {r : Resource} {cidr name : String} (ho : o.owners = none)
    (hr : r.details.2 = some name) : (ownAppend net d o r cidr).rule.Tagged name := by
  refine .inl ?_
  simp [ownAppend, ho, hr, createSecurityGroupRuleBody]

/-- The affected pods are the pods with an address. -/
theorem mem_affectedPods {port : Option Nat} {protocol : Option Protocol} {ethertype : Ethertype}
    {cidr ns : Option String} {owners : Option PodMap} {info : PodInfo} :
    info ∈ (createSecurityGroupRuleBody net d port protocol ethertype cidr ns
      owners).affectedPods.getD []
      ↔ ∃ pods, owners = some pods ∧ (some info.podIP, info.podNamespace) ∈ pods.items := by
  cases owners with
  | none => simp [createSecurityGroupRuleBody]
  | some pods =>
    by_cases hne : pods.items = []
    · simp [createSecurityGroupRuleBody, Option.filter_some, hne]
    · simp only [createSecurityGroupRuleBody, Option.filter_some, ne_eq, hne, not_false_eq_true,
        decide_true, if_true, Option.map_some, Option.getD_some, List.mem_filterMap,
        Option.map_eq_some_iff, Option.some.injEq, exists_eq_left']
      constructor
      · rintro ⟨⟨_, ns⟩, he, ip, rfl, rfl⟩
        exact he
      · intro he
        exact ⟨_, he, info.podIP, rfl, rfl⟩

/-- A rule gets the name of its resource when its ports are not named, or the names of
the pods that have the port. -/
theorem Made.of_tagged {a : Append} {why : Reason} {name : String}
    (hmade : Made c net d policyNs block memo a why) (htag : a.rule.Tagged name) :
    (∃ a why, Made c net d policyNs block memo a why ∧ why.owner = none ∧ why.For name) ∨
      ∃ a why, Made c net d policyNs block memo a why ∧ why.via = none ∧
        ∃ pods ip, a.owners = some pods ∧ (some ip, name) ∈ pods.items := by
  cases hmade with
  | @peer r o owner _ via ho ha =>
    obtain ⟨cidr, hcidr, ha⟩ := ha
    cases via with
    | none =>
      subst ha
      rcases htag with hns | ⟨info, hinfo, rfl⟩
      · refine .inl ⟨_, _, .own ho hcidr, ?_⟩
        cases owner with
        | some owner =>
          obtain ⟨pods, hpods, -⟩ := ho.owner_key
          simp [ownAppend, hpods, createSecurityGroupRuleBody] at hns
        | none =>
          refine ⟨rfl, ?_⟩
          simp only [ownAppend, ho.owners_none, Option.isSome_none, Bool.false_eq_true, if_false,
            createSecurityGroupRuleBody] at hns
          rcases r with p | n | k
          · exact .inr (.inl ⟨p, rfl, Option.some.inj hns⟩)
          · exact .inl ⟨n, rfl, Option.some.inj hns, rfl⟩
          · cases hns
      · obtain ⟨pods, hpods, hmem⟩ := mem_affectedPods.mp hinfo
        exact .inr ⟨_, _, .own ho hcidr, rfl, pods, info.podIP, hpods, hmem⟩
    | some v =>
      -- the rules for services carry no name at all
      obtain ⟨-, -, ip, -, -, rfl⟩ := ha
      rcases htag with hns | ⟨info, hinfo, -⟩
      · cases hns
      · obtain ⟨pods, hpods, -⟩ := mem_affectedPods.mp hinfo
        cases hpods
  | @cidr o owner cidr ho hc =>
    rcases htag with hns | ⟨info, hinfo, rfl⟩
    · cases hns
    · obtain ⟨pods, hpods, hmem⟩ := mem_affectedPods.mp hinfo
      exact .inr ⟨_, _, .cidr ho hc, rfl, pods, info.podIP, hpods, hmem⟩
  | anywhere =>
    rcases htag with hns | ⟨info, hinfo, -⟩
    · cases hns
    · obtain ⟨pods, hpods, -⟩ := mem_affectedPods.mp hinfo
      cases hpods

/-- A rule for the namespace on ports that are not named. -/
theorem Made.tagged_of_for {a : Append} {why : Reason} {name : String}
    (hmade : Made c net d policyNs block memo a why) (howner : why.owner = none)
    (hfor : why.For name) :
      ∃ a why, Made c net d policyNs block memo a why ∧ a.rule.Tagged name := by
  cases hmade with
  | @peer r o owner _ via ho ha =>
    -- behind a rule for a service there is one for the resource itself
    obtain ⟨cidr, hcidr, -⟩ := ha
    obtain rfl : owner = none := howner
    refine ⟨_, _, .own ho hcidr, tagged_ownAppend ho.owners_none ?_⟩
    rcases hfor with ⟨n, hr, rfl, -⟩ | ⟨p, hr, rfl⟩ | ⟨p, hp, -⟩
    · cases hr
      rfl
    · cases hr
      rfl
    · cases hp
  | cidr =>
    rcases hfor with ⟨_, hr, -⟩ | ⟨_, hr, -⟩ | ⟨p, hp, -⟩
    · cases hr
    · cases hr
    · rw [howner] at hp
      cases hp
  | anywhere =>
    rcases hfor with ⟨_, hr, -⟩ | ⟨_, hr, -⟩ | ⟨p, hp, -⟩
    · cases hr
    · cases hr
    · cases hp

/-- A rule on a named port that a pod of the namespace has. -/
theorem Made.tagged_of_owner {a : Append} {why : Reason} {name ip : String} {pods : PodMap}
    (hmade : Made c net d policyNs block memo a why) (hvia : why.via = none)
    (hpods : a.owners = some pods) (hmem : (some ip, name) ∈ pods.items) : a.rule.Tagged name := by
  refine .inr ⟨⟨ip, name⟩, ?_, rfl⟩
  cases hmade with
  | @peer r o owner _ via ho ha =>
    obtain ⟨cidr, hcidr, ha⟩ := ha
    obtain rfl : via = none := hvia
    subst ha
    exact mem_affectedPods.mpr ⟨pods, hpods, hmem⟩
  | cidr => exact mem_affectedPods.mpr ⟨pods, hpods, hmem⟩
  | anywhere => cases hpods

/-- **What puts the name of a namespace into a rule.** -/
theorem Made.tagged_iff {name : String} :
    (∃ a why, Made c net d policyNs block memo a why ∧ a.rule.Tagged name) ↔
      (∃ a why, Made c net d policyNs block memo a why ∧ why.owner = none ∧ why.For name) ∨
      ∃ a why, Made c net d policyNs block memo a why ∧ why.via = none ∧
        ∃ pods ip, a.owners = some pods ∧ (some ip, name) ∈ pods.items := by
  constructor
  · rintro ⟨a, why, hmade, htag⟩
    exact hmade.of_tagged htag
  · rintro (⟨a, why, hmade, howner, hfor⟩ | ⟨a, why, hmade, hvia, pods, ip, hpods, hmem⟩)
    · exact hmade.tagged_of_for howner hfor
    · exact ⟨a, why, hmade, hmade.tagged_of_owner hvia hpods hmem⟩

end

section

variable {c : Cluster} {net : Net} {policy : NetworkPolicy} {prefixes : List String}

theorem defaultAppends_forms {d : Direction} {a : Append}
    (h : a ∈ defaultAppends net policy.spec d) :
    ∃ ethertype, a = ⟨createSecurityGroupRuleBody net d none none ethertype none none none,
      false, none, none⟩ := by
  have hmem : a ∈ createDefaultSgRule net d := by
    unfold defaultAppends at h
    split at h
    · split at h
      · exact h
      · cases h
    · split at h
      · exact h
      · cases h
  obtain ⟨ethertype, -, rfl⟩ := List.mem_map.mp hmem
  exact ⟨ethertype, rfl⟩

theorem PolicyMade.tagged_iff {d : Direction} {name : String} :
    (∃ a why, PolicyMade c net policy prefixes d a why ∧ a.rule.Tagged name) ↔
      (∃ a why, PolicyMade c net policy prefixes d a why ∧ why.owner = none ∧ why.For name) ∨
      ∃ a why, PolicyMade c net policy prefixes d a why ∧ why.via = none ∧
        ∃ pods ip, a.owners = some pods ∧ (some ip, name) ∈ pods.items := by
  constructor
  · rintro ⟨a, why, hmade, htag⟩
    cases hmade with
    | default hdef =>
      obtain ⟨ethertype, rfl⟩ := defaultAppends_forms hdef
      rcases htag with hns | ⟨info, hinfo, -⟩
      · cases hns
      · obtain ⟨pods, hpods, -⟩ := mem_affectedPods.mp hinfo
        cases hpods
    | block hblock hmade =>
      rcases Made.tagged_iff.mp ⟨a, why, hmade, htag⟩ with ⟨a', why', hmade', h⟩ |
        ⟨a', why', hmade', h⟩
      · exact .inl ⟨a', why', .block hblock hmade', h⟩
      · exact .inr ⟨a', why', .block hblock hmade', h⟩
  · have hblock : ∀ {block memo a why}, (block, memo) ∈
        blockMemos net d (policy.spec.blocks d) (startMemo net policy prefixes d) →
        Made c net d policy.ns block memo a why →
        ((why.owner = none ∧ why.For name) ∨ (why.via = none ∧
          ∃ pods ip, a.owners = some pods ∧ (some ip, name) ∈ pods.items)) →
        ∃ a why, PolicyMade c net policy prefixes d a why ∧ a.rule.Tagged name := by
      intro block memo a why hblock hmade h
      obtain ⟨a', why', hmade', htag⟩ := Made.tagged_iff.mpr
        (h.imp (fun h => ⟨a, why, hmade, h⟩) fun h => ⟨a, why, hmade, h⟩)
      exact ⟨a', why', .block hblock hmade', htag⟩
    rintro (⟨a, why, hmade, howner, hfor⟩ | ⟨a, why, hmade, hvia, pods, ip, hpods, hmem⟩)
    · cases hmade with
      | default hdef =>
        rcases hfor with ⟨_, hr, -⟩ | ⟨_, hr, -⟩ | ⟨_, hp, -⟩
        · cases hr
        · cases hr
        · cases hp
      | block hb hmade => exact hblock hb hmade (.inl ⟨howner, hfor⟩)
    · cases hmade with
      | default hdef =>
        obtain ⟨ethertype, rfl⟩ := defaultAppends_forms hdef
        cases hpods
      | block hb hmade => exact hblock hb hmade (.inr ⟨hvia, pods, ip, hpods, hmem⟩)

end

/-- A stored rule is for a namespace. -/
def MadeFor (c : Cluster) (net : Net) (policy : NetworkPolicy) (prefixes : List String)
    (d : Direction) (r : Rule) (name : String) : Prop :=
  ∃ a why, PolicyMade c net policy prefixes d a why ∧ a.rule = r ∧ why.For name

/-- Some rule for the namespace is not on a named port, or some rule on a named port has
a pod of the namespace among the pods that have the port, or no rule on a named port is
for the namespace. -/
def NamespaceTraced (c : Cluster) (net : Net) (policy : NetworkPolicy) (prefixes : List String)
    (name : String) : Prop :=
  (∃ d a why, PolicyMade c net policy prefixes d a why ∧ why.owner = none ∧ why.For name) ∨
  (∃ d a why, PolicyMade c net policy prefixes d a why ∧ why.via = none ∧
    ∃ pods ip, a.owners = some pods ∧ (some ip, name) ∈ pods.items) ∨
  ∀ d a why, PolicyMade c net policy prefixes d a why → why.owner ≠ none → ¬ why.For name

open NetworkPolicySecurityGroupsDriver in
/-- **The trigger for deleted namespaces**, exactly. -/
theorem deleteNamespaceSgRules_iff (c : Cluster) (net : Net) (policy : NetworkPolicy)
    (prefixes : List String) (crds : List KuryrNetworkPolicy) (crd : KuryrNetworkPolicy)
    (ns : Namespace) (out : List Append × List Append)
    (hout : parseNetworkPolicyRules c net policy prefixes = .ok out) (hstores : crd.Stores out)
    (hcrd : crd ∈ crds) :
    ((∃ d, ∃ r ∈ crd.rules d, MadeFor c net policy prefixes d r ns.name) →
        ∃ bump ∈ deleteNamespaceSgRules crds ns, bump.crd = crd) ↔
      NamespaceTraced c net policy prefixes ns.name := by
  have hbumped : (∃ bump ∈ deleteNamespaceSgRules crds ns, bump.crd = crd) ↔
      ∃ d a why, PolicyMade c net policy prefixes d a why ∧ a.rule.Tagged ns.name := by
    rw [mem_deleteNamespaceSgRules hcrd]
    refine exists_congr fun d => ?_
    constructor
    · rintro ⟨r, hr, htag⟩
      obtain ⟨a, ha, rfl⟩ := hstores.mem_rules.mp hr
      obtain ⟨why, hwhy⟩ := (mem_parseNetworkPolicyRules hout d a).mp ha
      exact ⟨a, why, hwhy, htag⟩
    · rintro ⟨a, why, hwhy, htag⟩
      exact ⟨a.rule, hstores.mem_rules.mpr
        ⟨a, (mem_parseNetworkPolicyRules hout d a).mpr ⟨why, hwhy⟩, rfl⟩, htag⟩
  have hfor : (∃ d, ∃ r ∈ crd.rules d, MadeFor c net policy prefixes d r ns.name) ↔
      ∃ d a why, PolicyMade c net policy prefixes d a why ∧ why.For ns.name := by
    refine exists_congr fun d => ?_
    constructor
    · rintro ⟨r, -, a, why, hwhy, -, hfor⟩
      exact ⟨a, why, hwhy, hfor⟩
    · rintro ⟨a, why, hwhy, hfor⟩
      exact ⟨a.rule, hstores.mem_rules.mpr
        ⟨a, (mem_parseNetworkPolicyRules hout d a).mpr ⟨why, hwhy⟩, rfl⟩, a, why, hwhy, rfl, hfor⟩
  rw [hbumped, hfor]
  constructor
  · intro h
    by_cases hnamed : ∃ d a why, PolicyMade c net policy prefixes d a why ∧ why.owner ≠ none ∧
        why.For ns.name
    · obtain ⟨d, a, why, hwhy, -, hf⟩ := hnamed
      obtain ⟨d', htagged⟩ := h ⟨d, a, why, hwhy, hf⟩
      rcases PolicyMade.tagged_iff.mp htagged with htag | htag
      · exact .inl ⟨d', htag⟩
      · exact .inr (.inl ⟨d', htag⟩)
    · refine .inr (.inr fun d a why hwhy howner hf => ?_)
      exact hnamed ⟨d, a, why, hwhy, howner, hf⟩
  · rintro (⟨d, h⟩ | ⟨d, h⟩ | hnone) ⟨d', a, why, hwhy, hf⟩
    · exact ⟨d, PolicyMade.tagged_iff.mpr (.inl h)⟩
    · exact ⟨d, PolicyMade.tagged_iff.mpr (.inr h)⟩
    · have howner : why.owner = none := by
        by_contra howner
        exact hnone d' a why hwhy howner hf
      exact ⟨d', PolicyMade.tagged_iff.mpr (.inl ⟨a, why, hwhy, howner, hf⟩)⟩

/-- The namespaces of the team. -/
def shopNamespace : Namespace := ⟨"shop", some teamLabels, ["kubernetes"], some "10.0.0.0/24"⟩

@[inherit_doc shopNamespace]
def storeNamespace : Namespace := ⟨"store", some teamLabels, ["kubernetes"], some "10.0.1.0/24"⟩

/-- The team's namespaces may reach the web pods. -/
def teamPolicy (ports : Option (List PolicyPort)) : NetworkPolicy :=
  ingressPolicy webSelector [⟨some [⟨some ⟨some teamLabels, none⟩, none, none⟩], ports⟩]

/-- The named port of the web pods. -/
def httpPort : PolicyPort := ⟨.text (some "http"), none⟩

/-- The rules for the two namespaces, all ports. -/
def teamAppends : List Append :=
  [shopNamespace, storeNamespace].map fun n =>
    ⟨createSecurityGroupRuleBody sampleNet .ingress none none .IPv4 n.subnetCIDR (some n.name) none,
      false, some (.namespace n), none⟩

/-- The rules for the two namespaces, on the named port. -/
def teamNamedAppends : List Append :=
  [shopNamespace, storeNamespace].map fun n =>
    ⟨createSecurityGroupRuleBody sampleNet .ingress (some 8080) (some .TCP) .IPv4 n.subnetCIDR none
      (some ⟨[(some "10.0.0.5", "shop")], by decide⟩), true, some (.namespace n),
      some ⟨[(some "10.0.0.5", "shop")], by decide⟩⟩

/-- The rules of `teamPolicy`, for all ports and for the named one. -/
theorem parse_teamPolicy :
    parseNetworkPolicyRules teamCluster sampleNet (teamPolicy none) [] =
        .ok (teamAppends, createDefaultSgRule sampleNet .egress) ∧
      parseNetworkPolicyRules teamCluster sampleNet (teamPolicy (some [httpPort])) [] =
        .ok (teamNamedAppends, createDefaultSgRule sampleNet .egress) := by
  decide +kernel

/-- What the selectors of `teamPolicy` find. -/
theorem team_selected :
    collect (peerResources teamCluster "shop") [⟨some ⟨some teamLabels, none⟩, none, none⟩] =
        .ok [.namespace shopNamespace, .namespace storeNamespace] ∧
      getPods teamCluster webSelector (some "shop") = .ok [webPod] := by
  decide +kernel

theorem team_resources (ports : Option (List PolicyPort)) :
    BlockResources teamCluster sampleNet "shop"
      ⟨some [⟨some ⟨some teamLabels, none⟩, none, none⟩], ports⟩
      [.namespace shopNamespace, .namespace storeNamespace] :=
  ⟨[.namespace shopNamespace, .namespace storeNamespace], team_selected.1, rfl⟩

/-- The store is a peer of `teamPolicy`. -/
theorem store_made : ∃ a why, PolicyMade teamCluster sampleNet (teamPolicy none) [] .ingress a why ∧
    why.owner = none ∧ why.For storeNamespace.name :=
  ⟨_, _, .block (List.mem_singleton.mpr rfl)
    (.own (.everything rfl (team_resources none) (by simp)) rfl), rfl,
    .inl ⟨storeNamespace, rfl, rfl, rfl⟩⟩

/-- The rules for the store carry its name. -/
theorem deleteNamespaceSgRules_iff_store :
    ∃ bump ∈ NetworkPolicySecurityGroupsDriver.deleteNamespaceSgRules
      [webCrd (runAppends teamAppends)] storeNamespace,
      bump.crd = webCrd (runAppends teamAppends) := by
  obtain ⟨a, why, hmade, howner, hfor⟩ := store_made
  have hstores := webCrd_stores teamAppends
  have hmem := (mem_parseNetworkPolicyRules parse_teamPolicy.1 .ingress a).mpr ⟨why, hmade⟩
  exact (deleteNamespaceSgRules_iff teamCluster sampleNet (teamPolicy none) [] _ _ storeNamespace _
    parse_teamPolicy.1 hstores (List.mem_singleton.mpr rfl)).mpr
    (.inl ⟨.ingress, a, why, hmade, howner, hfor⟩)
    ⟨.ingress, a.rule, hstores.mem_rules.mpr ⟨a, hmem, rfl⟩, a, why, hmade, rfl, hfor⟩

/-- The block of `teamPolicy` with the named port. -/
def teamNamedBlock : RuleBlock :=
  ⟨some [⟨some ⟨some teamLabels, none⟩, none, none⟩], some [httpPort]⟩

/-- The named port of the web pod is opened to the store. -/
theorem team_opens_http : ∃ pods, Opens teamCluster sampleNet .ingress "shop" teamNamedBlock
    ⟨webSelector, []⟩ (.namespace storeNamespace) ⟨some 8080, httpPort.protocolOrTCP, some pods⟩
    (some webPod) := by
  have hoff : Offered teamCluster .ingress (some "http") "shop"
      [.namespace shopNamespace, .namespace storeNamespace] webSelector (.namespace storeNamespace)
      8080 webPod :=
    ⟨by simp, by decide, [webPod], team_selected.2, List.mem_singleton.mpr rfl⟩
  have hrs : NamedResources teamCluster sampleNet "shop" teamNamedBlock
      [.namespace shopNamespace, .namespace storeNamespace] := by
    unfold NamedResources
    rw [if_neg (by decide)]
    exact team_resources _
  exact Opens.of_offered (s := webSelector) rfl (List.mem_singleton.mpr rfl) rfl hrs hoff rfl

/-- The rules on the named port carry only the namespace of the web pod. -/
theorem deleteNamespaceSgRules_misses_named_port :
    (∃ out, parseNetworkPolicyRules teamCluster sampleNet (teamPolicy (some [httpPort])) [] =
      .ok out ∧
      (webCrd (runAppends teamNamedAppends)).Stores out) ∧
    (∃ d, ∃ r ∈ (webCrd (runAppends teamNamedAppends)).rules d, MadeFor teamCluster sampleNet
      (teamPolicy (some [httpPort])) [] d r storeNamespace.name) ∧
    ¬ ∃ bump ∈ NetworkPolicySecurityGroupsDriver.deleteNamespaceSgRules
      [webCrd (runAppends teamNamedAppends)] storeNamespace,
      bump.crd = webCrd (runAppends teamNamedAppends) := by
  have hstores := webCrd_stores teamNamedAppends
  refine ⟨⟨_, parse_teamPolicy.2, hstores⟩, ⟨.ingress, ?_⟩, by decide +kernel⟩
  obtain ⟨pods, hopens⟩ := team_opens_http
  have hblock : (teamNamedBlock, (⟨webSelector, []⟩ : Memo)) ∈ blockMemos sampleNet .ingress
      ((teamPolicy (some [httpPort])).spec.blocks .ingress)
      (startMemo sampleNet (teamPolicy (some [httpPort])) [] .ingress) := List.mem_singleton.mpr rfl
  obtain ⟨a, why, hmade, hfor⟩ : ∃ a why, PolicyMade teamCluster sampleNet
      (teamPolicy (some [httpPort])) [] .ingress a why ∧ why.For storeNamespace.name :=
    ⟨_, _, .block hblock (.own hopens rfl), .inl ⟨storeNamespace, rfl, rfl, rfl⟩⟩
  have hmem := (mem_parseNetworkPolicyRules parse_teamPolicy.2 .ingress a).mpr ⟨why, hmade⟩
  exact ⟨a.rule, hstores.mem_rules.mpr ⟨a, hmem, rfl⟩, a, why, hmade, rfl, hfor⟩

end KuryrKubernetes
