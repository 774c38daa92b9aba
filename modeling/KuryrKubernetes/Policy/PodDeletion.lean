import KuryrKubernetes.Policy.Parts
import KuryrKubernetes.Policy.Triggers

/-!
# The trigger for a deleted pod

`delete_sg_rules` does not read the policy again: it looks for the address of the pod
in the stored rules. `deleteSgRules_complete` says that this is enough. A pod that
contributes to a rule leaves its address in some rule of the same direction, as remote
prefix when it is a peer and in `affectedPods` when it has a named port.

Only the rules for services inside an IP block can depend on a pod without naming it,
so the policy has no IP blocks.
-/

namespace KuryrKubernetes

open Dicts LabelSelectors Results

/-! ## The cluster without a pod -/

/-- Everything but one pod. -/
def othersThan (p : Pod) : Keep := ⟨(· ≠ p), fun _ => true, fun _ => true⟩

theorem withoutPod_part (c : Cluster) (p : Pod) : Part (othersThan p) c (c.withoutPod p) where
  pods := rfl
  namespaces := (List.filter_eq_self.mpr fun _ _ => rfl).symm
  services := (List.filter_eq_self.mpr fun _ _ => rfl).symm
  housed := fun _ _ _ _ => rfl

section

variable {c : Cluster} {net : Net} {policyNs : String} {p : Pod}

/-- The peers are the same, without the pod. -/
theorem peerResources_withoutPod (rule : Peer) :
    peerResources (c.withoutPod p) policyNs rule =
      (peerResources c policyNs rule).map (List.filter (othersThan p).resource) := by
  have hp := withoutPod_part c p
  have hpods : ∀ s ns,
    (getPods (c.withoutPod p) s ns >>= fun pods => pure (pods.map Resource.pod)) =
      Except.map (List.filter (othersThan p).resource)
        (getPods c s ns >>= fun pods => pure (pods.map Resource.pod)) := by
    intro s ns
    rw [hp.getPods_eq]
    cases getPods c s ns with
    | error e => rfl
    | ok pods => exact congrArg Except.ok (filter_map_pods _ pods).symm
  unfold peerResources
  cases rule.kind with
  | ipBlock => rfl
  | cluster => rfl
  | podsEverywhere s => exact hpods s none
  | ownPods s => exact hpods s (some policyNs)
  | podsOf n s =>
    show (getNamespaces c n >>= _) = Except.map _ (getNamespaces c n >>= _)
    cases getNamespaces c n with
    | error e => rfl
    | ok nss =>
      show (getPodsInNamespaces (c.withoutPod p) s (List.filter (othersThan p).pod []) nss >>= _) =
        Except.map _ (getPodsInNamespaces c s [] nss >>= _)
      rw [hp.getPodsInNamespaces_eq]
      cases getPodsInNamespaces c s [] nss with
      | error e => rfl
      | ok pods => exact congrArg Except.ok (filter_map_pods _ pods).symm
  | namespaces n =>
    show (getNamespaces c n >>= _) = Except.map _ (getNamespaces c n >>= _)
    cases getNamespaces c n with
    | error e => rfl
    | ok nss =>
      have hall : nss.filter (othersThan p).ns = nss := List.filter_eq_self.mpr fun _ _ => rfl
      show Except.ok _ = Except.ok _
      rw [filter_map_namespaces, hall]
  | ownNamespace =>
    show (c.namespace? policyNs >>= _) = Except.map _ (c.namespace? policyNs >>= _)
    cases c.namespace? policyNs with
    | error e => rfl
    | ok ns => rfl

theorem filter_ipBlockResources (k : Keep) (block : RuleBlock) :
    (ipBlockResources net block).filter k.resource = ipBlockResources net block := by
  rw [List.filter_eq_self]
  intro r hr
  obtain ⟨b, -, hr⟩ := List.mem_flatMap.mp hr
  split at hr
  · obtain ⟨ex, -, hr⟩ := List.mem_flatMap.mp hr
    obtain ⟨cidr, -, rfl⟩ := List.mem_map.mp hr
    rfl
  · obtain rfl := List.mem_singleton.mp hr
    rfl

theorem blockResources_withoutPod {block : RuleBlock} {rs' : List Resource} :
    BlockResources (c.withoutPod p) net policyNs block rs' ↔
      ∃ rs, BlockResources c net policyNs block rs ∧ rs' = rs.filter (othersThan p).resource := by
  have hcollect : collect (peerResources (c.withoutPod p) policyNs) (block.peers.getD []) =
      (collect (peerResources c policyNs) (block.peers.getD [])).map
        (List.filter (othersThan p).resource) :=
    collect_filter fun rule _ => peerResources_withoutPod rule
  unfold BlockResources
  rw [hcollect]
  cases collect (peerResources c policyNs) (block.peers.getD []) with
  | error e => simp [Except.map]
  | ok found =>
    constructor
    · rintro ⟨_, hfound, rfl⟩
      cases hfound
      refine ⟨_, ⟨found, rfl, rfl⟩, ?_⟩
      rw [List.filter_append, filter_ipBlockResources]
    · rintro ⟨_, ⟨_, hfound, rfl⟩, rfl⟩
      cases hfound
      exact ⟨_, rfl, by rw [List.filter_append, filter_ipBlockResources]⟩

/-- **Reasons without the pod**: those that do not name it. -/
theorem produces_withoutPod {policy : NetworkPolicy} {prefixes prefixes' : List String}
    (hpool : SamePool net prefixes prefixes') {d : Direction} {b : SgRule} {why : Reason} :
    Produces (c.withoutPod p) net policy prefixes' d b why ↔
      Produces c net policy prefixes d b why ∧ why.Kept (othersThan p) := by
  have hp := withoutPod_part c p
  constructor
  · intro h
    refine hp.produces_extend hpool (fun block _ rs' hrs' => ?_) h
    obtain ⟨rs, hrs, rfl⟩ := blockResources_withoutPod.mp hrs'
    exact ⟨rs, hrs, List.filter_sublist, fun r hr => (List.mem_filter.mp hr).2⟩
  · rintro ⟨h, hk⟩
    refine hp.produces_restrict hpool (fun block _ rs hrs => ?_) h hk
    exact ⟨_, blockResources_withoutPod.mpr ⟨rs, hrs, rfl⟩, List.Sublist.refl _⟩

end

/-! ## What a pod leaves behind -/

/-- The rule names an address, as remote prefix or among the affected pods. -/
def Rule.Mentions (r : Rule) (ip : String) : Prop :=
  r.sgRule.remote_ip_prefix = some ip ∨ ∃ info ∈ r.affectedPods.getD [], info.podIP = ip

theorem parseRulesOnDeletePod_iff {rules : List Rule} {ip : String} :
    Trigger.parseRulesOnDeletePod rules ip = true ↔ ∃ r ∈ rules, r.Mentions ip := by
  simp [Trigger.parseRulesOnDeletePod, Rule.Mentions]

/-- The addresses of the pods behind a named port are kept in the rule. -/
theorem mentions_owner {net : Net} {d : Direction} {port : Option Nat} {protocol : Option Protocol}
    {ethertype : Ethertype} {cidr ns : Option String} {pods : PodMap} {ip : String}
    (h : some ip ∈ pods.keys) :
    (createSecurityGroupRuleBody net d port protocol ethertype cidr ns (some pods)).Mentions
      ip := by
  obtain ⟨v, hv⟩ := Dict.mem_keys.mp h
  have hne : pods.items ≠ [] := List.ne_nil_of_mem hv
  refine .inr ⟨⟨ip, v⟩, ?_, rfl⟩
  simp only [createSecurityGroupRuleBody, Option.filter_some, ne_eq, hne, not_false_eq_true,
    decide_true, if_true, Option.map_some, Option.getD_some, List.mem_filterMap]
  exact ⟨_, hv, rfl⟩

section

variable {c : Cluster} {net : Net} {d : Direction} {policyNs : String} {block : RuleBlock}
  {memo : Memo} {p : Pod}

/-- The owner of a named port is among the pods that have it. -/
theorem gather_key {spec : Option (LabelSelector × String)} {es : List (Pod × Nat)}
    {e : Nat × PodMap} {owner : Pod} (he : e ∈ (gather spec es).items) (howner : (owner, e.1) ∈ es)
    (hex : excluded spec owner = false) : owner.podIP ∈ e.2.keys := by
  obtain ⟨pods, hpods, hkey⟩ := has_gather.mpr ⟨owner, howner, rfl, hex⟩
  have hsame : some pods = some e.2 :=
    (Dict.get?_eq_some.mpr hpods).symm.trans (Dict.get?_eq_some.mpr he)
  rwa [Option.some.inj hsame] at hkey

theorem Opens.owner_key {r : Resource} {o : Opening} {owner : Pod}
    (h : Opens c net d policyNs block memo r o (some owner)) :
    ∃ pods, o.owners = some pods ∧ owner.podIP ∈ pods.keys := by
  cases h with
  | named _ _ _ _ _ _ he howner hex => exact ⟨_, rfl, gather_key he howner hex⟩

theorem OpensCidr.owner_key {o : Opening} {owner : Pod}
    (h : OpensCidr c d policyNs block memo o (some owner)) :
    ∃ pods, o.owners = some pods ∧ owner.podIP ∈ pods.keys := by
  cases h with
  | named _ _ _ _ he howner hex => exact ⟨_, rfl, gather_key he howner hex⟩

/-- A block opens ports for its resources, or for all pods. -/
theorem Opens.resource {r : Resource} {o : Opening} {owner : Option Pod}
    (h : Opens c net d policyNs block memo r o owner) :
    (∃ rs, BlockResources c net policyNs block rs ∧ r ∈ rs) ∨ r ∈ c.pods.map Resource.pod := by
  cases h with
  | everything _ hrs hr => exact .inl ⟨_, hrs, hr⟩
  | number _ _ _ _ hrs hr => exact .inl ⟨_, hrs, hr⟩
  | named _ _ _ hrs hcalls hsplit _ howner _ =>
    have hr := ((offered_iff hcalls).mp ⟨_, _, _, hsplit, rfl, howner⟩).mem
    unfold NamedResources at hrs
    split at hrs
    · subst hrs
      exact .inr hr
    · exact .inl ⟨_, hrs, hr⟩

/-- The entries of a block are not IP blocks. -/
def RuleBlock.NoIpBlocks (block : RuleBlock) : Prop :=
  ∀ rule ∈ block.peers.getD [], rule.ipBlock = none

theorem peerResources_not_cidr {rule : Peer} {rs : List Resource}
    (h : peerResources c policyNs rule = .ok rs) (cidr : String) : Resource.cidr cidr ∉ rs := by
  unfold peerResources at h
  intro hmem
  split at h
  · cases h
    cases hmem
  · cases h
    cases hmem
  · obtain ⟨pods, -, h⟩ := bind_eq_ok.mp h
    cases h
    obtain ⟨_, -, heq⟩ := List.mem_map.mp hmem
    cases heq
  · obtain ⟨nss, -, h⟩ := bind_eq_ok.mp h
    obtain ⟨pods, -, h⟩ := bind_eq_ok.mp h
    cases h
    obtain ⟨_, -, heq⟩ := List.mem_map.mp hmem
    cases heq
  · obtain ⟨nss, -, h⟩ := bind_eq_ok.mp h
    cases h
    obtain ⟨_, -, heq⟩ := List.mem_map.mp hmem
    cases heq
  · obtain ⟨ns, -, h⟩ := bind_eq_ok.mp h
    cases h
    cases List.mem_singleton.mp hmem
  · obtain ⟨pods, -, h⟩ := bind_eq_ok.mp h
    cases h
    obtain ⟨_, -, heq⟩ := List.mem_map.mp hmem
    cases heq

theorem ipBlockResources_eq_nil (h : block.NoIpBlocks) : ipBlockResources net block = [] := by
  have hnone : (block.peers.getD []).filterMap Peer.ipBlock = [] := by
    rw [List.filterMap_eq_nil_iff]
    exact h
  rw [ipBlockResources, hnone]
  rfl

theorem BlockResources.not_cidr {rs : List Resource} (hno : block.NoIpBlocks)
    (h : BlockResources c net policyNs block rs) (cidr : String) : Resource.cidr cidr ∉ rs := by
  obtain ⟨found, hfound, rfl⟩ := h
  rw [ipBlockResources_eq_nil hno, List.append_nil]
  intro hmem
  obtain ⟨rule, -, l, hl, hmem⟩ := ((mem_collect hfound).2 _).mp hmem
  exact peerResources_not_cidr hl cidr hmem

/-- Only an IP block makes a service depend on a pod. -/
theorem Backs.cidr {svc : Service} {r : Resource} {q : Pod}
    (h : Backs c net policyNs svc r (some q)) : ∃ cidr, r = .cidr cidr := by
  rcases r with p | n | cidr
  · exact absurd h.2 (by simp)
  · exact absurd h.2 (by simp)
  · exact ⟨cidr, rfl⟩

theorem othersThan_pod {p q : Pod} : (othersThan p).pod q = true ↔ q ≠ p := by
  simp [othersThan]

/-- **A pod that no rule mentions is in no reason.** -/
theorem Made.kept_of_not_mentioned {a : Append} {why : Reason} {ip : String}
    (hno : block.NoIpBlocks) (hip : p.podIP = some ip)
    (h : Made c net d policyNs block memo a why)
    (hsilent : ∀ a why, Made c net d policyNs block memo a why → ¬ a.rule.Mentions ip) :
    why.Kept (othersThan p) := by
  cases h with
  | @peer r o owner _ via ho ha =>
    obtain ⟨cidr, hcidr, hvia⟩ := ha
    have hown := Made.own ho hcidr
    refine ⟨fun r' h => ?_, fun q h => ?_, fun _ _ => rfl, fun v q h hq => ?_⟩
    · cases h
      -- as a peer, the pod has its address in the rule for itself
      rcases r with q | n | cidr'
      · refine othersThan_pod.mpr ?_
        rintro rfl
        exact hsilent _ _ hown (.inl (hcidr.symm.trans hip))
      · rfl
      · rfl
    · cases h
      refine othersThan_pod.mpr ?_
      rintro rfl
      obtain ⟨pods, hpods, hkey⟩ := ho.owner_key
      rw [hip] at hkey
      refine hsilent _ _ hown ?_
      rw [ownAppend, hpods]
      exact mentions_owner hkey
    · cases h
      obtain ⟨-, -, _, -, hb, -⟩ := hvia
      rw [hq] at hb
      -- a pod behind a service matters for IP blocks only, and there are none
      obtain ⟨cidr', rfl⟩ := hb.cidr
      rcases ho.resource with ⟨rs, hrs, hr⟩ | hr
      · exact absurd hr (hrs.not_cidr hno cidr')
      · obtain ⟨_, -, heq⟩ := List.mem_map.mp hr
        cases heq
  | @cidr o owner cidr ho hc =>
    refine Reason.kept_of_owner fun q h => ?_
    cases h
    refine othersThan_pod.mpr ?_
    rintro rfl
    obtain ⟨pods, hpods, hkey⟩ := ho.owner_key
    rw [hip] at hkey
    refine hsilent _ _ (.cidr ho hc) ?_
    rw [cidrAppend, hpods]
    exact mentions_owner hkey
  | anywhere => exact Reason.kept_of_owner (by simp)

end

/-! ## The trigger -/

/-- The rules of a KuryrNetworkPolicy are those of a compilation. -/
structure KuryrNetworkPolicy.Stores (crd : KuryrNetworkPolicy) (out : List Append × List Append) :
    Prop where
  ingress : crd.ingressSgRules = runAppends out.1
  egress : crd.egressSgRules = runAppends out.2

/-- The stored rules of a direction. -/
def KuryrNetworkPolicy.rules (crd : KuryrNetworkPolicy) : Direction → List Rule
  | .ingress => crd.ingressSgRules
  | .egress => crd.egressSgRules

theorem KuryrNetworkPolicy.Stores.mem_rules {crd : KuryrNetworkPolicy}
    {out : List Append × List Append} (h : crd.Stores out) {d : Direction} {r : Rule} :
    r ∈ crd.rules d ↔ ∃ a ∈ appendsOf out d, a.rule = r := by
  cases d with
  | ingress => rw [KuryrNetworkPolicy.rules, h.ingress, mem_runAppends]; rfl
  | egress => rw [KuryrNetworkPolicy.rules, h.egress, mem_runAppends]; rfl

/-- The policy has no IP blocks. -/
def NetworkPolicy.NoIpBlocks (policy : NetworkPolicy) : Prop :=
  ∀ d, ∀ block ∈ policy.spec.blocks d, block.NoIpBlocks

open NetworkPolicySecurityGroupsDriver in
theorem mem_deleteSgRules {crds : List KuryrNetworkPolicy} {p : Pod} {ip : String}
    {crd : KuryrNetworkPolicy} (hip : p.kuryrPortIP = some ip) (hcrd : crd ∈ crds) {d : Direction}
    (h : ∃ r ∈ crd.rules d, r.Mentions ip) : ∃ bump ∈ deleteSgRules crds p, bump.crd = crd := by
  have hmatched := parseRulesOnDeletePod_iff.mpr h
  unfold deleteSgRules
  rw [hip]
  refine ⟨⟨crd, Trigger.parseRulesOnDeletePod crd.ingressSgRules ip, crd.podSelector⟩,
    List.mem_flatMap.mpr ⟨crd, hcrd, ?_⟩, rfl⟩
  unfold bumpNetworkpolicy
  rw [if_pos, List.mem_singleton]
  cases d with
  | ingress => exact Bool.or_eq_true_iff.mpr (.inl hmatched)
  | egress => exact Bool.or_eq_true_iff.mpr (.inr hmatched)

open NetworkPolicySecurityGroupsDriver in
/-- **The trigger for deleted pods is complete.** -/
theorem deleteSgRules_complete (c : Cluster) (net : Net) (policy : NetworkPolicy)
    (prefixes prefixes' : List String) (crds : List KuryrNetworkPolicy) (crd : KuryrNetworkPolicy)
    (p : Pod) (ip : String) (out out' : List Append × List Append)
    (hno : policy.NoIpBlocks) (hpod : p.podIP = some ip) (hport : p.kuryrPortIP = some ip)
    (hout : parseNetworkPolicyRules c net policy prefixes = .ok out) (hstores : crd.Stores out)
    (hcrd : crd ∈ crds) (hpool : SamePool net prefixes prefixes')
    (hout' : parseNetworkPolicyRules (c.withoutPod p) net policy prefixes' = .ok out')
    (hdiff : ¬ SameBodies out out') : ∃ bump ∈ deleteSgRules crds p, bump.crd = crd := by
  by_contra hsilent
  have hnone : ∀ d a why, PolicyMade c net policy prefixes d a why → ¬ a.rule.Mentions ip := by
    intro d a why ha hment
    have hmem := (mem_parseNetworkPolicyRules hout d a).mpr ⟨why, ha⟩
    exact hsilent (mem_deleteSgRules hport hcrd ⟨_, hstores.mem_rules.mpr ⟨a, hmem, rfl⟩, hment⟩)
  refine hdiff fun d b => ?_
  rw [mem_bodies hout, mem_bodies hout']
  refine exists_congr fun why => ?_
  rw [produces_withoutPod hpool]
  refine ⟨fun h => ⟨h, ?_⟩, fun h => h.1⟩
  obtain ⟨a, ha, -⟩ := h
  cases ha with
  | default _ => exact Reason.kept_of_owner (by simp)
  | block hblock hmade =>
    exact hmade.kept_of_not_mentioned (hno d _ (mem_of_blockMemos hblock)) hpod
      fun a' why' h' => hnone d a' why' (.block hblock h')

/-- The web pod. -/
def webPod : Pod := podWith (some webLabels)

/-- The cluster of the web pod. -/
def webCluster : Cluster := clusterWith (some webLabels)

/-- Ingress from the web pods of the own namespace. -/
def webPolicy (ports : Option (List PolicyPort)) : NetworkPolicy :=
  ingressPolicy webSelector [⟨some [podPeer webSelector], ports⟩]

/-- The rule for the web pod. -/
def webAppend : Append :=
  ⟨createSecurityGroupRuleBody sampleNet .ingress none none .IPv4 (some "10.0.0.5") (some "shop")
    none, false, some (.pod webPod), none⟩

/-- The KuryrNetworkPolicy of `webPolicy`, with its rules. -/
def webCrd (rules : List Rule) : KuryrNetworkPolicy :=
  ⟨"np", "shop", webSelector, rules, runAppends (createDefaultSgRule sampleNet .egress)⟩

theorem webCrd_stores (as : List Append) :
    (webCrd (runAppends as)).Stores (as, createDefaultSgRule sampleNet .egress) :=
  ⟨rfl, rfl⟩

/-- The rules of `webPolicy`, with the web pod and without it. -/
theorem parse_webPolicy :
    parseNetworkPolicyRules webCluster sampleNet (webPolicy none) [] =
        .ok ([webAppend], createDefaultSgRule sampleNet .egress) ∧
      parseNetworkPolicyRules (webCluster.withoutPod webPod) sampleNet (webPolicy none) [] =
        .ok ([], createDefaultSgRule sampleNet .egress) := by
  decide +kernel

theorem webPolicy_noIpBlocks : (webPolicy none).NoIpBlocks := by
  intro d block hblock rule hrule
  cases d with
  | ingress =>
    obtain rfl := List.mem_singleton.mp hblock
    obtain rfl := List.mem_singleton.mp hrule
    rfl
  | egress => cases hblock

/-- The rule for the web pod is gone without it. -/
theorem webAppend_gone : ¬ SameBodies ([webAppend], createDefaultSgRule sampleNet .egress)
    ([], createDefaultSgRule sampleNet .egress) := by
  intro hsame
  have hmem := (hsame .ingress _).mp (List.mem_map_of_mem (List.mem_singleton.mpr rfl))
  cases hmem

/-- The web pod goes, and the policy that names it is bumped. -/
theorem deleteSgRules_complete_web_pod :
    ∃ bump ∈ NetworkPolicySecurityGroupsDriver.deleteSgRules
      [webCrd (runAppends [webAppend])] webPod, bump.crd = webCrd (runAppends [webAppend]) := by
  exact deleteSgRules_complete webCluster sampleNet (webPolicy none) [] [] _ _ webPod "10.0.0.5" _ _
    webPolicy_noIpBlocks rfl rfl parse_webPolicy.1 (webCrd_stores _) (List.mem_singleton.mpr rfl)
    (fun _ => Iff.rfl) parse_webPolicy.2 webAppend_gone

end KuryrKubernetes
