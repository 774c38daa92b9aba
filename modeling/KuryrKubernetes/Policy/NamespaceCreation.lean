import KuryrKubernetes.Policy.PodCreation

/-!
# The trigger for a new namespace

`create_namespace_sg_rules` reads the policies in a third way. It recognises a namespace
by its labels only when it has some, and on numbered ports only, so a policy can miss a
namespace it has new rules for (`createNamespaceSgRules_misses_named_port`).

A new namespace does not only add rules. An entry with both selectors keeps the pods of
the last namespace that is listed, so a namespace that comes last takes the place of the
one before (`Displaces`). `createNamespaceSgRules_complete_iff` says exactly when the
trigger is complete.
-/

namespace KuryrKubernetes

open Dicts LabelSelectors Results Trigger

/-! ## The cluster without a namespace -/

/-- Everything outside a namespace. -/
def outside (name : String) : Keep := ⟨(·.ns ≠ name), (·.name ≠ name), (·.ns ≠ name)⟩

theorem withoutNamespace_part (c : Cluster) (name : String) :
    Part (outside name) c (c.withoutNamespace name) where
  pods := rfl
  namespaces := rfl
  services := rfl
  housed := by
    intro n p hname hp
    simp only [outside, ne_eq, decide_not, Bool.not_eq_eq_eq_not, Bool.not_true,
      decide_eq_false_iff_not] at hp ⊢
    rwa [hname]

section

variable {c : Cluster} {policyNs : String} {name : String}

theorem getNamespaces_withoutNamespace (s : LabelSelector) :
    getNamespaces (c.withoutNamespace name) s =
      (getNamespaces c s).map (List.filter (outside name).ns) := by
  unfold getNamespaces Cluster.listNamespaces
  cases readQuery (namespacesQuery s) with
  | error e => rfl
  | ok rs =>
    show Except.ok _ = Except.ok _
    exact congrArg _ (List.filter_comm ..)

theorem namespace?_withoutNamespace {ns ns' : Namespace} (h : c.namespace? policyNs = .ok ns)
    (h' : (c.withoutNamespace name).namespace? policyNs = .ok ns') :
    ns' = ns ∧ ns.name ≠ name := by
  obtain ⟨hmem', hname'⟩ := Cluster.mem_of_namespace? h'
  obtain ⟨hmem, hname⟩ := Cluster.mem_of_namespace? h
  obtain ⟨hmem', hne⟩ := List.mem_filter.mp hmem'
  obtain rfl := c.namespace_ext hmem' hmem (hname'.trans hname.symm)
  exact ⟨rfl, by simpa using hne⟩

/-- The loop over the namespaces keeps the pods of the last one. -/
theorem getPodsInNamespaces_last : ∀ {nss : List Namespace} {s : LabelSelector}
    {matching l : List Pod}, getPodsInNamespaces c s matching nss = .ok l →
      match nss.getLast? with
      | none => l = matching
      | some n => getPods c s (some n.name) = .ok l
  | [], _, _, _, h => by
    cases h
    rfl
  | n :: nss, s, matching, l, h => by
    obtain ⟨pods, hpods, h⟩ := bind_eq_ok.mp h
    have ih := getPodsInNamespaces_last h
    rw [List.getLast?_cons]
    cases hlast : nss.getLast? with
    | none =>
      rw [hlast] at ih
      cases ih
      exact hpods
    | some m =>
      rw [hlast] at ih
      exact getPods_of_popHash ih

/-- The namespace comes last among those of an entry with both selectors, and is not
the only one: its pods take the place of those of the namespace before. -/
def Peer.Displaced (c : Cluster) (name : String) (rule : Peer) : Prop :=
  ∃ nsSelector podSelector nss, rule.kind = .podsOf nsSelector podSelector ∧
    getNamespaces c nsSelector = .ok nss ∧ nss.getLast?.map Namespace.name = some name ∧
    ∃ n ∈ nss, n.name ≠ name

theorem outside_pod {p : Pod} : (outside name).pod p = true ↔ p.ns ≠ name := by
  simp [outside]

theorem outside_ns {n : Namespace} : (outside name).ns n = true ↔ n.name ≠ name := by
  simp [outside]

theorem getLast?_filter {α : Type} {q : α → Bool} {l : List α} {a : α} (h : l.getLast? = some a)
    (hq : q a = true) : (l.filter q).getLast? = some a := by
  obtain ⟨ys, rfl⟩ := List.getLast?_eq_some_iff.mp h
  rw [List.filter_append, List.filter_cons_of_pos hq]
  simp

/-- An entry with both selectors, without the namespace. -/
theorem podsOf_withoutNamespace {podSelector : LabelSelector} {nss : List Namespace}
    {l l' : List Pod} (h : getPodsInNamespaces c podSelector [] nss = .ok l)
    (h' : getPodsInNamespaces (c.withoutNamespace name) podSelector []
      (nss.filter (outside name).ns) = .ok l') :
    l' = l.filter (outside name).pod ∨ (nss.getLast?.map Namespace.name = some name ∧
      (∃ n ∈ nss, n.name ≠ name) ∧ l.filter (outside name).pod = []) := by
  have hlast := getPodsInNamespaces_last h
  have hlast' := getPodsInNamespaces_last h'
  cases hn : nss.getLast? with
  | none =>
    obtain rfl := List.getLast?_eq_none_iff.mp hn
    cases h
    cases h'
    exact .inl rfl
  | some n =>
    rw [hn] at hlast
    by_cases hname : n.name = name
    · -- the pods of the last namespace are all lost
      have hgone : l.filter (outside name).pod = [] := by
        rw [List.filter_eq_nil_iff]
        intro p hp
        have hns : p.ns = n.name := by
          simpa using (List.mem_filter.mp (mem_podsIn_of_getPods hlast hp)).2
        rw [outside_pod, not_not, hns, hname]
      cases hrest : nss.filter (outside name).ns with
      | nil =>
        rw [hrest] at h'
        cases h'
        exact .inl hgone.symm
      | cons m ms =>
        obtain ⟨hm, hne⟩ := List.mem_filter.mp (hrest ▸ List.mem_cons_self : m ∈ nss.filter _)
        exact .inr ⟨by simp [hname], ⟨m, hm, outside_ns.mp hne⟩, hgone⟩
    · rw [getLast?_filter hn (outside_ns.mpr hname)] at hlast'
      dsimp only at hlast hlast'
      rw [(withoutNamespace_part c name).getPods_eq, hlast] at hlast'
      cases hlast'
      exact .inl rfl

/-- **The peers without the namespace**: those outside it, unless the entry is
displaced. -/
theorem peerResources_withoutNamespace {rule : Peer} {l l' : List Resource}
    (h : peerResources c policyNs rule = .ok l)
    (h' : peerResources (c.withoutNamespace name) policyNs rule = .ok l') :
    l' = l.filter (outside name).resource ∨
      (rule.Displaced c name ∧ l.filter (outside name).resource = []) := by
  have hpart := withoutNamespace_part c name
  have hpods : ∀ {s ns} {pods pods' : List Pod}, getPods c s ns = .ok pods →
      getPods (c.withoutNamespace name) s ns = .ok pods' →
      pods'.map Resource.pod = (pods.map Resource.pod).filter (outside name).resource := by
    intro s ns pods pods' hp hp'
    rw [hpart.getPods_eq, hp] at hp'
    cases hp'
    exact (filter_map_pods _ pods).symm
  unfold peerResources at h h'
  cases hkind : rule.kind with
  | ipBlock | cluster =>
    simp only [hkind] at h h'
    cases h
    cases h'
    exact .inl rfl
  | podsEverywhere s | ownPods s =>
    simp only [hkind] at h h'
    obtain ⟨pods, hp, h⟩ := bind_eq_ok.mp h
    obtain ⟨pods', hp', h'⟩ := bind_eq_ok.mp h'
    cases h
    cases h'
    exact .inl (hpods hp hp')
  | podsOf nsSelector s =>
    simp only [hkind] at h h'
    obtain ⟨nss, hnss, h⟩ := bind_eq_ok.mp h
    obtain ⟨pods, hp, h⟩ := bind_eq_ok.mp h
    rw [getNamespaces_withoutNamespace, hnss] at h'
    obtain ⟨_, hnss', h'⟩ := bind_eq_ok.mp h'
    obtain ⟨pods', hp', h'⟩ := bind_eq_ok.mp h'
    cases h
    cases h'
    cases hnss'
    rw [filter_map_pods]
    rcases podsOf_withoutNamespace hp hp' with heq | ⟨hlast, hother, hgone⟩
    · exact .inl (congrArg _ heq)
    · exact .inr ⟨⟨nsSelector, s, nss, hkind, hnss, hlast, hother⟩, by rw [hgone]; rfl⟩
  | namespaces nsSelector =>
    simp only [hkind] at h h'
    obtain ⟨nss, hnss, h⟩ := bind_eq_ok.mp h
    rw [getNamespaces_withoutNamespace, hnss] at h'
    cases h
    cases h'
    exact .inl (filter_map_namespaces _ nss).symm
  | ownNamespace =>
    simp only [hkind] at h h'
    obtain ⟨ns, hns, h⟩ := bind_eq_ok.mp h
    obtain ⟨ns', hns', h'⟩ := bind_eq_ok.mp h'
    cases h
    cases h'
    -- the request succeeds without the namespace, so the policy lives in another one
    obtain ⟨rfl, hne⟩ := namespace?_withoutNamespace hns hns'
    refine .inl (List.filter_eq_self.mpr fun r hr => ?_).symm
    obtain rfl := List.mem_singleton.mp hr
    exact outside_ns.mpr hne

variable {net : Net} {block : RuleBlock} {rs rs' : List Resource}

/-- The resources of a block outside the namespace are there without it. -/
theorem blockResources_restrict (h : BlockResources c net policyNs block rs)
    (h' : BlockResources (c.withoutNamespace name) net policyNs block rs') :
    (rs.filter (outside name).resource).Sublist rs' := by
  obtain ⟨found, hfound, rfl⟩ := h
  obtain ⟨found', hfound', rfl⟩ := h'
  rw [List.filter_append, filter_ipBlockResources]
  refine List.Sublist.append ?_ (List.Sublist.refl _)
  refine collect_rel (R := fun l l' => (l.filter (outside name).resource).Sublist l')
    (List.Sublist.refl _) (fun hl hm => ?_) (fun rule _ l l' hl hl' => ?_) hfound hfound'
  · rw [List.filter_append]
    exact hl.append hm
  · rcases peerResources_withoutNamespace hl hl' with rfl | ⟨-, hgone⟩
    · exact List.Sublist.refl _
    · rw [hgone]
      exact List.nil_sublist _

/-- Unless an entry is displaced, there are no others. -/
theorem blockResources_eq (hstay : ∀ rule ∈ block.peers.getD [], ¬ rule.Displaced c name)
    (h : BlockResources c net policyNs block rs)
    (h' : BlockResources (c.withoutNamespace name) net policyNs block rs') :
    rs' = rs.filter (outside name).resource := by
  obtain ⟨found, hfound, rfl⟩ := h
  obtain ⟨found', hfound', rfl⟩ := h'
  rw [List.filter_append, filter_ipBlockResources]
  congr 1
  refine collect_rel (R := fun l l' => l' = l.filter (outside name).resource) rfl
    (fun hl hm => ?_) (fun rule hrule l l' hl hl' => ?_) hfound hfound'
  · rw [List.filter_append, hl, hm]
  · rcases peerResources_withoutNamespace hl hl' with heq | ⟨hdisp, -⟩
    · exact heq
    · exact absurd hdisp (hstay rule hrule)

end

/-! ## Reasons with and without the namespace -/

/-- The reason rests on a namespace: on itself as the peer, on a pod or on a service of
it. -/
def Reason.RestsOn (why : Reason) (name : String) : Prop :=
  (∃ n, why.resource = some (.namespace n) ∧ n.name = name) ∨ (∃ p, why.Names p ∧ p.ns = name) ∨
    ∃ v, why.via = some v ∧ v.1.ns = name

theorem kept_outside {why : Reason} {name : String} :
    why.Kept (outside name) ↔ ¬ why.RestsOn name := by
  constructor
  · rintro h (⟨n, hr, hname⟩ | ⟨p, hr | ho | ⟨svc, hv⟩, hname⟩ | ⟨v, hv, hname⟩)
    · exact outside_ns.mp (h.resource _ hr) hname
    · exact outside_pod.mp (h.resource _ hr) hname
    · exact outside_pod.mp (h.owner _ ho) hname
    · exact outside_pod.mp (h.backend _ _ hv rfl) hname
    · exact absurd hname (by simpa [outside] using h.service v hv)
  · intro h
    refine ⟨fun r hr => ?_, fun q hq => ?_, fun v hv => ?_, fun v q hv hq => ?_⟩
    · rcases r with q | n | cidr
      · exact outside_pod.mpr fun hname => h (.inr (.inl ⟨q, .inl hr, hname⟩))
      · exact outside_ns.mpr fun hname => h (.inl ⟨n, hr, hname⟩)
      · rfl
    · exact outside_pod.mpr fun hname => h (.inr (.inl ⟨q, .inr (.inl hq), hname⟩))
    · have hne : v.1.ns ≠ name := fun hname => h (.inr (.inr ⟨v, hv, hname⟩))
      simpa [outside] using hne
    · refine outside_pod.mpr fun hname => h (.inr (.inl ⟨q, .inr (.inr ⟨v.1, ?_⟩), hname⟩))
      rw [hv, ← hq]

/-- Some entry of the policy is displaced by the namespace. -/
def NetworkPolicy.Displaced (policy : NetworkPolicy) (c : Cluster) (name : String) : Prop :=
  ∃ d, ∃ block ∈ policy.spec.blocks d, ∃ rule ∈ block.peers.getD [], rule.Displaced c name

section

variable {c : Cluster} {net : Net} {policy : NetworkPolicy} {prefixes prefixes' : List String}
  {name : String} {out out' : List Append × List Append}

/-- **A reason outside the namespace is there without it.** -/
theorem produces_withoutNamespace (hpool : SamePool net prefixes prefixes')
    (hout' : parseNetworkPolicyRules (c.withoutNamespace name) net policy prefixes' = .ok out')
    {d : Direction} {b : SgRule} {why : Reason} (h : Produces c net policy prefixes d b why)
    (hout : ¬ why.RestsOn name) :
      Produces (c.withoutNamespace name) net policy prefixes' d b why := by
  refine (withoutNamespace_part c name).produces_restrict hpool (fun block hblock rs hrs => ?_) h
    (kept_outside.mpr hout)
  obtain ⟨rs', hrs'⟩ := parseNetworkPolicyRules_resolved hout' hblock
  exact ⟨rs', hrs', blockResources_restrict hrs hrs'⟩

/-- **Unless it displaces others, a new namespace takes no reason away.** -/
theorem produces_of_withoutNamespace (hpool : SamePool net prefixes prefixes')
    (hout : parseNetworkPolicyRules c net policy prefixes = .ok out)
    (hstay : ¬ policy.Displaced c name) {d : Direction} {b : SgRule} {why : Reason}
    (h : Produces (c.withoutNamespace name) net policy prefixes' d b why) :
    Produces c net policy prefixes d b why := by
  refine ((withoutNamespace_part c name).produces_extend hpool
    (fun block hblock rs' hrs' => ?_) h).1
  obtain ⟨rs, hrs⟩ := parseNetworkPolicyRules_resolved hout hblock
  have heq := blockResources_eq
    (fun rule hrule hdisp => hstay ⟨d, block, hblock, rule, hrule, hdisp⟩)
    hrs hrs'
  subst heq
  exact ⟨rs, hrs, List.filter_sublist, fun r hr => (List.mem_filter.mp hr).2⟩

/-- Each rule that rests on the namespace is made without it, too. -/
def NamespaceDispensable (c : Cluster) (net : Net) (policy : NetworkPolicy)
    (prefixes prefixes' : List String) (name : String) : Prop :=
  ∀ d b why, Produces c net policy prefixes d b why → why.RestsOn name →
    ∃ why', Produces (c.withoutNamespace name) net policy prefixes' d b why'

/-- Each rule of the displaced entries is made with the namespace, too. -/
def DisplacementHarmless (c : Cluster) (net : Net) (policy : NetworkPolicy)
    (prefixes prefixes' : List String) (name : String) : Prop :=
  policy.Displaced c name → ∀ d b why,
    Produces (c.withoutNamespace name) net policy prefixes' d b why →
      ∃ why', Produces c net policy prefixes d b why'

theorem sameBodies_withoutNamespace (hpool : SamePool net prefixes prefixes')
    (hout : parseNetworkPolicyRules c net policy prefixes = .ok out)
    (hout' : parseNetworkPolicyRules (c.withoutNamespace name) net policy prefixes' = .ok out') :
    SameBodies out out' ↔ NamespaceDispensable c net policy prefixes prefixes' name ∧
      DisplacementHarmless c net policy prefixes prefixes' name := by
  constructor
  · intro hsame
    refine ⟨fun d b why hwhy _ => ?_, fun _ d b why hwhy => ?_⟩
    · exact (mem_bodies hout').mp ((hsame d b).mp ((mem_bodies hout).mpr ⟨why, hwhy⟩))
    · exact (mem_bodies hout).mp ((hsame d b).mpr ((mem_bodies hout').mpr ⟨why, hwhy⟩))
  · rintro ⟨hdisp, hharm⟩ d b
    rw [mem_bodies hout, mem_bodies hout']
    constructor
    · rintro ⟨why, hwhy⟩
      -- what rests on the namespace needs another reason without it
      by_cases hrests : why.RestsOn name
      · exact hdisp d b why hwhy hrests
      · exact ⟨why, produces_withoutNamespace hpool hout' hwhy hrests⟩
    · rintro ⟨why, hwhy⟩
      -- only a displaced entry can lose a reason
      by_cases hdisplaced : policy.Displaced c name
      · exact hharm hdisplaced d b why hwhy
      · exact ⟨why, produces_of_withoutNamespace hpool hout hdisplaced hwhy⟩

end

open NetworkPolicySecurityGroupsDriver in
/-- **When the trigger for new namespaces is complete.** -/
theorem createNamespaceSgRules_complete_iff (c : Cluster) (net : Net) (policy : NetworkPolicy)
    (prefixes prefixes' : List String) (crds : List KuryrNetworkPolicy)
    (policies : List NetworkPolicy) (crd : KuryrNetworkPolicy) (ns : Namespace)
    (out out' : List Append × List Append) (bumps : List Bump)
    (hzip : (crd, policy) ∈ zipKnpNp crds policies) (hpool : SamePool net prefixes prefixes')
    (hout : parseNetworkPolicyRules c net policy prefixes = .ok out)
    (hout' : parseNetworkPolicyRules (c.withoutNamespace ns.name) net policy prefixes' = .ok out')
    (hbumps : createNamespaceSgRules c crds policies ns = .ok bumps) :
    (¬ SameBodies out out' → ∃ bump ∈ bumps, bump.crd = crd) ↔
      Recognised c crd policy (.namespace ns) ∨
        (NamespaceDispensable c net policy prefixes prefixes' ns.name ∧
          DisplacementHarmless c net policy prefixes prefixes' ns.name) := by
  have hready : Subject.Ready (.namespace ns) := trivial
  rw [createRulesFor_iff hready hbumps hzip, sameBodies_withoutNamespace hpool hout hout']
  tauto

theorem teamAppends_new : ¬ SameBodies (teamAppends, createDefaultSgRule sampleNet .egress)
    (teamAppends.take 1, createDefaultSgRule sampleNet .egress) := by
  intro hsame
  have hmem := (hsame .ingress (createSecurityGroupRuleBody sampleNet .ingress none none .IPv4
    (some "10.0.1.0/24") none none).sgRule).mp (by decide +kernel)
  exact absurd hmem (by decide +kernel)

/-- The store namespace is recognised where all ports are open. -/
theorem createNamespaceSgRules_complete_store :
    ∃ bump ∈ [(⟨webCrd [], true, webSelector⟩ : Bump)], bump.crd = webCrd [] :=
  (createNamespaceSgRules_complete_iff teamCluster sampleNet (teamPolicy none) [] [] [webCrd []]
    [teamPolicy none] (webCrd []) storeNamespace _ _ _ (List.mem_singleton.mpr rfl)
    (fun _ => Iff.rfl) parse_teamPolicy.1 (by decide +kernel) (by decide +kernel)).mpr
    (.inl ⟨.ingress, [], ⟨[], true, none⟩, [], by decide +kernel, rfl, rfl, by simp⟩)
    teamAppends_new

/-- The store namespace is not recognised on a named port, though it gets a rule. -/
theorem createNamespaceSgRules_misses_named_port :
    ∃ out out', parseNetworkPolicyRules teamCluster sampleNet (teamPolicy (some [httpPort])) [] =
        .ok out ∧
      parseNetworkPolicyRules (teamCluster.withoutNamespace storeNamespace.name) sampleNet
        (teamPolicy (some [httpPort])) [] = .ok out' ∧
      ¬ SameBodies out out' ∧
      NetworkPolicySecurityGroupsDriver.createNamespaceSgRules teamCluster [webCrd []]
        [teamPolicy (some [httpPort])] storeNamespace = .ok [] := by
  refine ⟨(teamNamedAppends, createDefaultSgRule sampleNet .egress),
    (teamNamedAppends.take 1, createDefaultSgRule sampleNet .egress), parse_teamPolicy.2,
    by decide +kernel, fun hsame => ?_, by decide +kernel⟩
  have hmem := (hsame .ingress (createSecurityGroupRuleBody sampleNet .ingress (some 8080)
    (some .TCP) .IPv4 (some "10.0.1.0/24") none none).sgRule).mp (by decide +kernel)
  exact absurd hmem (by decide +kernel)

end KuryrKubernetes
