import KuryrKubernetes.Policy.NamespaceDeletion
import KuryrKubernetes.Policy.Recognition

/-!
# The trigger for a new pod

`create_sg_rules` reads the policies a second time and in its own way. It looks for the
pod among the peers of the blocks only, and it recognises it on numbered ports only, so
a policy can miss a pod it has new rules for: a peer of a named port
(`createSgRules_misses_named_port`), the owner of a named port, a pod behind a service.

`createSgRules_complete_iff` says exactly when the trigger is complete: the policy
recognises the pod, or each rule that rests on the pod also rests on something else.
-/

namespace KuryrKubernetes

open Dicts LabelSelectors Results Trigger

/-- The reason rests on a pod: as the peer, as the owner of a named port, or behind a
service. -/
def Reason.Names (why : Reason) (p : Pod) : Prop :=
  why.resource = some (.pod p) ∨ why.owner = some p ∨ ∃ svc, why.via = some (svc, some p)

theorem kept_othersThan {why : Reason} {p : Pod} :
    why.Kept (othersThan p) ↔ ¬ why.Names p := by
  constructor
  · rintro h (hr | ho | ⟨svc, hv⟩)
    · exact othersThan_pod.mp (h.resource _ hr) rfl
    · exact othersThan_pod.mp (h.owner _ ho) rfl
    · exact othersThan_pod.mp (h.backend _ _ hv rfl) rfl
  · intro h
    refine ⟨fun r hr => ?_, fun q hq => ?_, fun _ _ => rfl, fun v q hv hq => ?_⟩
    · rcases r with q | n | cidr
      · refine othersThan_pod.mpr ?_
        rintro rfl
        exact h (.inl hr)
      · rfl
      · rfl
    · refine othersThan_pod.mpr ?_
      rintro rfl
      exact h (.inr (.inl hq))
    · refine othersThan_pod.mpr ?_
      rintro rfl
      exact h (.inr (.inr ⟨v.1, by rw [hv, ← hq]⟩))

/-- Each rule that rests on the pod also rests on something else. -/
def Dispensable (c : Cluster) (net : Net) (policy : NetworkPolicy) (prefixes : List String)
    (p : Pod) : Prop :=
  ∀ d b why, Produces c net policy prefixes d b why → why.Names p →
    ∃ why', Produces c net policy prefixes d b why' ∧ ¬ why'.Names p

/-- The rules stay the same without a pod that is dispensable. -/
theorem sameBodies_withoutPod {c : Cluster} {net : Net} {policy : NetworkPolicy}
    {prefixes prefixes' : List String} {p : Pod} {out out' : List Append × List Append}
    (hpool : SamePool net prefixes prefixes')
    (hout : parseNetworkPolicyRules c net policy prefixes = .ok out)
    (hout' : parseNetworkPolicyRules (c.withoutPod p) net policy prefixes' = .ok out') :
    SameBodies out out' ↔ Dispensable c net policy prefixes p := by
  have hbody : ∀ d b, b ∈ bodies out' d ↔
      ∃ why, Produces c net policy prefixes d b why ∧ ¬ why.Names p := by
    intro d b
    rw [mem_bodies hout']
    simp only [produces_withoutPod hpool, kept_othersThan]
  constructor
  · intro hsame d b why hwhy _
    exact (hbody d b).mp ((hsame d b).mp ((mem_bodies hout).mpr ⟨why, hwhy⟩))
  · intro hdisp d b
    rw [mem_bodies hout, hbody]
    constructor
    · rintro ⟨why, hwhy⟩
      -- a reason that rests on the pod has to be replaced, any other one stays
      by_cases hnames : why.Names p
      · exact hdisp d b why hwhy hnames
      · exact ⟨why, hwhy, hnames⟩
    · rintro ⟨why, hwhy, -⟩
      exact ⟨why, hwhy⟩

open NetworkPolicySecurityGroupsDriver in
/-- **When the trigger for new pods is complete.** -/
theorem createSgRules_complete_iff (c : Cluster) (net : Net) (policy : NetworkPolicy)
    (prefixes prefixes' : List String) (crds : List KuryrNetworkPolicy)
    (policies : List NetworkPolicy) (crd : KuryrNetworkPolicy) (p : Pod) (ip : String)
    (out out' : List Append × List Append) (bumps : List Bump)
    (hport : p.kuryrPortIP = some ip) (hzip : (crd, policy) ∈ zipKnpNp crds policies)
    (hpool : SamePool net prefixes prefixes')
    (hout : parseNetworkPolicyRules c net policy prefixes = .ok out)
    (hout' : parseNetworkPolicyRules (c.withoutPod p) net policy prefixes' = .ok out')
    (hbumps : createSgRules c crds policies p = .ok bumps) :
    (¬ SameBodies out out' → ∃ bump ∈ bumps, bump.crd = crd) ↔
      Recognised c crd policy (.pod p) ∨ Dispensable c net policy prefixes p := by
  have hready : Subject.Ready (.pod p) := by
    intro h
    rw [hport] at h
    cases h
  rw [createRulesFor_iff hready hbumps hzip, sameBodies_withoutPod hpool hout hout']
  tauto

/-- The KuryrNetworkPolicy of the web policies is found. -/
theorem zip_webPolicy (ports : Option (List PolicyPort)) :
    (webCrd [], webPolicy ports) ∈ zipKnpNp [webCrd []] [webPolicy ports] :=
  List.mem_singleton.mpr rfl

/-- A new web pod is recognised where all ports are open. -/
theorem createSgRules_complete_web_pod :
    ∃ bump ∈ [(⟨webCrd [], true, webSelector⟩ : Bump)], bump.crd = webCrd [] :=
  (createSgRules_complete_iff webCluster sampleNet (webPolicy none) [] [] [webCrd []]
    [webPolicy none] (webCrd []) webPod "10.0.0.5" _ _ _ rfl (zip_webPolicy none)
    (fun _ => Iff.rfl) parse_webPolicy.1 parse_webPolicy.2 (by decide +kernel)).mpr
    (.inl ⟨.ingress, [], ⟨[webPod], true, none⟩, [], by decide +kernel, rfl, rfl, by simp⟩)
    webAppend_gone

/-- A new web pod is not recognised on a named port, though it gets a rule. -/
theorem createSgRules_misses_named_port :
    ∃ out out', parseNetworkPolicyRules webCluster sampleNet (webPolicy (some [httpPort])) [] =
        .ok out ∧
      parseNetworkPolicyRules (webCluster.withoutPod webPod) sampleNet (webPolicy (some [httpPort]))
        [] = .ok out' ∧
      ¬ SameBodies out out' ∧
      NetworkPolicySecurityGroupsDriver.createSgRules webCluster [webCrd []]
        [webPolicy (some [httpPort])] webPod = .ok [] := by
  refine ⟨([⟨createSecurityGroupRuleBody sampleNet .ingress (some 8080) (some .TCP) .IPv4
    (some "10.0.0.5") none (some ⟨[(some "10.0.0.5", "shop")], by decide⟩), true,
    some (.pod webPod), some ⟨[(some "10.0.0.5", "shop")], by decide⟩⟩],
    createDefaultSgRule sampleNet .egress), ([], createDefaultSgRule sampleNet .egress),
    by decide +kernel, by decide +kernel, fun hsame => ?_, by decide +kernel⟩
  have hmem := (hsame .ingress _).mp (List.mem_map_of_mem (List.mem_singleton.mpr rfl))
  cases hmem

end KuryrKubernetes
