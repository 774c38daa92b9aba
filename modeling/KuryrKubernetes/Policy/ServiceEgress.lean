import KuryrKubernetes.Drivers.AffectedServices
import KuryrKubernetes.Policy.Productions

/-!
# Egress rules for the Services of a pod

For a pod an egress policy allows, `_create_svc_egress_sg_rule` also opens the cluster
address of the Services the pod is behind. It walks over all Services and skips those it
can tell apart from the pod; whatever is missing (labels, an address, the namespace) lets
the Service through.

- `Pod.Serves`: the pod is behind the Service, by its labels or among its endpoints.
- `AppendsExactly`: a run of appends adds the rules of a kind that were not in the list,
  each once.
- `svcMatches_pod_iff`: which Services get through: those of `Pod.Surplus`, and those the
  pod serves unless it is `Pod.Missed`.
-/

namespace KuryrKubernetes

open Dicts LabelSelectors Results

/-! ## Appending what is new -/

/-- `after` is `before` with the rules of a kind that it did not have, each added once. -/
def AppendsExactly (before after : List Rule) (kind : Rule → Prop) : Prop :=
  ∃ new, after = before ++ new ∧ new.Nodup ∧ ∀ r, r ∈ new ↔ r ∉ before ∧ kind r

theorem appendsExactly_run {as : List Append} (hnew : ∀ a ∈ as, a.ifNew = true)
    (before : List Rule) :
    AppendsExactly before (as.foldl Append.run before) fun r => ∃ a ∈ as, a.rule = r := by
  induction as generalizing before with
  | nil => exact ⟨[], by simp⟩
  | cons a as ih =>
    have ih := ih fun b hb => hnew b (List.mem_cons_of_mem a hb)
    have hifNew : a.ifNew = true := hnew a List.mem_cons_self
    rw [List.foldl_cons]
    by_cases hin : a.rule ∈ before
    · -- a rule that is there already adds nothing
      obtain ⟨new, hafter, hnodup, hmem⟩ := ih before
      have hrun : Append.run before a = before := by simp [Append.run, hifNew, hin]
      refine ⟨new, by rw [hrun, hafter], hnodup, fun r => ?_⟩
      rw [hmem]
      constructor
      · rintro ⟨hr, b, hb, rfl⟩
        exact ⟨hr, b, List.mem_cons_of_mem a hb, rfl⟩
      · rintro ⟨hr, b, hb, rfl⟩
        rcases List.mem_cons.mp hb with rfl | hb
        · exact absurd hin hr
        · exact ⟨hr, b, hb, rfl⟩
    · obtain ⟨new, hafter, hnodup, hmem⟩ := ih (before ++ [a.rule])
      have hrun : Append.run before a = before ++ [a.rule] := by simp [Append.run, hin]
      have hfresh : a.rule ∉ new := fun h => by simpa using (hmem _).mp h
      refine ⟨a.rule :: new, by rw [hrun, hafter, List.append_assoc, List.singleton_append],
        List.nodup_cons.mpr ⟨hfresh, hnodup⟩, fun r => ?_⟩
      rw [List.mem_cons, hmem]
      constructor
      · rintro (rfl | ⟨hr, b, hb, rfl⟩)
        · exact ⟨hin, a, List.mem_cons_self, rfl⟩
        · exact ⟨fun h => hr (List.mem_append_left _ h), b, List.mem_cons_of_mem a hb, rfl⟩
      · rintro ⟨hr, b, hb, rfl⟩
        rcases List.mem_cons.mp hb with rfl | hb
        · exact .inl rfl
        · by_cases heq : b.rule = a.rule
          · exact .inl heq
          · exact .inr ⟨by simp [hr, heq], b, hb, rfl⟩

/-- What a list grew by is what it lacked of either kind. -/
theorem AppendsExactly.iff {before after : List Rule} {made kind : Rule → Prop}
    (h : AppendsExactly before after made) :
    AppendsExactly before after kind ↔ ∀ r, r ∉ before → (made r ↔ kind r) := by
  obtain ⟨new, rfl, hnodup, hmem⟩ := h
  constructor
  · rintro ⟨new', heq, -, hmem'⟩ r hr
    obtain rfl := List.append_cancel_left heq
    have hboth := (hmem r).symm.trans (hmem' r)
    simpa [hr] using hboth
  · intro hsame
    refine ⟨new, rfl, hnodup, fun r => ?_⟩
    rw [hmem]
    exact and_congr_right (hsame r)

/-! ## Being behind a Service -/

/-- The pod is behind the Service: it has the labels of its selector, in its namespace,
or the Service has no selector and lists the address of the pod. -/
def Pod.Serves (p : Pod) (svc : Service) : Prop :=
  p.Backs svc ∨ truthyLabels svc.selector = none ∧ ∃ ip, p.podIP = some ip ∧ ip ∈ svc.targets

/-- Services that get through although the pod is not behind them: the pod has no address,
or no labels, to hold against the Service, or the Service is in another namespace. -/
inductive Pod.Surplus (p : Pod) (svc : Service) : Prop where
  | unaddressed (hsel : truthyLabels svc.selector = none) (hip : p.podIP = none)
  | unlabelled (svcSelector : Labels) (hsel : truthyLabels svc.selector = some svcSelector)
      (hlabels : truthyLabels p.labels = none)
  | elsewhere (svcSelector : Labels) (hsel : truthyLabels svc.selector = some svcSelector)
      (hext : Extends svcSelector (p.labels.getD Dict.empty))
      (hvalues : ∀ e ∈ svcSelector.items, e.2 ≠ "") (hns : p.ns ≠ svc.ns)

/-- The pod is behind the Service and its selector asks for an empty value. -/
def Pod.Missed (p : Pod) (svc : Service) : Prop :=
  p.Backs svc ∧ ∃ e ∈ (svc.selector.getD Dict.empty).items, e.2 = ""

theorem truthyLabels_eq_some {l : Option Labels} {d : Labels} :
    truthyLabels l = some d ↔ l = some d ∧ d.items ≠ [] := by
  simp [truthyLabels, Option.filter_eq_some_iff]

theorem Pod.backs_iff {p : Pod} {svc : Service} :
    p.Backs svc ↔ ∃ svcSelector, truthyLabels svc.selector = some svcSelector ∧
      p.ns = svc.ns ∧ Extends svcSelector (p.labels.getD Dict.empty) := by
  constructor
  · rintro ⟨hns, svcSelector, hsel, hne, hext⟩
    exact ⟨svcSelector, truthyLabels_eq_some.mpr ⟨hsel, hne⟩, hns, hext⟩
  · rintro ⟨svcSelector, hsel, hns, hext⟩
    obtain ⟨hsel, hne⟩ := truthyLabels_eq_some.mp hsel
    exact ⟨hns, svcSelector, hsel, hne, hext⟩

/-- What the loop makes of a Service without a selector. -/
theorem reached_of_no_selector {p : Pod} {svc : Service} (hsel : truthyLabels svc.selector = none) :
    p.podIP.all (· ∈ svc.targets) = true ↔ p.Surplus svc ∨ (p.Serves svc ∧ ¬ p.Missed svc) := by
  have hbacks : ¬ p.Backs svc := by
    rw [Pod.backs_iff]
    rintro ⟨svcSelector, hsome, -⟩
    rw [hsel] at hsome
    cases hsome
  cases hip : p.podIP with
  | none =>
    simp only [Option.all_none, true_iff]
    exact .inl (.unaddressed hsel hip)
  | some ip =>
    simp only [Option.all_some, decide_eq_true_eq]
    constructor
    · intro hin
      exact .inr ⟨.inr ⟨hsel, ip, hip, hin⟩, fun hmissed => hbacks hmissed.1⟩
    · rintro (hsurplus | ⟨hserves, -⟩)
      · cases hsurplus with
        | unaddressed _ hnone =>
          rw [hip] at hnone
          cases hnone
        | unlabelled _ hsome =>
          rw [hsel] at hsome
          cases hsome
        | elsewhere _ hsome =>
          rw [hsel] at hsome
          cases hsome
      · obtain ⟨-, ip', hip', hin⟩ := hserves.resolve_left hbacks
        rw [hip] at hip'
        cases hip'
        exact hin

/-- What the loop makes of a Service with a selector. -/
theorem reached_of_selector {p : Pod} {svc : Service} {svcSelector : Labels}
    (hsel : truthyLabels svc.selector = some svcSelector) :
    (truthyLabels p.labels).all (matchLabels svcSelector) = true ↔
      p.Surplus svc ∨ (p.Serves svc ∧ ¬ p.Missed svc) := by
  have hraw : svc.selector.getD Dict.empty = svcSelector := by
    rw [(truthyLabels_eq_some.mp hsel).1]
    rfl
  have hserves : p.Serves svc → p.ns = svc.ns ∧ Extends svcSelector (p.labels.getD Dict.empty) := by
    rintro (hbacks | ⟨hnone, -⟩)
    · obtain ⟨_, hsome, hns, hext⟩ := Pod.backs_iff.mp hbacks
      rw [hsel] at hsome
      cases hsome
      exact ⟨hns, hext⟩
    · rw [hsel] at hnone
      cases hnone
  cases hlabels : truthyLabels p.labels with
  | none =>
    simp only [Option.all_none, true_iff]
    exact .inl (.unlabelled svcSelector hsel hlabels)
  | some labels =>
    have hget : p.labels.getD Dict.empty = labels := by
      rw [(truthyLabels_eq_some.mp hlabels).1]
      rfl
    rw [Option.all_some, matchLabels_iff]
    constructor
    · intro hmatch
      have hext : Extends svcSelector (p.labels.getD Dict.empty) := by
        rw [hget]
        exact fun e he => (hmatch e he).1
      by_cases hns : p.ns = svc.ns
      · refine .inr ⟨.inl (Pod.backs_iff.mpr ⟨svcSelector, hsel, hns, hext⟩), ?_⟩
        rintro ⟨-, e, he, hempty⟩
        rw [hraw] at he
        exact (hmatch e he).2 hempty
      · exact .inl (.elsewhere svcSelector hsel hext (fun e he => (hmatch e he).2) hns)
    · rintro (hsurplus | ⟨hyes, hmissed⟩)
      · cases hsurplus with
        | unaddressed hnone =>
          rw [hsel] at hnone
          cases hnone
        | unlabelled _ _ hnone =>
          rw [hlabels] at hnone
          cases hnone
        | elsewhere _ hsome hext hvalues =>
          rw [hsel] at hsome
          cases hsome
          rw [hget] at hext
          exact fun e he => ⟨hext e he, hvalues e he⟩
      · obtain ⟨hns, hext⟩ := hserves hyes
        have hbacks := Pod.backs_iff.mpr ⟨svcSelector, hsel, hns, hext⟩
        rw [hget] at hext
        refine fun e he => ⟨hext e he, fun hempty => hmissed ⟨hbacks, e, ?_, hempty⟩⟩
        rw [hraw]
        exact he

/-- **Which Services get through for a pod**. -/
theorem svcMatches_pod_iff {c : Cluster} {net : Net} {policyNs : String} {p : Pod} {svc : Service} :
    svcMatches c net policyNs svc (.pod p) = .ok true ↔
      p.Surplus svc ∨ (p.Serves svc ∧ ¬ p.Missed svc) := by
  cases hsel : truthyLabels svc.selector with
  | none => simpa [svcMatches, hsel] using reached_of_no_selector (p := p) hsel
  | some svcSelector => simpa [svcMatches, hsel] using reached_of_selector (p := p) hsel

theorem svcMatches_pod_ok (c : Cluster) (net : Net) (policyNs : String) (p : Pod) (svc : Service) :
    ∃ b, svcMatches c net policyNs svc (.pod p) = .ok b := by
  cases hsel : truthyLabels svc.selector with
  | none => exact ⟨_, by rw [svcMatches, hsel]⟩
  | some svcSelector => exact ⟨_, by rw [svcMatches, hsel]⟩

/-- The rule for a cluster address. -/
def serviceRule (net : Net) (port : Option Nat) (protocol : Option Protocol)
    (clusterIP : String) : Rule :=
  createSecurityGroupRuleBody net .egress port protocol .IPv4 (some clusterIP) none none

theorem serviceRule_injective (net : Net) (port : Option Nat) (protocol : Option Protocol) :
    Function.Injective (serviceRule net port protocol) := by
  intro a b h
  have hsg := congrArg (fun r : Rule => r.sgRule.remote_ip_prefix) h
  simpa [serviceRule, createSecurityGroupRuleBody] using hsg

/-- `sg_rule_body_list` after `_create_svc_egress_sg_rule` for a pod. -/
def svcEgressRules (c : Cluster) (net : Net) (policyNs : String) (p : Pod) (port : Option Nat)
    (protocol : Option Protocol) (before : List Rule) : Except Error (List Rule) := do
  let appends ← createSvcEgressSgRule c net policyNs (some (.pod p)) port protocol none
  return appends.foldl Append.run before

/-- The rules for the Services of a kind that are not being deleted and have a cluster
address. -/
def RuleOf (c : Cluster) (net : Net) (port : Option Nat) (protocol : Option Protocol)
    (kind : Service → Prop) (r : Rule) : Prop :=
  ∃ svc ∈ c.services, ∃ clusterIP, svc.address = some clusterIP ∧ kind svc ∧
    r = serviceRule net port protocol clusterIP

theorem exists_createSvcEgressSgRule {c : Cluster} {net : Net} {policyNs : String} {r : Resource}
    (hok : ∀ svc, ∃ b, svcMatches c net policyNs svc r = .ok b) (port : Option Nat)
    (protocol : Option Protocol) (owners : Option PodMap) :
    ∃ appends, createSvcEgressSgRule c net policyNs (some r) port protocol owners =
      .ok appends := by
  refine exists_collect fun svc _ => ?_
  cases haddress : svc.address with
  | none => exact ⟨[], rfl⟩
  | some clusterIP =>
    obtain ⟨b, hb⟩ := hok svc
    cases b with
    | false => exact ⟨_, bind_eq_ok.mpr ⟨false, hb, rfl⟩⟩
    | true => exact ⟨_, bind_eq_ok.mpr ⟨true, hb, rfl⟩⟩

/-- **The list after the call**: the Services that got through, each once. -/
theorem svcEgressRules_ok (c : Cluster) (net : Net) (policyNs : String) (p : Pod)
    (port : Option Nat) (protocol : Option Protocol) (before : List Rule) :
    ∃ after, svcEgressRules c net policyNs p port protocol before = .ok after ∧
      AppendsExactly before after (RuleOf c net port protocol fun svc =>
        p.Surplus svc ∨ (p.Serves svc ∧ ¬ p.Missed svc)) := by
  obtain ⟨appends, happends⟩ := exists_createSvcEgressSgRule
    (fun svc => svcMatches_pod_ok c net policyNs p svc) port protocol none
  have hmem : ∀ a, a ∈ appends ↔ _ := fun a =>
    mem_serviceAppends (d := .egress) (o := ⟨port, protocol, none⟩) happends (a := a)
  have hnew : ∀ a ∈ appends, a.ifNew = true := by
    intro a ha
    obtain ⟨-, svc, -, ip, -, -, rfl⟩ := (hmem a).mp ha
    rfl
  refine ⟨_, bind_eq_ok.mpr ⟨appends, happends, rfl⟩, ?_⟩
  refine (appendsExactly_run hnew before).iff.mpr fun r _ => ?_
  constructor
  · rintro ⟨a, ha, rfl⟩
    obtain ⟨-, svc, hsvc, ip, haddress, ⟨_, hmatch, -⟩, rfl⟩ := (hmem a).mp ha
    exact ⟨svc, hsvc, ip, haddress, svcMatches_pod_iff.mp hmatch, rfl⟩
  · rintro ⟨svc, hsvc, ip, haddress, hkind, rfl⟩
    exact ⟨_, (hmem _).mpr ⟨rfl, svc, hsvc, ip, haddress,
      ⟨none, svcMatches_pod_iff.mpr hkind, rfl⟩, rfl⟩, rfl⟩

/-! ## When the rules are those of the Services of the pod -/

/-- Some Service of a kind has the address. -/
def HasService (c : Cluster) (clusterIP : String) (kind : Service → Prop) : Prop :=
  ∃ svc ∈ c.services, svc.address = some clusterIP ∧ kind svc

theorem ruleOf_iff {c : Cluster} {net : Net} {port : Option Nat} {protocol : Option Protocol}
    {kind : Service → Prop} {clusterIP : String} :
    RuleOf c net port protocol kind (serviceRule net port protocol clusterIP) ↔
      HasService c clusterIP kind := by
  constructor
  · rintro ⟨svc, hsvc, ip, haddress, hkind, heq⟩
    obtain rfl := serviceRule_injective net port protocol heq
    exact ⟨svc, hsvc, haddress, hkind⟩
  · rintro ⟨svc, hsvc, haddress, hkind⟩
    exact ⟨svc, hsvc, clusterIP, haddress, hkind, rfl⟩

theorem hasService_reached_iff {c : Cluster} {p : Pod} {clusterIP : String} :
    (HasService c clusterIP (fun svc => p.Surplus svc ∨ (p.Serves svc ∧ ¬ p.Missed svc)) ↔
        HasService c clusterIP p.Serves) ↔
      (HasService c clusterIP p.Surplus → HasService c clusterIP p.Serves) ∧
      (HasService c clusterIP p.Missed → HasService c clusterIP fun svc =>
        p.Surplus svc ∨ (p.Serves svc ∧ ¬ p.Missed svc)) := by
  constructor
  · intro hsame
    refine ⟨fun ⟨svc, hsvc, haddress, hsurplus⟩ => ?_, fun ⟨svc, hsvc, haddress, hmissed⟩ => ?_⟩
    · exact hsame.mp ⟨svc, hsvc, haddress, .inl hsurplus⟩
    · exact hsame.mpr ⟨svc, hsvc, haddress, .inl hmissed.1⟩
  · rintro ⟨hsurplus, hmissed⟩
    constructor
    · rintro ⟨svc, hsvc, haddress, hreached | ⟨hserves, -⟩⟩
      · exact hsurplus ⟨svc, hsvc, haddress, hreached⟩
      · exact ⟨svc, hsvc, haddress, hserves⟩
    · rintro ⟨svc, hsvc, haddress, hserves⟩
      by_cases hm : p.Missed svc
      · exact hmissed ⟨svc, hsvc, haddress, hm⟩
      · exact ⟨svc, hsvc, haddress, .inr ⟨hserves, hm⟩⟩

/-- The rules added for a pod are those of the Services it is behind exactly when, at
every address whose rule is not in the list yet, a Service that gets through without the
pod behind it comes with one the pod is behind, and a Service that is missed comes with
one that gets through. -/
theorem svc_egress_exact_iff (c : Cluster) (net : Net) (policyNs : String) (p : Pod)
    (port : Option Nat) (protocol : Option Protocol) (before : List Rule) :
    (∃ after, svcEgressRules c net policyNs p port protocol before = .ok after ∧
        AppendsExactly before after (RuleOf c net port protocol p.Serves)) ↔
      ∀ clusterIP, serviceRule net port protocol clusterIP ∉ before →
        (HasService c clusterIP p.Surplus → HasService c clusterIP p.Serves) ∧
        (HasService c clusterIP p.Missed → HasService c clusterIP fun svc =>
          p.Surplus svc ∨ (p.Serves svc ∧ ¬ p.Missed svc)) := by
  obtain ⟨after, hafter, hexact⟩ := svcEgressRules_ok c net policyNs p port protocol before
  have hdetermined : (∃ after, svcEgressRules c net policyNs p port protocol before = .ok after ∧
      AppendsExactly before after (RuleOf c net port protocol p.Serves)) ↔
      AppendsExactly before after (RuleOf c net port protocol p.Serves) := by
    rw [hafter]
    simp
  rw [hdetermined, hexact.iff]
  constructor
  · intro hsame clusterIP hnew
    rw [← hasService_reached_iff, ← ruleOf_iff, ← ruleOf_iff]
    exact hsame _ hnew
  · intro hboth r hnew
    constructor
    · rintro ⟨svc, hsvc, ip, haddress, hreached, rfl⟩
      exact ruleOf_iff.mpr ((hasService_reached_iff.mpr (hboth ip hnew)).mp
        ⟨svc, hsvc, haddress, hreached⟩)
    · rintro ⟨svc, hsvc, ip, haddress, hserves, rfl⟩
      exact ruleOf_iff.mpr ((hasService_reached_iff.mpr (hboth ip hnew)).mpr
        ⟨svc, hsvc, haddress, hserves⟩)

theorem webPod_nodup : ([podWith (some webLabels)].map fun p => (p.ns, p.name)).Nodup := by decide

/-- A cluster with a pod of `app: web` in `shop`, and a Service of `app: web` in
`bank`. -/
def bankCluster : Cluster where
  namespaces := [⟨"shop", none, ["kubernetes"], some "10.0.0.0/24"⟩,
    ⟨"bank", none, ["kubernetes"], some "10.0.1.0/24"⟩]
  pods := [podWith (some webLabels)]
  services := [{ webService with ns := "bank" }]
  namespaces_nodup := by decide
  pods_nodup := webPod_nodup
  pods_namespaced := by decide
  services_namespaced := by decide

/-- The Service of the other namespace is opened for the pod. -/
theorem svc_egress_opens_elsewhere :
    ¬ ∃ after, svcEgressRules bankCluster sampleNet "shop" (podWith (some webLabels)) none none [] =
        .ok after ∧
      AppendsExactly [] after
        (RuleOf bankCluster sampleNet none none (podWith (some webLabels)).Serves) := by
  rintro ⟨after, hafter, new, hgrown, -, hmem⟩
  obtain rfl : [serviceRule sampleNet none none "10.1.0.10"] = after := Except.ok.inj hafter
  have hnew : serviceRule sampleNet none none "10.1.0.10" ∈ new := by
    rw [List.nil_append] at hgrown
    rw [← hgrown]
    exact List.mem_singleton.mpr rfl
  have hrule := (hmem _).mp hnew
  obtain ⟨svc, hsvc, hip, hserves⟩ := ruleOf_iff.mp hrule.2
  obtain rfl : svc = { webService with ns := "bank" } := List.mem_singleton.mp hsvc
  rcases hserves with hbacks | ⟨hnone, -⟩
  · exact absurd hbacks.1 (by decide)
  · exact absurd hnone (by decide)

end KuryrKubernetes
