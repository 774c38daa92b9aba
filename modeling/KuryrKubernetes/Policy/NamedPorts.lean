import KuryrKubernetes.Policy.Parts
import KuryrKubernetes.Policy.ServiceEgress

/-!
# Named ports on egress

A named port of an egress rule is looked up in the containers of the destinations, and
opened for each destination (network_policy.py:291–386). The map from container ports to
pods is created once for the entry, so a destination is also opened on the ports that the
destinations before it have.

- `Resource.Offers`: the ports a destination has under a name, apart from the pods that
  the policy itself selects.
- `OpensOwn`: a rule for the address of a destination on a port. The rules for Services
  behind it are apart: they carry no pods.
- `NamedPortsExact`: in every order of the destinations each of them is opened on its own
  ports, and the security group rules are the same.
-/

namespace KuryrKubernetes

open Dicts LabelSelectors Results

/-! ## What a destination has -/

/-- Some container of the pod declares the port under the name. -/
def Pod.Declares (q : Pod) (npPort : Option String) (n : Nat) : Prop :=
  ∃ ports ∈ q.containers, ∃ cp ∈ ports, cp.name = npPort ∧ cp.containerPort = n

/-- The destination has the port under the name, in a pod the policy does not select. -/
def Resource.Offers (c : Cluster) (npPort : Option String)
    (spec : Option (LabelSelector × String)) (n : Nat) : Resource → Prop
  | .pod q => q.Declares npPort n ∧ excluded spec q = false
  | .namespace ns => ∃ q ∈ c.podsIn (some ns.name), q.hostNetwork = false ∧
      q.Declares npPort n ∧ excluded spec q = false
  | .cidr _ => False

/-- A pod on the pod network, or a namespace with a `spec`. -/
def Resource.Regular : Resource → Prop
  | .pod q => q.hostNetwork = false
  | .namespace ns => ns.finalizers ≠ []
  | .cidr _ => False

/-- The destination has an address. -/
def Resource.Addressed (r : Resource) : Prop := ∃ cidr, r.details.1 = some cidr

/-- A pod or a namespace. -/
def Resource.IsDestination : Resource → Prop
  | .pod _ | .namespace _ => True
  | .cidr _ => False

theorem mem_getContainerPorts_iff {npPort : Option String} {p q : Pod} {n : Nat} :
    (q, n) ∈ getContainerPorts npPort p ↔ q = p ∧ p.hostNetwork = false ∧ p.Declares npPort n := by
  rw [mem_getContainerPorts]
  refine and_congr_right fun _ => and_congr_right fun _ => ?_
  constructor
  · rintro ⟨cp, hcp, hname, hn⟩
    obtain ⟨ports, hports, hcp⟩ := List.mem_flatten.mp hcp
    exact ⟨ports, hports, cp, hcp, hname, hn⟩
  · rintro ⟨ports, hports, cp, hcp, hname, hn⟩
    exact ⟨cp, List.mem_flatten.mpr ⟨ports, hports, hcp⟩, hname, hn⟩

/-- What the lookup finds in a destination: its ports, if it is a regular one. -/
theorem getPorts_iff {c : Cluster} {npPort : Option String}
    {spec : Option (LabelSelector × String)} {n : Nat} {r : Resource} :
    (r.hasSpec = true ∧ ∃ q, (q, n) ∈ getPorts c npPort r ∧ excluded spec q = false) ↔
      r.Regular ∧ r.Offers c npPort spec n := by
  rcases r with p | ns | cidr
  · simp [Resource.hasSpec, Resource.Regular, Resource.Offers, getPorts,
      mem_getContainerPorts_iff, and_assoc]
  · simp only [Resource.hasSpec, Resource.Regular, Resource.Offers, getPorts, List.mem_flatMap,
      mem_getContainerPorts_iff, ne_eq, decide_not, Bool.not_eq_true', decide_eq_false_iff_not]
    refine and_congr_right fun _ => ?_
    constructor
    · rintro ⟨q, ⟨p, hp, rfl, hhost, hdeclares⟩, hex⟩
      exact ⟨q, hp, hhost, hdeclares, hex⟩
    · rintro ⟨q, hq, hhost, hdeclares, hex⟩
      exact ⟨q, ⟨q, hq, rfl, hhost, hdeclares⟩, hex⟩
  · simp [Resource.hasSpec, Resource.Regular]

/-! ## What is opened for a destination -/

section

variable (c : Cluster) (net : Net) (port : PolicyPort) (npPort : Option String) (policyNs : String)
  (memo : Memo)

/-- The calls for the entry `port` with the destinations `rs`. -/
def egressTextPort (rs : List Resource) : Except Error (List Append × Memo) :=
  createSgRuleBodyOnTextPort c net .egress port npPort rs policyNs [] memo

/-- The policy itself, whose pods are left out. -/
def itself : Option (LabelSelector × String) := ownPods .egress memo.podSelector policyNs

/-- The port is found with the destination, or with one before it. -/
def Reached (rs : List Resource) (r : Resource) (n : Nat) : Prop :=
  r ∈ rs.filter Resource.hasSpec ∧ ∃ r', r'.Regular ∧
    r'.Offers c npPort (itself policyNs memo) n ∧
    (r' = r ∨ [r', r].Sublist (rs.filter Resource.hasSpec))

/-- The pods found for the port when the destination has its turn. -/
def Gathers (rs : List Resource) (r : Resource) (n : Nat) (pods : PodMap) : Prop :=
  ∃ before call after,
    ((rs.filter Resource.hasSpec).map fun r => (getPorts c npPort r, r)) =
      before ++ call :: after ∧ call.2 = r ∧
    (n, pods) ∈ (gather (itself policyNs memo) (portsOf (before ++ [call]))).items

/-- A rule among the appends for the address of the destination, on the port. -/
def OpensOwn (out : List Append) (r : Resource) (n : Nat) : Prop :=
  ∃ pods cidr, r.details.1 = some cidr ∧
    ownAppend net .egress ⟨some n, port.protocolOrTCP, some pods⟩ r cidr ∈ out

/-- The security group rules for a destination and a port: for its address, and for the
Services behind it. -/
def SgRuleFor (r : Resource) (n : Nat) (s : SgRule) : Prop :=
  ∃ a via, ForResource c net .egress policyNs ⟨some n, port.protocolOrTCP, none⟩ r a via ∧
    a.rule.sgRule = s

end

section

variable {c : Cluster} {net : Net} {port : PolicyPort} {npPort : Option String} {policyNs : String}
  {memo : Memo} {rs : List Resource} {r : Resource} {n : Nat}

theorem reached_iff_offered :
    Reached c npPort policyNs memo rs r n ↔
      ∃ owner, Offered c .egress npPort policyNs rs memo.podSelector r n owner ∧
        excluded (itself policyNs memo) owner = false := by
  constructor
  · rintro ⟨hr, r', hregular, hoffers, hbefore⟩
    obtain ⟨-, owner, howner, hex⟩ := getPorts_iff.mpr ⟨hregular, hoffers⟩
    exact ⟨owner, ⟨hr, r', howner, hbefore⟩, hex⟩
  · rintro ⟨owner, ⟨hr, r', howner, hbefore⟩, hex⟩
    have hspec : r' ∈ rs.filter Resource.hasSpec := by
      rcases hbefore with rfl | hsub
      · exact hr
      · exact hsub.subset List.mem_cons_self
    obtain ⟨hregular, hoffers⟩ :=
      getPorts_iff.mp ⟨(List.mem_filter.mp hspec).2, owner, howner, hex⟩
    exact ⟨hr, r', hregular, hoffers, hbefore⟩

/-- The pods do not show in the security group rules. -/
theorem sgRuleFor_iff (pods : PodMap) {s : SgRule} :
    (∃ a via, ForResource c net .egress policyNs ⟨some n, port.protocolOrTCP, some pods⟩ r a via ∧
      a.rule.sgRule = s) ↔ SgRuleFor c net port policyNs r n s := by
  constructor
  · rintro ⟨a, via, ⟨cidr, hcidr, hvia⟩, rfl⟩
    cases via with
    | none =>
      rw [hvia]
      exact ⟨_, none, ⟨cidr, hcidr, rfl⟩, rfl⟩
    | some v =>
      obtain ⟨hd, hsvc, ip, hip, hbacks, rfl⟩ := hvia
      exact ⟨_, some v, ⟨cidr, hcidr, hd, hsvc, ip, hip, hbacks, rfl⟩, rfl⟩
  · rintro ⟨a, via, ⟨cidr, hcidr, hvia⟩, rfl⟩
    cases via with
    | none =>
      rw [hvia]
      exact ⟨_, none, ⟨cidr, hcidr, rfl⟩, rfl⟩
    | some v =>
      obtain ⟨hd, hsvc, ip, hip, hbacks, rfl⟩ := hvia
      exact ⟨_, some v, ⟨cidr, hcidr, hd, hsvc, ip, hip, hbacks, rfl⟩, rfl⟩

theorem Gathers.pods_ne {pods : PodMap} (h : Gathers c npPort policyNs memo rs r n pods) :
    pods.items ≠ [] := by
  obtain ⟨before, call, after, -, -, hmem⟩ := h
  intro hnil
  refine foldl_pods_ne (m := Dict.empty) (fun _ h => by cases h) (n, pods) hmem ?_
  simp [Dict.keys, hnil]

theorem exists_gathers_iff :
    (∃ pods, Gathers c npPort policyNs memo rs r n pods) ↔
      Reached c npPort policyNs memo rs r n := by
  rw [reached_iff_offered]
  constructor
  · rintro ⟨pods, before, call, after, hsplit, hr, hmem⟩
    obtain ⟨owner, howner, hex⟩ := gather_owner hmem
    exact ⟨owner, (offered_egress_iff rfl).mp ⟨before, call, after, hsplit, hr, howner⟩, hex⟩
  · rintro ⟨owner, hoffered, hex⟩
    obtain ⟨before, call, after, hsplit, hr, howner⟩ := (offered_egress_iff rfl).mpr hoffered
    obtain ⟨pods, hmem, -⟩ := has_gather.mpr ⟨owner, howner, rfl, hex⟩
    exact ⟨pods, before, call, after, hsplit, hr, hmem⟩

/-- **The appends**: for every port that is reached, those of the destination. -/
theorem mem_egressTextPort {out : List Append} {memo' : Memo}
    (h : egressTextPort c net port npPort policyNs memo rs = .ok (out, memo')) {a : Append} :
    a ∈ out ↔ ∃ r n pods via, Gathers c npPort policyNs memo rs r n pods ∧
      ForResource c net .egress policyNs ⟨some n, port.protocolOrTCP, some pods⟩ r a via := by
  obtain ⟨-, calls, hcalls, hmem⟩ := createSgRuleBodyOnTextPort_ok h
  cases hcalls
  rw [hmem]
  simp only [true_and, List.not_mem_nil, false_and, exists_false, and_false, or_false]
  constructor
  · rintro ⟨before, call, after, hsplit, ⟨n, pods⟩, he, via, hfor⟩
    exact ⟨call.2, n, pods, via, ⟨before, call, after, hsplit, rfl, he⟩, hfor⟩
  · rintro ⟨r, n, pods, via, ⟨before, call, after, hsplit, rfl, he⟩, hfor⟩
    exact ⟨before, call, after, hsplit, (n, pods), he, via, hfor⟩

theorem emitted_iff {out : List Append} {memo' : Memo} {s : SgRule}
    (h : egressTextPort c net port npPort policyNs memo rs = .ok (out, memo')) :
    (∃ a ∈ out, a.rule.sgRule = s) ↔
      ∃ r n, Reached c npPort policyNs memo rs r n ∧ SgRuleFor c net port policyNs r n s := by
  constructor
  · rintro ⟨a, ha, hs⟩
    obtain ⟨r, n, pods, via, hgathers, hfor⟩ := (mem_egressTextPort h).mp ha
    exact ⟨r, n, exists_gathers_iff.mp ⟨pods, hgathers⟩, (sgRuleFor_iff pods).mp ⟨a, via, hfor, hs⟩⟩
  · rintro ⟨r, n, hreached, hs⟩
    obtain ⟨pods, hgathers⟩ := exists_gathers_iff.mpr hreached
    obtain ⟨a, via, hfor, hs⟩ := (sgRuleFor_iff pods).mpr hs
    exact ⟨a, (mem_egressTextPort h).mpr ⟨r, n, pods, via, hgathers, hfor⟩, hs⟩

theorem opensOwn_iff {out : List Append} {memo' : Memo}
    (h : egressTextPort c net port npPort policyNs memo rs = .ok (out, memo')) :
    OpensOwn net port out r n ↔ r.Addressed ∧ Reached c npPort policyNs memo rs r n := by
  constructor
  · rintro ⟨pods, cidr, hcidr, hmem⟩
    obtain ⟨r', n', pods', via, hgathers, cidr', hcidr', hvia⟩ := (mem_egressTextPort h).mp hmem
    cases via with
    | none =>
      have horigin : r = r' := Option.some.inj (congrArg Append.origin hvia)
      have hport := congrArg (fun a : Append => a.rule.sgRule.port_range_min) hvia
      have hn : n = n' := by
        simp only [ownAppend, createSecurityGroupRuleBody, Option.filter] at hport
        by_cases h₁ : n = 0 <;> by_cases h₂ : n' = 0 <;> simp_all
      subst horigin hn
      exact ⟨⟨cidr, hcidr⟩, exists_gathers_iff.mp ⟨pods', hgathers⟩⟩
    | some v =>
      -- a rule for a Service carries no pods
      obtain ⟨-, -, ip, -, -, heq⟩ := hvia
      have howners : some pods = some pods' := congrArg Append.owners heq
      have hpods := congrArg (fun a : Append => a.rule.affectedPods) heq
      simp [ownAppend, serviceAppend, createSecurityGroupRuleBody, Option.some.inj howners,
        hgathers.pods_ne] at hpods
  · rintro ⟨⟨cidr, hcidr⟩, hreached⟩
    obtain ⟨pods, hgathers⟩ := exists_gathers_iff.mpr hreached
    exact ⟨pods, cidr, hcidr,
      (mem_egressTextPort h).mpr ⟨r, n, pods, none, hgathers, cidr, hcidr, rfl⟩⟩

/-! ## The run returns -/

theorem svcMatches_destination_ok (hr : r.IsDestination) (svc : Service) :
    ∃ b, svcMatches c net policyNs svc r = .ok b := by
  rcases r with p | ns | cidr
  · exact svcMatches_pod_ok c net policyNs p svc
  · exact ⟨_, rfl⟩
  · cases hr

theorem exists_createSgRulesWithContainerPorts (hr : r.IsDestination) (s : LabelSelector)
    (m : Matched) (ports : List (Pod × Nat)) :
    ∃ x, createSgRulesWithContainerPorts c net .egress port s policyNs [] m ports r = .ok x := by
  unfold createSgRulesWithContainerPorts
  cases hcidr : r.details.1 with
  | none => exact ⟨_, rfl⟩
  | some cidr =>
    refine exists_bind (exists_collect fun e _ => ?_) fun appends => ⟨_, rfl⟩
    exact exists_bind (exists_createSvcEgressSgRule (svcMatches_destination_ok hr) _ _ _)
      fun svc => ⟨_, rfl⟩

theorem exists_runContainerPorts (s : LabelSelector) :
    ∀ {calls : List (List (Pod × Nat) × Resource)}, (∀ call ∈ calls, call.2.IsDestination) →
      ∀ m, ∃ x, runContainerPorts c net .egress port s policyNs [] m calls = .ok x
  | [], _, m => ⟨_, rfl⟩
  | call :: calls, h, m => by
    refine exists_bind
      (exists_createSgRulesWithContainerPorts (h call List.mem_cons_self) s m call.1) fun x => ?_
    exact exists_bind
      (exists_runContainerPorts s (fun y hy => h y (List.mem_cons_of_mem call hy)) x.2)
      fun y => ⟨_, rfl⟩

/-- Pods and namespaces are looked up without a failure. -/
theorem exists_egressTextPort (c : Cluster) (net : Net) (port : PolicyPort)
    (npPort : Option String) (policyNs : String) (memo : Memo) (h : ∀ r ∈ rs, r.IsDestination) :
    ∃ out memo', egressTextPort c net port npPort policyNs memo rs = .ok (out, memo') := by
  have hcalls : ∀ call ∈ (rs.filter Resource.hasSpec).map fun r => (getPorts c npPort r, r),
      call.2.IsDestination := by
    intro call hcall
    obtain ⟨r, hr, rfl⟩ := List.mem_map.mp hcall
    exact h r (List.mem_of_mem_filter hr)
  have hrun : ∃ x, runContainerPorts c net .egress port memo.podSelector policyNs [] Dict.empty
      ((rs.filter Resource.hasSpec).map fun r => (getPorts c npPort r, r)) = .ok x :=
    exists_runContainerPorts _ hcalls _
  obtain ⟨x, hx⟩ := hrun
  exact ⟨_, _, bind_eq_ok.mpr ⟨x, hx, rfl⟩⟩

end

/-! ## Its own ports, in every order -/

/-- In every order of the destinations, each of them is opened on its own ports, and the
security group rules are the same. -/
def NamedPortsExact (c : Cluster) (net : Net) (port : PolicyPort) (npPort : Option String)
    (policyNs : String) (memo : Memo) (rs : List Resource) : Prop :=
  ∀ rs', rs'.Perm rs → ∃ out memo',
    egressTextPort c net port npPort policyNs memo rs' = .ok (out, memo') ∧
    (∀ r ∈ rs', ∀ n, OpensOwn net port out r n ↔
      r.Addressed ∧ r.Offers c npPort (itself policyNs memo) n) ∧
    ∀ out₀ memo₀, egressTextPort c net port npPort policyNs memo rs = .ok (out₀, memo₀) →
      ∀ s, (∃ a ∈ out, a.rule.sgRule = s) ↔ ∃ a ∈ out₀, a.rule.sgRule = s

/-- Every destination with an address has the ports of all others, and none of them is
skipped though it has one. -/
structure PortsShared (c : Cluster) (npPort : Option String) (policyNs : String) (memo : Memo)
    (rs : List Resource) : Prop where
  shared : ∀ r ∈ rs, r.hasSpec = true → r.Addressed → ∀ r' ∈ rs, r'.Regular → ∀ n,
    r'.Offers c npPort (itself policyNs memo) n → r.Offers c npPort (itself policyNs memo) n
  regular : ∀ r ∈ rs, r.Addressed → ∀ n, r.Offers c npPort (itself policyNs memo) n → r.Regular

theorem Resource.Regular.hasSpec {r : Resource} (h : r.Regular) : r.hasSpec = true := by
  rcases r with p | ns | cidr
  · rfl
  · simpa [Resource.hasSpec, Resource.Regular] using h
  · cases h

/-- An order in which a destination comes before all others. -/
theorem exists_order_first (r : Resource) (rs : List Resource) :
    ∃ rs' : List Resource, rs'.Perm rs ∧ rs'.Pairwise fun x y => y = r → x = r := by
  refine ⟨rs.filter (· = r) ++ rs.filter (¬ · = r), ?_, ?_⟩
  · simpa using List.filter_append_perm (fun x => decide (x = r)) rs
  · rw [List.pairwise_append]
    refine ⟨List.pairwise_of_forall_mem_list fun x hx _ _ _ => ?_,
      List.pairwise_of_forall_mem_list fun _ _ y hy hyr => ?_, fun x hx _ _ _ => ?_⟩
    · simpa using (List.mem_filter.mp hx).2
    · exact absurd hyr (by simpa using (List.mem_filter.mp hy).2)
    · simpa using (List.mem_filter.mp hx).2

section

variable {c : Cluster} {net : Net} {port : PolicyPort} {npPort : Option String} {policyNs : String}
  {memo : Memo} {rs : List Resource}

/-- Where the ports are shared, a destination with an address is opened on its own. -/
theorem PortsShared.reached_iff (h : PortsShared c npPort policyNs memo rs) {rs' : List Resource}
    (hperm : rs'.Perm rs) {r : Resource} (haddress : r.Addressed) {n : Nat} :
    Reached c npPort policyNs memo rs' r n ↔
      r ∈ rs ∧ r.Offers c npPort (itself policyNs memo) n := by
  constructor
  · rintro ⟨hr, r', hregular, hoffers, hbefore⟩
    obtain ⟨hmem, hspec⟩ := List.mem_filter.mp hr
    have hr' : r' ∈ rs' := by
      rcases hbefore with rfl | hsub
      · exact hmem
      · exact List.mem_of_mem_filter (hsub.subset List.mem_cons_self)
    exact ⟨hperm.mem_iff.mp hmem, h.shared r (hperm.mem_iff.mp hmem) hspec haddress r'
      (hperm.mem_iff.mp hr') hregular n hoffers⟩
  · rintro ⟨hr, hoffers⟩
    have hregular := h.regular r hr haddress n hoffers
    exact ⟨List.mem_filter.mpr ⟨hperm.mem_iff.mpr hr, hregular.hasSpec⟩, r, hregular, hoffers,
      .inl rfl⟩

theorem SgRuleFor.addressed {r : Resource} {n : Nat} {s : SgRule}
    (h : SgRuleFor c net port policyNs r n s) : r.Addressed := by
  obtain ⟨a, via, ⟨cidr, hcidr, -⟩, -⟩ := h
  exact ⟨cidr, hcidr⟩

/-- Under shared ports the security group rules are those of the destinations and their
own ports, whatever the order. -/
theorem PortsShared.rules_iff (h : PortsShared c npPort policyNs memo rs) {rs' : List Resource}
    (hperm : rs'.Perm rs) {out : List Append} {memo' : Memo} {s : SgRule}
    (hok : egressTextPort c net port npPort policyNs memo rs' = .ok (out, memo')) :
    (∃ a ∈ out, a.rule.sgRule = s) ↔ ∃ r ∈ rs, ∃ n,
      r.Offers c npPort (itself policyNs memo) n ∧ SgRuleFor c net port policyNs r n s := by
  rw [emitted_iff hok]
  constructor
  · rintro ⟨r, n, hreached, hs⟩
    obtain ⟨hr, hoffers⟩ := (h.reached_iff hperm hs.addressed).mp hreached
    exact ⟨r, hr, n, hoffers, hs⟩
  · rintro ⟨r, hr, n, hoffers, hs⟩
    exact ⟨r, n, (h.reached_iff hperm hs.addressed).mpr ⟨hr, hoffers⟩, hs⟩

theorem PortsShared.exact (h : PortsShared c npPort policyNs memo rs)
    (hrs : ∀ r ∈ rs, r.IsDestination) : NamedPortsExact c net port npPort policyNs memo rs := by
  intro rs' hperm
  obtain ⟨out, memo', hok⟩ := exists_egressTextPort c net port npPort policyNs memo
    fun r hr => hrs r (hperm.mem_iff.mp hr)
  refine ⟨out, memo', hok, fun r hr n => ?_, fun out₀ memo₀ hok₀ s => ?_⟩
  · rw [opensOwn_iff hok]
    refine and_congr_right fun haddress => ?_
    rw [h.reached_iff hperm haddress]
    exact and_iff_right (hperm.mem_iff.mp hr)
  · rw [h.rules_iff hperm hok, h.rules_iff (List.Perm.refl rs) hok₀]

/-- A destination that comes first is opened on its own ports only. -/
theorem NamedPortsExact.regular (h : NamedPortsExact c net port npPort policyNs memo rs)
    {r : Resource} (hr : r ∈ rs) (haddress : r.Addressed) {n : Nat}
    (hoffers : r.Offers c npPort (itself policyNs memo) n) : r.Regular := by
  obtain ⟨rs', hperm, hfirst⟩ := exists_order_first r rs
  obtain ⟨out, memo', hok, hown, -⟩ := h rs' hperm
  have hopens := (hown r (hperm.mem_iff.mpr hr) n).mpr ⟨haddress, hoffers⟩
  obtain ⟨-, -, r', hregular, -, hbefore⟩ := (opensOwn_iff hok).mp hopens
  rcases hbefore with rfl | hsub
  · exact hregular
  · have heq : r' = r :=
      List.pairwise_iff_forall_sublist.mp hfirst (hsub.trans List.filter_sublist) rfl
    exact heq ▸ hregular

/-- A destination that comes last is opened on the ports of all. -/
theorem NamedPortsExact.shared (h : NamedPortsExact c net port npPort policyNs memo rs)
    {r r' : Resource} (hr : r ∈ rs) (hspec : r.hasSpec = true) (haddress : r.Addressed)
    (hr' : r' ∈ rs) (hregular : r'.Regular) {n : Nat}
    (hoffers : r'.Offers c npPort (itself policyNs memo) n) :
    r.Offers c npPort (itself policyNs memo) n := by
  by_cases heq : r' = r
  · exact heq ▸ hoffers
  · have hperm : (rs.erase r ++ [r]).Perm rs :=
      (List.perm_append_singleton r (rs.erase r)).trans (List.perm_cons_erase hr).symm
    obtain ⟨out, memo', hok, hown, -⟩ := h _ hperm
    have hsub : [r', r].Sublist ((rs.erase r ++ [r]).filter Resource.hasSpec) := by
      rw [List.filter_append, ← List.singleton_append]
      refine (List.singleton_sublist.mpr ?_).append (List.singleton_sublist.mpr ?_)
      · exact List.mem_filter.mpr ⟨(List.mem_erase_of_ne heq).mpr hr', hregular.hasSpec⟩
      · exact List.mem_filter.mpr ⟨List.mem_singleton.mpr rfl, hspec⟩
    have hopens : OpensOwn net port out r n :=
      (opensOwn_iff hok).mpr ⟨haddress, hsub.subset (by simp), r', hregular, hoffers, .inr hsub⟩
    exact ((hown r (by simp) n).mp hopens).2

/-- Named ports on egress open the ports the destinations have, in every order, exactly
when the destinations with an address all have the same ones and none of these is skipped. -/
theorem egress_named_ports_exact_iff (c : Cluster) (net : Net) (port : PolicyPort) (name : String)
    (policyNs : String) (memo : Memo) (rs : List Resource) (hrs : ∀ r ∈ rs, r.IsDestination) :
    NamedPortsExact c net port (some name) policyNs memo rs ↔
      PortsShared c (some name) policyNs memo rs := by
  constructor
  · intro h
    exact ⟨fun r hr hspec haddress r' hr' hregular n hoffers =>
        h.shared hr hspec haddress hr' hregular hoffers,
      fun r hr haddress n hoffers => h.regular hr haddress hoffers⟩
  · intro h
    exact h.exact hrs

end

/-- A pod with the port `http` on 9090. -/
def otherPod : Pod :=
  { podWith none with
    name := "api-0"
    podIP := some "10.0.0.6"
    containers := [[⟨some "http", 9090⟩]]
    containers_ne := by simp }

theorem egress_named_ports_exact_web :
    NamedPortsExact (clusterWith none) sampleNet ⟨.text (some "http"), none⟩ (some "http") "shop"
      ⟨webSelector, []⟩ [.pod (podWith none)] := by
  refine (egress_named_ports_exact_iff (clusterWith none) sampleNet ⟨.text (some "http"), none⟩
    "http" "shop" ⟨webSelector, []⟩ [.pod (podWith none)] ?_).mpr ⟨?_, ?_⟩
  · intro r hr
    rw [List.mem_singleton.mp hr]
    trivial
  · intro r hr _ _ r' hr' _ n hoffers
    rw [List.mem_singleton.mp hr]
    rw [List.mem_singleton.mp hr'] at hoffers
    exact hoffers
  · intro r hr _ n _
    rw [List.mem_singleton.mp hr]
    rfl

/-- The second pod is opened on the port of the first one. -/
theorem egress_named_ports_leak :
    ¬ NamedPortsExact (clusterWith none) sampleNet ⟨.text (some "http"), none⟩ (some "http") "shop"
      ⟨webSelector, []⟩ [.pod (podWith none), .pod otherPod] := by
  intro h
  have hoffers : (Resource.pod (podWith none)).Offers (clusterWith none) (some "http")
      (itself "shop" ⟨webSelector, []⟩) 8080 :=
    ⟨⟨_, List.mem_singleton.mpr rfl, _, List.mem_singleton.mpr rfl, rfl, rfl⟩, by decide⟩
  have hregular : (Resource.pod (podWith none)).Regular := rfl
  obtain ⟨⟨ports, hports, cp, hcp, -, hn⟩, -⟩ := h.shared (r := .pod otherPod) (by simp) rfl
    ⟨_, rfl⟩ (by simp) hregular hoffers
  rw [List.mem_singleton.mp hports] at hcp
  rw [List.mem_singleton.mp hcp] at hn
  exact absurd hn (by decide)

end KuryrKubernetes
