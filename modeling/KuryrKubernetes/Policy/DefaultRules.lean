import KuryrKubernetes.Policy.Compiler

/-!
# Default-open and default-deny

What an append of the compiler can be (`Form`), and from it when the rules of a
direction contain an unrestricted rule.

The documentation (devref/network_policy.rst:493–521) opens a direction when
`policyTypes` does not list it or one of its blocks is `{}`. The code decides on
`policyTypes` only when the section is empty, and looks at the first block only;
`parseSgRules_default_iff` says for which policies the two coincide.
-/

namespace KuryrKubernetes

open Dicts LabelSelectors Results

/-! ## The rule list -/

/-- A skipped append has its rule in the list already. -/
theorem mem_run {rules : List Rule} {a : Append} {r : Rule} :
    r ∈ a.run rules ↔ r ∈ rules ∨ a.rule = r := by
  unfold Append.run
  split
  · next h =>
    refine ⟨.inl, ?_⟩
    rintro (hr | rfl)
    · exact hr
    · exact h.2
  · rw [List.mem_append, List.mem_singleton, eq_comm (a := r)]

theorem mem_foldl_run {as : List Append} {rules : List Rule} {r : Rule} :
    r ∈ as.foldl Append.run rules ↔ r ∈ rules ∨ ∃ a ∈ as, a.rule = r := by
  induction as generalizing rules with
  | nil => simp
  | cons a as ih =>
    rw [List.foldl_cons, ih, mem_run]
    simp only [List.mem_cons, exists_eq_or_imp]
    tauto

/-- **The list holds exactly the appended rules.** -/
theorem mem_runAppends {as : List Append} {r : Rule} :
    r ∈ runAppends as ↔ ∃ a ∈ as, a.rule = r := by
  rw [runAppends, mem_foldl_run]
  simp

/-! ## What an append can be -/

/-- The appends of the compiler outside the default rules, for direction `d`. -/
inductive Form (net : Net) (d : Direction) : Append → Prop
  | resource (r : Resource) (cidr : String) (ns : Option String) (port : Option Nat)
      (protocol : Option Protocol) (h : r.details = (some cidr, ns)) :
      Form net d ⟨createSecurityGroupRuleBody net d port protocol .IPv4 (some cidr) ns none,
        false, some r, none⟩
  | service (r : Resource) (clusterIP : String) (port : Option Nat) (protocol : Option Protocol)
      (owners : Option PodMap) :
      Form net d ⟨createSecurityGroupRuleBody net .egress port protocol .IPv4 (some clusterIP)
        none none, true, some r, owners⟩
  | named (r : Resource) (cidr : String) (cp : Nat) (port : PolicyPort) (pods : PodMap)
      (h : r.details.1 = some cidr) :
      Form net d ⟨createSecurityGroupRuleBody net d (some cp) port.protocolOrTCP .IPv4 (some cidr)
        none (some pods), true, some r, some pods⟩
  | namedCidr (cidr : String) (cp : Nat) (port : PolicyPort) (pods : PodMap) :
      Form net d ⟨createSecurityGroupRuleBody net d (some cp) port.protocolOrTCP .IPv4 (some cidr)
        none (some pods), false, none, some pods⟩
  | cidr (cidr : String) (port : Option Nat) (protocol : Option Protocol) :
      Form net d ⟨createSecurityGroupRuleBody net d port protocol .IPv4 (some cidr) none none,
        false, none, none⟩
  | anywhere (n : Nat) (port : PolicyPort) (ethertype : Ethertype) :
      Form net d ⟨createSecurityGroupRuleBody net d (some n) port.protocolOrTCP ethertype none
        none none, false, none, none⟩

/-- All appends of a list have a form. -/
abbrev Forms (net : Net) (d : Direction) (as : List Append) : Prop := ∀ a ∈ as, Form net d a

variable {c : Cluster} {net : Net} {d : Direction} {policyNs : String}

theorem Forms.append {as bs : List Append} (ha : Forms net d as) (hb : Forms net d bs) :
    Forms net d (as ++ bs) := by
  intro a h
  rcases List.mem_append.mp h with h | h
  · exact ha a h
  · exact hb a h

theorem createSvcEgressSgRule_forms (r : Resource) (port : Option Nat)
    (protocol : Option Protocol) (owners : Option PodMap) :
    Holds (Forms net d) (createSvcEgressSgRule c net policyNs (some r) port protocol owners) := by
  refine Holds.collect fun svc _ => ?_
  cases hip : svc.address with
  | none => exact Holds.ok fun _ h => absurd h (by simp)
  | some ip =>
    refine Holds.trivial.bind fun b _ => ?_
    cases b with
    | false => exact Holds.ok fun _ h => absurd h (by simp)
    | true =>
      refine Holds.ok fun a h => ?_
      rw [List.mem_singleton.mp h]
      exact .service r ip port protocol owners

theorem serviceAppends_forms (r : Resource) (port : Option Nat)
    (protocol : Option Protocol) (owners : Option PodMap) :
    Holds (Forms net d) (serviceAppends c net d policyNs r port protocol owners) := by
  cases d with
  | ingress => exact Holds.ok fun _ h => absurd h (by simp)
  | egress => exact createSvcEgressSgRule_forms r port protocol owners

theorem resourceAppends_forms (port : Option Nat) (protocol : Option Protocol)
    (resources : List Resource) :
    Holds (Forms net d) (resourceAppends c net d port protocol policyNs resources) := by
  refine Holds.collect fun r _ => ?_
  rcases hr : r.details with ⟨_ | cidr, ns⟩
  · exact Holds.ok fun _ h => absurd h (by simp)
  · refine (serviceAppends_forms r port protocol none).bind fun svc hsvc => Holds.ok fun a ha => ?_
    rcases List.mem_cons.mp ha with rfl | ha
    · exact .resource r cidr ns port protocol hr
    · exact hsvc a ha

theorem createSgRulesWithContainerPorts_forms (port : PolicyPort) (podSelector : LabelSelector)
    (cidrs : List String) (matched : Matched) (containerPorts : List (Pod × Nat)) (r : Resource) :
    Holds (fun x => Forms net d x.1) (createSgRulesWithContainerPorts c net d port podSelector
      policyNs cidrs matched containerPorts r) := by
  have hnil : ∀ m : Matched, Holds (fun x => Forms net d x.1)
      (.ok ([], m) : Except Error (List Append × Matched)) :=
    fun m => Holds.ok fun _ h => absurd h (by simp)
  unfold createSgRulesWithContainerPorts
  cases cidrs with
  | cons cidr cidrs => exact hnil _
  | nil =>
    cases hr : r.details.1 with
    | none => exact hnil _
    | some cidr =>
      refine Holds.bind (P := Forms net d) (Holds.collect fun e _ => ?_) fun _ h => Holds.ok h
      refine (serviceAppends_forms r _ _ _).bind fun svc hsvc => Holds.ok fun a ha => ?_
      rcases List.mem_cons.mp ha with rfl | ha
      · exact .named r cidr e.1 port e.2 hr
      · exact hsvc a ha

theorem runContainerPorts_forms (port : PolicyPort) (podSelector : LabelSelector)
    (cidrs : List String) :
    ∀ (calls : List (List (Pod × Nat) × Resource)) (matched : Matched),
      Holds (fun x => Forms net d x.1) (runContainerPorts c net d port podSelector policyNs cidrs
        matched calls)
  | [], _ => Holds.ok fun _ h => absurd h (by simp)
  | call :: calls, matched =>
    (createSgRulesWithContainerPorts_forms port podSelector cidrs matched call.1 call.2).bind
      fun x hx => (runContainerPorts_forms port podSelector cidrs calls x.2).bind
        fun _ hy => Holds.ok (hx.append hy)

theorem cidrAppends_forms (port : PolicyPort) (cidrs : List String) (matched : Matched) :
    Forms net d (cidrAppends net d port cidrs matched) := by
  intro a ha
  obtain ⟨e, -, ha⟩ := List.mem_flatMap.mp ha
  obtain ⟨cidr, -, rfl⟩ := List.mem_map.mp ha
  exact .namedCidr cidr e.1 port e.2

theorem createSgRuleBodyOnTextPort_forms (port : PolicyPort) (npPort : Option String)
    (resources : List Resource) (cidrs : List String) (memo : Memo) :
    Holds (fun x => Forms net d x.1) (createSgRuleBodyOnTextPort c net d port npPort resources
      policyNs cidrs memo) := by
  cases d with
  | ingress =>
    refine Holds.trivial.bind fun selected _ => ?_
    exact (runContainerPorts_forms port _ cidrs _ _).bind
      fun x hx => Holds.ok (hx.append (cidrAppends_forms port cidrs x.2))
  | egress =>
    exact (runContainerPorts_forms port _ cidrs _ _).bind
      fun x hx => Holds.ok (hx.append (cidrAppends_forms port cidrs x.2))

theorem createAllPodsSgRules_forms (port : PolicyPort) (cidrs : List String) (memo : Memo) :
    Holds (fun x => Forms net d x.1) (createAllPodsSgRules c net d port policyNs cidrs memo) := by
  unfold createAllPodsSgRules
  cases port.port with
  | text npPort => exact createSgRuleBodyOnTextPort_forms port _ _ cidrs memo
  | number n =>
    by_cases hc : cidrs ≠ []
    · simp only [if_pos hc]
      refine Holds.ok fun a ha => ?_
      obtain ⟨cidr, -, rfl⟩ := List.mem_map.mp ha
      exact .cidr cidr (some n) port.protocol
    · simp only [if_neg hc]
      refine Holds.ok fun a ha => ?_
      obtain ⟨ethertype, -, rfl⟩ := List.mem_map.mp ha
      exact .anywhere n port ethertype

theorem resourcePortAppends_forms (resources : List Resource) (port : PolicyPort) (memo : Memo) :
    Holds (fun x => Forms net d x.1)
      (resourcePortAppends c net d policyNs resources port memo) := by
  unfold resourcePortAppends
  cases port.port with
  | text npPort => exact createSgRuleBodyOnTextPort_forms port _ _ [] memo
  | number n => exact (resourceAppends_forms _ _ _).bind fun _ h => Holds.ok h

theorem portAppends_forms (peers : Peers) (port : PolicyPort) (memo : Memo) :
    Holds (fun x => Forms net d x.1) (portAppends c net d policyNs peers port memo) := by
  unfold portAppends
  split
  · exact createAllPodsSgRules_forms port [] memo
  · refine (resourcePortAppends_forms _ port memo).bind fun ⟨as, memo'⟩ hx => ?_
    by_cases hc : peers.allowedCidrs.getD [] = []
    · simp only [if_pos hc]
      exact Holds.ok hx
    · simp only [if_neg hc]
      exact (createAllPodsSgRules_forms port _ memo').bind fun y hy => Holds.ok (hx.append hy)

theorem portsAppends_forms (peers : Peers) :
    ∀ (ports : List PolicyPort) (memo : Memo),
      Holds (fun x => Forms net d x.1) (portsAppends c net d policyNs peers ports memo)
  | [], _ => Holds.ok fun _ h => absurd h (by simp)
  | port :: ports, memo =>
    (portAppends_forms peers port memo).bind fun x hx =>
      (portsAppends_forms peers ports x.2).bind fun _ hy => Holds.ok (hx.append hy)

theorem blockAppends_forms (block : RuleBlock) (memo : Memo) :
    Holds (fun x => Forms net d x.1) (blockAppends c net d policyNs block memo) := by
  refine Holds.trivial.bind fun x _ => ?_
  simp only
  split
  · exact portsAppends_forms _ _ _
  · refine (resourceAppends_forms _ _ _).bind fun as has => Holds.ok (has.append fun a ha => ?_)
    obtain ⟨cidr, -, rfl⟩ := List.mem_map.mp ha
    exact .cidr cidr none none

/-- **Every append of the block loop has a form.** -/
theorem blocksAppends_forms :
    ∀ (blocks : List RuleBlock) (memo : Memo),
      Holds (fun x => Forms net d x.1) (blocksAppends c net d policyNs blocks memo)
  | [], _ => Holds.ok fun _ h => absurd h (by simp)
  | block :: blocks, memo =>
    (blockAppends_forms block memo).bind fun x hx =>
      (blocksAppends_forms blocks x.2).bind fun _ hy => Holds.ok (hx.append hy)

/-! ## Unrestricted rules -/

/-- No port, no protocol, no remote prefix. -/
def SgRule.Unrestricted (r : SgRule) : Prop :=
  r.port_range_min = none ∧ r.port_range_max = none ∧ r.protocol = none ∧
    r.remote_ip_prefix = none

/-- The block loop never opens a direction. -/
theorem Form.restricted {a : Append} (h : Form net d a) : ¬ a.rule.sgRule.Unrestricted := by
  rintro ⟨-, -, hproto, hprefix⟩
  cases h with
  | anywhere n port ethertype => exact absurd hproto (by simp [createSecurityGroupRuleBody,
      PolicyPort.protocolOrTCP])
  | _ => exact absurd hprefix (by simp [createSecurityGroupRuleBody])

/-- An unrestricted rule of either family. -/
def Open (rules : List Rule) : Prop :=
  ∀ ethertype, ∃ r ∈ rules, r.sgRule.Unrestricted ∧ r.sgRule.ethertype = ethertype

theorem open_createDefaultSgRule (net : Net) (d : Direction) (as : List Append) :
    Open (runAppends (createDefaultSgRule net d ++ as)) := by
  intro ethertype
  refine ⟨(createSecurityGroupRuleBody net d none none ethertype none none none), ?_,
    ⟨rfl, rfl, rfl, rfl⟩, rfl⟩
  refine mem_runAppends.mpr ⟨⟨_, false, none, none⟩, List.mem_append_left _ ?_, rfl⟩
  exact List.mem_map.mpr ⟨ethertype, by cases ethertype <;> simp, rfl⟩

theorem not_open_of_forms {as : List Append} (h : Forms net d as) : ¬ Open (runAppends as) := by
  intro hopen
  obtain ⟨r, hr, hun, -⟩ := hopen .IPv4
  obtain ⟨a, ha, rfl⟩ := mem_runAppends.mp hr
  exact (h a ha).restricted hun

/-- The blocks of a direction. -/
def PolicySpec.blocks (spec : PolicySpec) (d : Direction) : List RuleBlock :=
  (spec.ruleList d).getD []

/-- The documented tables: the direction is open exactly when `policyTypes` leaves
it out or some block is `{}`, and it is closed without any rule when it is listed
and has no block. -/
def DefaultsAsDocumented (spec : PolicySpec) (d : Direction) (rules : List Rule) : Prop :=
  (Open rules ↔ d ∉ spec.policyTypes ∨ RuleBlock.empty ∈ spec.blocks d) ∧
  (d ∈ spec.policyTypes → spec.blocks d = [] → rules = [])

/-- The policies for which the code follows the tables. Without blocks, ingress is
opened for `[Egress]` alone; with blocks, only the first is looked at and
`policyTypes` is not. -/
def DefaultsSupported (spec : PolicySpec) (d : Direction) : Prop :=
  match spec.blocks d with
  | [] => d = .egress ∨ .ingress ∈ spec.policyTypes ∨ spec.policyTypes = [.egress]
  | block :: blocks =>
    block = RuleBlock.empty ∨ (d ∈ spec.policyTypes ∧ RuleBlock.empty ∉ block :: blocks)

theorem runAppends_nil : runAppends [] = [] := rfl

theorem not_open_nil : ¬ Open [] := by
  intro h
  obtain ⟨r, hr, -⟩ := h .IPv4
  cases hr

/-- No block in the section. -/
theorem parseSgRules_of_no_blocks {policy : NetworkPolicy} {memo memo' : Memo} {as : List Append}
    (hb : policy.spec.blocks d = []) (h : parseSgRules c net d policy memo = .ok (as, memo')) :
    as = if (d = .ingress ∧ policy.spec.policyTypes = [.egress]) ∨
        (d = .egress ∧ policy.spec.policyTypes ≠ [] ∧ .egress ∉ policy.spec.policyTypes) then
      createDefaultSgRule net d else [] := by
  unfold parseSgRules at h
  rw [show (policy.spec.ruleList d).getD [] = [] from hb] at h
  cases d with
  | ingress =>
    cases h
    simp
  | egress =>
    cases h
    simp

/-- Some block in the section. -/
theorem parseSgRules_of_blocks {policy : NetworkPolicy} {memo memo' : Memo} {as : List Append}
    {block : RuleBlock} {blocks : List RuleBlock} (hb : policy.spec.blocks d = block :: blocks)
    (h : parseSgRules c net d policy memo = .ok (as, memo')) :
    ∃ bs, blocksAppends c net d policy.ns (block :: blocks) memo = .ok (bs, memo') ∧
      as = (if block = RuleBlock.empty then createDefaultSgRule net d else []) ++ bs := by
  unfold parseSgRules at h
  rw [show (policy.spec.ruleList d).getD [] = block :: blocks from hb] at h
  obtain ⟨⟨bs, m⟩, hbs, h⟩ := bind_eq_ok.mp h
  cases h
  exact ⟨bs, hbs, rfl⟩

/-- **Default-open and default-deny**, exactly. -/
theorem parseSgRules_default_iff (c : Cluster) (net : Net) (d : Direction) (policy : NetworkPolicy)
    (hty : policy.spec.policyTypes ≠ []) (memo memo' : Memo) (as : List Append)
    (h : parseSgRules c net d policy memo = .ok (as, memo')) :
    DefaultsAsDocumented policy.spec d (runAppends as) ↔ DefaultsSupported policy.spec d := by
  unfold DefaultsAsDocumented DefaultsSupported
  cases hb : policy.spec.blocks d with
  | nil =>
    rw [parseSgRules_of_no_blocks hb h]
    have hopen : Open (runAppends (createDefaultSgRule net d)) := by
      have ho := open_createDefaultSgRule net d []
      rwa [List.append_nil] at ho
    cases d with
    | ingress =>
      by_cases hty' : policy.spec.policyTypes = [.egress]
      · simp [hty', hopen]
      · simp [hty', runAppends_nil, not_open_nil]
    | egress =>
      by_cases hmem : Direction.egress ∈ policy.spec.policyTypes
      · simp [hmem, runAppends_nil, not_open_nil]
      · simp [hmem, hopen, hty]
  | cons block blocks =>
    obtain ⟨bs, hbs, rfl⟩ := parseSgRules_of_blocks hb h
    have hforms := blocksAppends_forms _ _ _ hbs
    by_cases he : block = RuleBlock.empty
    · have ho := open_createDefaultSgRule net d bs
      simp [he, ho]
    · have hno : ¬ Open (runAppends bs) := not_open_of_forms hforms
      simp only [he, if_false, List.nil_append, hno, false_iff, not_or, not_not, reduceCtorEq,
        false_or, IsEmpty.forall_iff, implies_true, and_true]

/-- Address arithmetic for examples: a colon marks an IPv6 address, and a network
contains the addresses that share the text before its slash. -/
def sampleNet : Net where
  isV6 := fun s => ':' ∈ s.toList
  cidrExclude := fun _ _ => []
  inNetwork := fun a n => .ok (a.toList = n.toList.takeWhile (· ≠ '/'))
  serviceSubnet := "10.96.0.0/12"
  subnetCaching := true

/-- A policy of the shop namespace for ingress. -/
def ingressPolicy (podSelector : LabelSelector) (blocks : List RuleBlock) : NetworkPolicy where
  name := "np"
  ns := "shop"
  spec := ⟨podSelector, some blocks, none, [.ingress]⟩

/-- A block that opens TCP port 80 to everyone. -/
def port80Block : RuleBlock := ⟨none, some [⟨.number 80, none⟩]⟩

theorem parseSgRules_default_empty_block :
    parseSgRules (clusterWith none) sampleNet .ingress
        (ingressPolicy webSelector [RuleBlock.empty]) ⟨webSelector, []⟩
        = .ok (createDefaultSgRule sampleNet .ingress, ⟨webSelector, []⟩) ∧
      DefaultsAsDocumented (ingressPolicy webSelector [RuleBlock.empty]).spec .ingress
        (runAppends (createDefaultSgRule sampleNet .ingress)) :=
  ⟨rfl, (parseSgRules_default_iff (clusterWith none) sampleNet .ingress
    (ingressPolicy webSelector [RuleBlock.empty]) (by decide) ⟨webSelector, []⟩ ⟨webSelector, []⟩
    _ rfl).mpr (.inl rfl)⟩

/-- The two rules of `port80Block`. -/
def port80Appends : List Append :=
  [Ethertype.IPv4, .IPv6].map fun ethertype =>
    ⟨createSecurityGroupRuleBody sampleNet .ingress (some 80) (some .TCP) ethertype none none none,
      false, none, none⟩

/-- The empty block in second position does not open the direction. -/
theorem parseSgRules_misses_later_empty_block :
    parseSgRules (clusterWith none) sampleNet .ingress
        (ingressPolicy webSelector [port80Block, RuleBlock.empty]) ⟨webSelector, []⟩
          = .ok (port80Appends, ⟨webSelector, []⟩) ∧
      ¬ DefaultsAsDocumented (ingressPolicy webSelector [port80Block, RuleBlock.empty]).spec
        .ingress (runAppends port80Appends) := by
  refine ⟨rfl, fun h => ?_⟩
  obtain ⟨r, hr, hun, -⟩ := h.1.mpr (.inr (by decide)) .IPv4
  have hproto : ∀ r ∈ runAppends port80Appends, r.sgRule.protocol ≠ none := by decide
  exact hproto r hr hun.2.2.1

end KuryrKubernetes
