import KuryrKubernetes.Policy.Productions

/-!
# Peers are never widened

`_parse_sg_rules` (network_policy.py:449–569) against the peers of a policy: when every
block of a direction lists peers, each rule of the direction is restricted to an
address that one of these peers stands for. An empty result of a selector means
nobody.

- `RuleBlock.Admitted`: what the API server checks and defaults in a block.
- `PeerAddress`: the addresses the peers of a block stand for.
- `parseSgRules_never_widens`: the rules of a direction carry such an address, and a
  protocol where the block lists ports.

The rules come with their reasons (`Made`), so that there is one case per reason. The
reason `anywhere` is the one that opens a port to everybody; it needs a block that
names no peer (`RuleBlock.bare`).
-/

namespace KuryrKubernetes

open Dicts LabelSelectors Results

/-! ## What the API server admits -/

/-- An admitted entry of `from` or `to` names a selector or an IP block, and the
exceptions of an IP block lie strictly inside it. -/
structure Peer.Specified (inside : String → String → Prop) (rule : Peer) : Prop where
  names : rule.namespaceSelector ≠ none ∨ rule.podSelector ≠ none ∨ rule.ipBlock ≠ none
  exceptions : ∀ b, rule.ipBlock = some b → ∀ ex ∈ b.except, inside ex b.cidr

/-- An admitted rule block. The API server defaults the protocol of a port. -/
structure RuleBlock.Admitted (inside : String → String → Prop) (block : RuleBlock) : Prop where
  peers : ∀ rule ∈ block.peers.getD [], rule.Specified inside
  ports : ∀ ports, block.ports = some ports → ∀ port ∈ ports, port.protocol ≠ none

/-! ## The addresses of peers -/

/-- The CIDRs of an IP block: itself, or what its exceptions leave of it. -/
def IPBlock.cidrs (net : Net) (b : IPBlock) : List String :=
  if b.except ≠ [] then b.except.flatMap (net.cidrExclude b.cidr) else [b.cidr]

/-- An entry for the whole cluster, as the code tests for it: `namespaceSelector` is
`{}`, and `podSelector` is absent or `{}`. -/
def Peer.WholeCluster (rule : Peer) : Prop :=
  rule.namespaceSelector = some LabelSelector.none ∧ truthy rule.podSelector = none

/-- An entry with `namespaceSelector` `{}` and no `podSelector` at all. -/
def Peer.WholeClusterAlone (rule : Peer) : Prop :=
  rule.namespaceSelector = some LabelSelector.none ∧ rule.podSelector = none

/-- The addresses the peers of a block stand for; `whole` are the entries that stand
for the subnet pool and the service subnet. -/
inductive PeerAddress (whole : Peer → Prop) (c : Cluster) (net : Net) (d : Direction)
    (policyNs : String) (prefixes : List String) (block : RuleBlock) : String → Prop
  | ipBlock {rule b cidr} (hrule : rule ∈ block.peers.getD []) (hb : rule.ipBlock = some b)
      (hcidr : cidr ∈ b.cidrs net) : PeerAddress whole c net d policyNs prefixes block cidr
  | pod {peers prefixes' p ip}
    (hok : parseSelectors c net policyNs block prefixes = .ok (peers, prefixes'))
      (hp : .pod p ∈ peers.allowedResources) (hip : p.podIP = some ip) :
      PeerAddress whole c net d policyNs prefixes block ip
  | subnet {peers prefixes' n cidr}
      (hok : parseSelectors c net policyNs block prefixes = .ok (peers, prefixes'))
      (hn : .namespace n ∈ peers.allowedResources) (hcidr : n.subnetCIDR = some cidr) :
      PeerAddress whole c net d policyNs prefixes block cidr
  | cluster {rule cidr} (hrule : rule ∈ block.peers.getD []) (hwhole : whole rule)
      (hcidr : cidr ∈ prefixes ∨ cidr = net.serviceSubnet) :
      PeerAddress whole c net d policyNs prefixes block cidr
  | service {svc ip} (hd : d = .egress) (hsvc : svc ∈ c.services) (hip : svc.clusterIP = some ip) :
      PeerAddress whole c net d policyNs prefixes block ip

/-- The rules of a direction are restricted to the peers of its blocks. -/
def Restricted (whole : Peer → Prop) (c : Cluster) (net : Net) (d : Direction)
    (policy : NetworkPolicy) (prefixes : List String) (rules : List Rule) : Prop :=
  ∀ rule ∈ rules, ∃ block ∈ policy.spec.blocks d,
    (∃ cidr, rule.sgRule.remote_ip_prefix = some cidr ∧
      PeerAddress whole c net d policy.ns prefixes block cidr) ∧
    (block.ports ≠ none → rule.sgRule.protocol ≠ none)

/-! ## Blocks that list peers -/

theorem Peer.kind_eq_ipBlock {rule : Peer} (h : rule.kind = .ipBlock) :
    rule.namespaceSelector = none ∧ rule.podSelector = none := by
  unfold Peer.kind at h
  split at h
  · split at h <;> cases h
  · next hne =>
    split at h
    · split at h <;> cases h
    · next hns =>
      split at h
      · next hpod =>
        refine ⟨?_, hpod⟩
        -- neither `{}` nor anything else
        cases hs : rule.namespaceSelector with
        | none => rfl
        | some s =>
          rw [hs] at hne hns
          refine absurd ?_ hne
          simpa [truthy, Option.filter] using hns
      · split at h <;> cases h

theorem Peer.kind_eq_cluster {rule : Peer} (h : rule.kind = .cluster) : rule.WholeCluster := by
  unfold Peer.kind at h
  split at h
  · next hns =>
    split at h
    · cases h
    · next hpod => exact ⟨hns, hpod⟩
  · split at h
    · split at h <;> cases h
    · split at h
      · cases h
      · split at h <;> cases h

section

variable {inside : String → String → Prop} {net : Net} {block : RuleBlock}

theorem mem_ipBlockResources {cidr : String} :
    .cidr cidr ∈ ipBlockResources net block ↔
      ∃ rule ∈ block.peers.getD [], ∃ b, rule.ipBlock = some b ∧ cidr ∈ b.cidrs net := by
  simp only [ipBlockResources, List.mem_flatMap, List.mem_filterMap]
  constructor
  · rintro ⟨b, ⟨rule, hrule, hb⟩, hcidr⟩
    refine ⟨rule, hrule, b, hb, ?_⟩
    unfold IPBlock.cidrs
    split at hcidr
    · next hex =>
      rw [if_pos hex]
      simpa using hcidr
    · next hex =>
      rw [if_neg hex]
      simpa using hcidr
  · rintro ⟨rule, hrule, b, hb, hcidr⟩
    refine ⟨b, ⟨rule, hrule, hb⟩, ?_⟩
    unfold IPBlock.cidrs at hcidr
    split at hcidr
    · next hex =>
      rw [if_pos hex]
      simpa using hcidr
    · next hex =>
      rw [if_neg hex]
      simpa using hcidr

/-- The exceptions of an admitted IP block leave something of it. -/
theorem IPBlock.cidrs_ne_nil {b : IPBlock}
    (hnet : ∀ cidr ex, inside ex cidr → net.cidrExclude cidr ex ≠ [])
    (hb : ∀ ex ∈ b.except, inside ex b.cidr) : b.cidrs net ≠ [] := by
  unfold IPBlock.cidrs
  split
  · next hne =>
    obtain ⟨ex, hex⟩ := List.exists_mem_of_ne_nil _ hne
    obtain ⟨piece, hpiece⟩ := List.exists_mem_of_ne_nil _ (hnet b.cidr ex (hb ex hex))
    exact List.ne_nil_of_mem (List.mem_flatMap.mpr ⟨ex, hex, hpiece⟩)
  · exact List.cons_ne_nil _ _

/-- **A block that lists admitted peers is never taken for one without peers.** -/
theorem RuleBlock.Admitted.not_bare
    (hnet : ∀ cidr ex, inside ex cidr → net.cidrExclude cidr ex ≠ [])
    (hblock : block.Admitted inside) (hne : block.peers.getD [] ≠ []) : block.bare net = false := by
  obtain ⟨rule, hrule⟩ := List.exists_mem_of_ne_nil _ hne
  have hspec := hblock.peers rule hrule
  by_cases hk : rule.kind = .ipBlock
  · obtain ⟨hns, hpod⟩ := Peer.kind_eq_ipBlock hk
    obtain ⟨b, hb⟩ : ∃ b, rule.ipBlock = some b := by
      rcases hspec.names with h | h | h
      · exact absurd hns h
      · exact absurd hpod h
      · exact Option.ne_none_iff_exists'.mp h
    obtain ⟨cidr, hcidr⟩ :=
      List.exists_mem_of_ne_nil _ (IPBlock.cidrs_ne_nil hnet (hspec.exceptions b hb))
    have hmem : .cidr cidr ∈ ipBlockResources net block :=
      mem_ipBlockResources.mpr ⟨rule, hrule, b, hb, hcidr⟩
    simp [RuleBlock.bare, List.ne_nil_of_mem hmem]
  · have hgiven : selectorsGiven (block.peers.getD []) = true :=
      List.any_eq_true.mpr ⟨rule, hrule, by simpa using hk⟩
    simp [RuleBlock.bare, hgiven]

/-- The prefixes a block finds are those of the pool, and the service subnet. -/
theorem mem_prefixes_of_blockMemos {d : Direction} {x : String} {memo' : Memo} :
    ∀ {blocks : List RuleBlock} {memo : Memo}, (block, memo') ∈ blockMemos net d blocks memo →
      x ∈ memo'.prefixes → x ∈ memo.prefixes ∨ x = net.serviceSubnet
  | first :: blocks, memo, hmem, hx => by
    rw [blockMemos, List.mem_cons] at hmem
    rcases hmem with heq | hmem
    · cases heq
      exact .inl hx
    · rcases mem_prefixes_of_blockMemos hmem hx with hx | hx
      · exact mem_clusterCidrs_prefixes (first.peers.getD []) none memo.prefixes hx
      · exact .inr hx
where
  mem_clusterCidrs_prefixes {x : String} : ∀ (rules : List Peer) (cidrs : Option (List String))
      (prefixes : List String), x ∈ (clusterCidrs net rules (cidrs, prefixes)).2 →
        x ∈ prefixes ∨ x = net.serviceSubnet
    | [], _, _, h => .inl h
    | rule :: rules, cidrs, prefixes, h => by
      rw [clusterCidrs] at h
      split at h
      · rcases mem_clusterCidrs_prefixes rules _ _ h with h | h
        · split at h
          · simpa using h
          · exact .inl h
        · exact .inr h
      · exact mem_clusterCidrs_prefixes rules _ _ h

theorem mem_blocks_of_blockMemos {d : Direction} {memo' : Memo} :
    ∀ {blocks : List RuleBlock} {memo : Memo}, (block, memo') ∈ blockMemos net d blocks memo →
      block ∈ blocks
  | first :: blocks, memo, hmem => by
    rw [blockMemos, List.mem_cons] at hmem
    rcases hmem with heq | hmem
    · cases heq
      exact List.mem_cons_self
    · exact List.mem_cons_of_mem _ (mem_blocks_of_blockMemos hmem)

end

/-! ## One case per reason -/

section

variable {c : Cluster} {net : Net} {d : Direction} {policyNs : String} {block : RuleBlock}
  {memo : Memo} {prefixes : List String}

/-- Selectors find pods and namespaces. -/
theorem cidr_not_mem_peerResources {rule : Peer} {l : List Resource} {b : String}
    (h : peerResources c policyNs rule = .ok l) : .cidr b ∉ l := by
  unfold peerResources at h
  split at h
  · cases h
    exact List.not_mem_nil
  · cases h
    exact List.not_mem_nil
  · obtain ⟨pods, -, h⟩ := bind_eq_ok.mp h
    cases h
    simp
  · obtain ⟨namespaces, -, h⟩ := bind_eq_ok.mp h
    obtain ⟨pods, -, h⟩ := bind_eq_ok.mp h
    cases h
    simp
  · obtain ⟨namespaces, -, h⟩ := bind_eq_ok.mp h
    cases h
    simp
  · obtain ⟨ns, -, h⟩ := bind_eq_ok.mp h
    cases h
    simp
  · obtain ⟨pods, -, h⟩ := bind_eq_ok.mp h
    cases h
    simp

theorem eq_cidr_of_mem_ipBlockResources {r : Resource} (h : r ∈ ipBlockResources net block) :
    ∃ cidr, r = .cidr cidr := by
  simp only [ipBlockResources, List.mem_flatMap] at h
  obtain ⟨b, -, hr⟩ := h
  split at hr
  · obtain ⟨ex, -, hr⟩ := List.mem_flatMap.mp hr
    obtain ⟨cidr, -, rfl⟩ := List.mem_map.mp hr
    exact ⟨cidr, rfl⟩
  · exact ⟨b.cidr, List.mem_singleton.mp hr⟩

/-- **The resources of a block are its peers**: those of its selectors, and its IP
blocks. -/
theorem BlockResources.address {rs : List Resource} {r : Resource} {cidr : String}
    (hrs : BlockResources c net policyNs block rs) (hr : r ∈ rs) (hcidr : r.details.1 = some cidr) :
    PeerAddress Peer.WholeCluster c net d policyNs prefixes block cidr := by
  obtain ⟨found, hfound, rfl⟩ := hrs
  have hok : parseSelectors c net policyNs block prefixes = _ := parseSelectors_eq block prefixes
  rw [hfound] at hok
  rcases List.mem_append.mp hr with hr | hr
  · rcases r with p | n | b
    · exact .pod hok hr hcidr
    · exact .subnet hok hr hcidr
    · obtain ⟨rule, -, l, hl, hmem⟩ := ((mem_collect hfound).2 (.cidr b)).mp hr
      exact absurd hmem (cidr_not_mem_peerResources hl)
  · obtain ⟨b, rfl⟩ := eq_cidr_of_mem_ipBlockResources hr
    cases hcidr
    obtain ⟨rule, hrule, b, hb, hcidr⟩ := mem_ipBlockResources.mp hr
    exact .ipBlock hrule hb hcidr

/-- A named port is opened for the peers of its block. -/
theorem mem_of_namedCalls {npPort : Option String} {rs : List Resource} {s : LabelSelector}
    {calls : List (List (Pod × Nat) × Resource)} {call : List (Pod × Nat) × Resource}
    (h : namedCalls c d npPort policyNs rs s = .ok calls) (hcall : call ∈ calls) : call.2 ∈ rs := by
  unfold namedCalls at h
  cases d with
  | ingress =>
    cases hpods : getPods c s (some policyNs) with
    | error e => rw [hpods] at h; cases h
    | ok selected =>
      rw [hpods] at h
      cases h
      obtain ⟨p, -, hcall⟩ := List.mem_flatMap.mp hcall
      obtain ⟨r, hr, rfl⟩ := List.mem_map.mp hcall
      exact hr
  | egress =>
    cases h
    obtain ⟨r, hr, rfl⟩ := List.mem_map.mp hcall
    exact (List.mem_filter.mp hr).1

theorem Opens.address {r : Resource} {o : Opening} {owner : Option Pod} {cidr : String}
    (ho : Opens c net d policyNs block memo r o owner) (hbare : block.bare net = false)
    (hcidr : r.details.1 = some cidr) :
    PeerAddress Peer.WholeCluster c net d policyNs prefixes block cidr := by
  cases ho with
  | everything _ hrs hr => exact hrs.address hr hcidr
  | number _ _ _ _ hrs hr => exact hrs.address hr hcidr
  | named _ _ _ hrs hcalls hsplit _ _ _ =>
    rw [NamedResources, hbare] at hrs
    refine BlockResources.address hrs (mem_of_namedCalls hcalls ?_) hcidr
    rw [hsplit]
    exact List.mem_append_right _ List.mem_cons_self

/-- The openings of a block with ports carry a protocol. -/
theorem Opens.protocol {r : Resource} {o : Opening} {owner : Option Pod}
    (ho : Opens c net d policyNs block memo r o owner) (hports : block.ports ≠ none) :
    o.protocol ≠ none := by
  cases ho with
  | everything h => exact absurd h hports
  | number => exact Option.some_ne_none _
  | named => exact Option.some_ne_none _

theorem OpensCidr.protocol {inside : String → String → Prop} {o : Opening} {owner : Option Pod}
    (ho : OpensCidr c d policyNs block memo o owner) (hblock : block.Admitted inside)
    (hports : block.ports ≠ none) : o.protocol ≠ none := by
  cases ho with
  | everything h => exact absurd h hports
  | number h hport _ =>
    -- this is the one opening whose protocol the compiler does not default
    exact hblock.ports _ h _ hport
  | named => exact Option.some_ne_none _

/-- **A rule with a reason is restricted to the peers of its block.** -/
theorem Made.restricted {inside : String → String → Prop} {a : Append} {why : Reason}
    (hmade : Made c net d policyNs block memo a why) (hblock : block.Admitted inside)
    (hbare : block.bare net = false)
    (hmemo : ∀ x ∈ memo.prefixes, x ∈ prefixes ∨ x = net.serviceSubnet) :
    (∃ cidr, a.rule.sgRule.remote_ip_prefix = some cidr ∧
      PeerAddress Peer.WholeCluster c net d policyNs prefixes block cidr) ∧
    (block.ports ≠ none → a.rule.sgRule.protocol ≠ none) := by
  cases hmade with
  | peer ho ha =>
    obtain ⟨cidr, hcidr, ha⟩ := ha
    rename_i via
    cases via with
    | none =>
      cases ha
      exact ⟨⟨cidr, rfl, ho.address hbare hcidr⟩, ho.protocol⟩
    | some via =>
      obtain ⟨rfl, hsvc, ip, hip, -, rfl⟩ := ha
      refine ⟨⟨ip, rfl, .service rfl hsvc ?_⟩, ho.protocol⟩
      unfold Service.address at hip
      split at hip
      · cases hip
      · exact (Option.filter_eq_some_iff.mp hip).1
  | cidr ho hc =>
    refine ⟨⟨_, rfl, ?_⟩, fun hports => ho.protocol hblock hports⟩
    rw [blockCidrs, mem_clusterCidrs] at hc
    split at hc
    · next hany =>
      obtain ⟨rule, hrule, hk⟩ := List.any_eq_true.mp hany
      refine .cluster hrule (Peer.kind_eq_cluster (by simpa using hk)) ?_
      rcases hc with hc | hc
      · exact hmemo _ hc
      · exact .inr hc
    · cases hc
  | anywhere h => rw [hbare] at h; cases h

end

/-! ## A direction -/

/-- A direction of `policyTypes` whose blocks all list peers has no unrestricted
default rule. -/
theorem defaultAppends_eq_nil {net : Net} {spec : PolicySpec} {d : Direction}
    (hd : d ∈ spec.policyTypes) (hne : ∀ block ∈ spec.blocks d, block.peers.getD [] ≠ []) :
    defaultAppends net spec d = [] := by
  unfold defaultAppends
  cases hb : spec.blocks d with
  | nil =>
    refine if_neg ?_
    rintro (⟨rfl, h⟩ | ⟨rfl, -, h⟩)
    · rw [h] at hd
      cases List.mem_singleton.mp hd
    · exact h hd
  | cons block blocks =>
    refine if_neg ?_
    rintro rfl
    exact hne RuleBlock.empty (hb ▸ List.mem_cons_self) rfl

/-- **Peers are never widened.** -/
theorem parseSgRules_never_widens (inside : String → String → Prop) (c : Cluster) (net : Net)
    (hnet : ∀ cidr ex, inside ex cidr → net.cidrExclude cidr ex ≠ [])
    (d : Direction) (policy : NetworkPolicy) (memo memo' : Memo) (out : List Append)
    (hadmitted : ∀ block ∈ policy.spec.blocks d, block.Admitted inside)
    (hd : d ∈ policy.spec.policyTypes)
    (hne : ∀ block ∈ policy.spec.blocks d, block.peers.getD [] ≠ [])
    (hok : parseSgRules c net d policy memo = .ok (out, memo')) :
    Restricted Peer.WholeCluster c net d policy memo.prefixes (runAppends out) := by
  intro rule hrule
  obtain ⟨a, ha, rfl⟩ := mem_runAppends.mp hrule
  rcases ((parseSgRules_ok hok).2 a).mp ha with hdef | ⟨block, m, hmem, why, hmade⟩
  · rw [defaultAppends_eq_nil hd hne] at hdef
    cases hdef
  · have hblock := mem_blocks_of_blockMemos hmem
    have hbare := (hadmitted block hblock).not_bare hnet (hne block hblock)
    exact ⟨block, hblock, hmade.restricted (hadmitted block hblock) hbare
      fun x hx => mem_prefixes_of_blockMemos hmem hx⟩

/-- The lower half of `10.0.0.0/8`. -/
def lowerHalf (ex cidr : String) : Prop := cidr = "10.0.0.0/8" ∧ ex = "10.0.0.0/9"

/-- Address arithmetic with that exception. -/
def halvingNet : Net :=
  { sampleNet with
    cidrExclude := fun cidr ex =>
      if cidr = "10.0.0.0/8" ∧ ex = "10.0.0.0/9" then ["10.128.0.0/9"] else [cidr] }

theorem halvingNet_cidrExclude (cidr ex : String) (h : lowerHalf ex cidr) :
    halvingNet.cidrExclude cidr ex ≠ [] := by
  obtain ⟨rfl, rfl⟩ := h
  decide

/-- TCP port 80 for the upper half of `10.0.0.0/8`, and for pods nobody has. -/
def upperHalfBlock : RuleBlock :=
  ⟨some [⟨none, none, some ⟨"10.0.0.0/8", ["10.0.0.0/9"]⟩⟩, podPeer webSelector],
    some [⟨.number 80, some .TCP⟩]⟩

theorem upperHalfBlock_admitted : upperHalfBlock.Admitted lowerHalf where
  peers := by
    intro rule hrule
    rcases List.mem_cons.mp hrule with rfl | hrule
    · refine ⟨.inr (.inr (by decide)), fun b hb ex hex => ?_⟩
      cases hb
      exact ⟨rfl, List.mem_singleton.mp hex⟩
    · rw [List.mem_singleton.mp hrule]
      exact ⟨.inr (.inl (by decide)), fun b hb => nomatch hb⟩
  ports := by
    intro ports hports port hport
    cases hports
    rw [List.mem_singleton.mp hport]
    decide

/-- The one rule of `upperHalfBlock`. -/
def upperHalfAppends : List Append :=
  [⟨createSecurityGroupRuleBody halvingNet .ingress (some 80) (some .TCP) .IPv4
    (some "10.128.0.0/9") none none, false, some (.cidr "10.128.0.0/9"), none⟩]

theorem parseSgRules_never_widens_upper_half :
    Restricted Peer.WholeCluster (clusterWith none) halvingNet .ingress
      (ingressPolicy webSelector [upperHalfBlock]) [] (runAppends upperHalfAppends) :=
  parseSgRules_never_widens lowerHalf (clusterWith none) halvingNet halvingNet_cidrExclude .ingress
    (ingressPolicy webSelector [upperHalfBlock]) ⟨webSelector, []⟩ ⟨webSelector, []⟩
    upperHalfAppends
    (fun block hblock => by
      rw [List.mem_singleton.mp hblock]
      exact upperHalfBlock_admitted)
    (by decide) (by decide) (by decide +kernel)

/-- All pods of all namespaces, spelled with two empty selectors. -/
def allPodsBlock : RuleBlock :=
  ⟨some [⟨some LabelSelector.none, some LabelSelector.none, none⟩], none⟩

theorem allPodsBlock_admitted : allPodsBlock.Admitted lowerHalf where
  peers := by
    intro rule hrule
    rw [List.mem_singleton.mp hrule]
    exact ⟨.inl (by decide), fun b hb => nomatch hb⟩
  ports := fun ports h => nomatch h

/-- The rules of `allPodsBlock`. -/
def allPodsAppends : List Append :=
  ["10.128.0.0/14", "10.96.0.0/12"].map fun cidr =>
    ⟨createSecurityGroupRuleBody halvingNet .ingress none none .IPv4 (some cidr) none none,
      false, none, none⟩

theorem parseSelectors_allPodsBlock :
    parseSelectors (clusterWith none) halvingNet "shop" allPodsBlock ["10.128.0.0/14"]
      = .ok (⟨some ["10.128.0.0/14", "10.96.0.0/12"], true, []⟩,
        ["10.128.0.0/14", "10.96.0.0/12"]) := by
  decide +kernel

/-- An empty pod selector counts as none: the subnet pool is opened for an entry that
has one. -/
theorem parseSgRules_opens_pool_for_empty_podSelector :
    (∀ block ∈ (ingressPolicy webSelector [allPodsBlock]).spec.blocks .ingress,
        block.Admitted lowerHalf ∧ block.peers.getD [] ≠ []) ∧
      .ingress ∈ (ingressPolicy webSelector [allPodsBlock]).spec.policyTypes ∧
      (∃ memo, parseSgRules (clusterWith none) halvingNet .ingress
        (ingressPolicy webSelector [allPodsBlock]) ⟨webSelector, ["10.128.0.0/14"]⟩
          = .ok (allPodsAppends, memo)) ∧
      ¬ Restricted Peer.WholeClusterAlone (clusterWith none) halvingNet .ingress
        (ingressPolicy webSelector [allPodsBlock]) ["10.128.0.0/14"]
          (runAppends allPodsAppends) := by
  refine ⟨?_, by decide, ⟨⟨webSelector, ["10.128.0.0/14", "10.96.0.0/12"]⟩, by decide +kernel⟩,
    fun h => ?_⟩
  · intro block hblock
    rw [List.mem_singleton.mp hblock]
    exact ⟨allPodsBlock_admitted, by decide⟩
  · obtain ⟨block, hblock, ⟨cidr, hcidr, haddress⟩, -⟩ := h
      (createSecurityGroupRuleBody halvingNet .ingress none none .IPv4
        (some "10.128.0.0/14") none none)
      (by decide +kernel)
    obtain rfl := List.mem_singleton.mp hblock
    cases hcidr
    cases haddress with
    | ipBlock hrule hb =>
      obtain rfl := List.mem_singleton.mp hrule
      cases hb
    | pod hok hp =>
      cases parseSelectors_allPodsBlock.symm.trans hok
      cases hp
    | subnet hok hn =>
      cases parseSelectors_allPodsBlock.symm.trans hok
      cases hn
    | cluster hrule hwhole =>
      obtain rfl := List.mem_singleton.mp hrule
      cases hwhole.2
    | service hd => cases hd

end KuryrKubernetes
