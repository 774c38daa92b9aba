import KuryrKubernetes.Policy.Parts
import KuryrKubernetes.Policy.Widening

/-!
# Numeric and omitted ports

The entries of `ports` in an ingress rule block (network_policy.py:526–540). An entry with
a number opens that port to every peer with an address, or to everybody when the block has
no peers. An entry without `port` should open all ports of the protocol in the same way; it
takes the way of a named port instead, whose name is `None`, and so opens the container
ports that have no name.

- `EntryAppends`: what one entry appends in a run over a block, after any other entries.
- `productRules`: the product of the peers of a block and one entry.
- `ingress_entry_product_iff`: when an entry comes out as the product.
-/

namespace KuryrKubernetes

open Dicts LabelSelectors Results

/-! ## Entries of a block -/

section

variable (c : Cluster) (net : Net) (d : Direction) (policyNs : String) (block : RuleBlock)
  (memo : Memo)

/-- The entry `port` of a block, reached behind the entries `before`, makes the appends
`out`. -/
def EntryAppends (port : PolicyPort) (out : List Append) : Prop :=
  ∃ peers prefixes before after earlier m m',
    parseSelectors c net policyNs block memo.prefixes = .ok (peers, prefixes) ∧
    block.ports = some (before ++ port :: after) ∧
    portsAppends c net d policyNs
      { peers with allowedResources := peers.allowedResources ++ ipBlockResources net block }
      before { memo with prefixes := prefixes } = .ok (earlier, m) ∧
    portAppends c net d policyNs
      { peers with allowedResources := peers.allowedResources ++ ipBlockResources net block }
      port m = .ok (out, m')

end

section

variable {c : Cluster} {net : Net} {d : Direction} {policyNs : String} {block : RuleBlock}
  {memo : Memo}

theorem portsAppends_append {peers : Peers} :
    ∀ {ports rest : List PolicyPort} {m m₁ m₂ : Memo} {out more : List Append},
      portsAppends c net d policyNs peers ports m = .ok (out, m₁) →
      portsAppends c net d policyNs peers rest m₁ = .ok (more, m₂) →
      portsAppends c net d policyNs peers (ports ++ rest) m = .ok (out ++ more, m₂)
  | [], rest, m, m₁, m₂, out, more, h, hrest => by
    cases h
    exact hrest
  | port :: ports, rest, m, m₁, m₂, out, more, h, hrest => by
    obtain ⟨⟨first, m'⟩, hfirst, h⟩ := bind_eq_ok.mp h
    obtain ⟨⟨others, m''⟩, hothers, h⟩ := bind_eq_ok.mp h
    cases h
    refine bind_eq_ok.mpr ⟨_, hfirst, bind_eq_ok.mpr ⟨_, portsAppends_append hothers hrest, ?_⟩⟩
    simp [List.append_assoc, pure, Except.pure]

/-- The loop over the entries, one after the other. -/
theorem portsAppends_entries {peers : Peers} {prefixes : List String}
    (hpeers : parseSelectors c net policyNs block memo.prefixes = .ok (peers, prefixes)) :
    ∀ {ports : List PolicyPort}
      (before : List PolicyPort) {earlier out : List Append} {m m' : Memo},
      block.ports = some (before ++ ports) →
      portsAppends c net d policyNs
        { peers with allowedResources := peers.allowedResources ++ ipBlockResources net block }
        before { memo with prefixes := prefixes } = .ok (earlier, m) →
      portsAppends c net d policyNs
        { peers with allowedResources := peers.allowedResources ++ ipBlockResources net block }
        ports m = .ok (out, m') →
      ∃ outs, List.Forall₂ (EntryAppends c net d policyNs block memo) ports outs ∧
        out = outs.flatten
  | [], before, earlier, out, m, m', _, _, h => by
    cases h
    exact ⟨[], .nil, rfl⟩
  | port :: ports, before, earlier, out, m, m', hports, hbefore, h => by
    obtain ⟨⟨first, m₁⟩, hfirst, h⟩ := bind_eq_ok.mp h
    obtain ⟨⟨others, m₂⟩, hothers, h⟩ := bind_eq_ok.mp h
    cases h
    have hentry : EntryAppends c net d policyNs block memo port first :=
      ⟨peers, prefixes, before, ports, earlier, m, m₁, hpeers, hports, hbefore, hfirst⟩
    have hone : portsAppends c net d policyNs
        { peers with allowedResources := peers.allowedResources ++ ipBlockResources net block }
        [port] m = .ok (first ++ [], m₁) := bind_eq_ok.mpr ⟨_, hfirst, rfl⟩
    obtain ⟨outs, houts, rfl⟩ := portsAppends_entries hpeers (before ++ [port])
      (by simpa using hports) (portsAppends_append hbefore hone) hothers
    exact ⟨first :: outs, .cons hentry houts, by simp⟩

/-- **The appends of a block with ports are those of its entries.** -/
theorem blockAppends_entries {ports : List PolicyPort} {out : List Append} {memo' : Memo}
    (hports : block.ports = some ports)
    (h : blockAppends c net d policyNs block memo = .ok (out, memo')) :
    ∃ outs, List.Forall₂ (EntryAppends c net d policyNs block memo) ports outs ∧
      out = outs.flatten := by
  obtain ⟨⟨peers, prefixes⟩, hpeers, h⟩ := bind_eq_ok.mp h
  simp only [hports] at h
  exact portsAppends_entries hpeers [] hports rfl h

end

/-! ## The product -/

/-- The number of an entry, if it has one. -/
def PolicyPort.number? (port : PolicyPort) : Option Nat :=
  match port.port with
  | .number n => some n
  | .text _ => none

/-- The ingress rule an entry asks for, towards one address or towards everybody. -/
def PolicyPort.ingressRule (port : PolicyPort) (ethertype : Ethertype) (remote : Option String) :
    SgRule where
  ethertype := ethertype
  description := npDescription
  direction := .ingress
  port_range_min := port.number?
  port_range_max := port.number?
  protocol := some (port.protocol.getD .TCP)
  remote_ip_prefix := remote

/-- One rule for each peer with an address, or one for each family when the block has no
peers. -/
def productRules (net : Net) (block : RuleBlock) (rs : List Resource) (port : PolicyPort) :
    List SgRule :=
  if block.peers.getD [] = [] then
    [Ethertype.IPv4, .IPv6].map fun ethertype => port.ingressRule ethertype none
  else rs.filterMap fun r => r.details.1.map fun cidr =>
    port.ingressRule (if net.isV6 cidr then .IPv6 else .IPv4) (some cidr)

/-- The appends add the rules `expected` to the list, in some order. -/
def EmitsExactly (before : List Rule) (out : List Append) (expected : List SgRule) : Prop :=
  ∃ new, out.foldl Append.run before = before ++ new ∧ (new.map Rule.sgRule).Perm expected

theorem exists_foldl_run (before : List Rule) (out : List Append) :
    ∃ new, out.foldl Append.run before = before ++ new ∧ ∀ r ∈ new, ∃ a ∈ out, a.rule = r := by
  induction out generalizing before with
  | nil => exact ⟨[], by simp⟩
  | cons a out ih =>
    rw [List.foldl_cons]
    by_cases hskip : a.ifNew = true ∧ a.rule ∈ before
    · have hrun : Append.run before a = before := if_pos hskip
      obtain ⟨new, hnew, hmem⟩ := ih before
      refine ⟨new, by rw [hrun, hnew], fun r hr => ?_⟩
      obtain ⟨b, hb, rfl⟩ := hmem r hr
      exact ⟨b, List.mem_cons_of_mem a hb, rfl⟩
    · have hrun : Append.run before a = before ++ [a.rule] := if_neg hskip
      obtain ⟨new, hnew, hmem⟩ := ih (before ++ [a.rule])
      refine ⟨a.rule :: new, by rw [hrun, hnew, List.append_assoc, List.singleton_append],
        fun r hr => ?_⟩
      rcases List.mem_cons.mp hr with rfl | hr
      · exact ⟨a, List.mem_cons_self, rfl⟩
      · obtain ⟨b, hb, rfl⟩ := hmem r hr
        exact ⟨b, List.mem_cons_of_mem a hb, rfl⟩

/-- Appends without a test are all made. -/
theorem foldl_run_always (before : List Rule) {out : List Append}
    (h : ∀ a ∈ out, a.ifNew = false) :
    out.foldl Append.run before = before ++ out.map Append.rule := by
  induction out generalizing before with
  | nil => simp
  | cons a out ih =>
    have hrun : Append.run before a = before ++ [a.rule] := by
      simp [Append.run, h a List.mem_cons_self]
    rw [List.foldl_cons, hrun, ih _ fun b hb => h b (List.mem_cons_of_mem a hb)]
    simp

theorem emitsExactly_of_always (before : List Rule) {out : List Append} {expected : List SgRule}
    (h : ∀ a ∈ out, a.ifNew = false) :
    EmitsExactly before out expected ↔ (out.map fun a => a.rule.sgRule).Perm expected := by
  unfold EmitsExactly
  rw [foldl_run_always before h]
  constructor
  · rintro ⟨new, hnew, hperm⟩
    rw [← List.append_cancel_left hnew, List.map_map] at hperm
    exact hperm
  · intro hperm
    exact ⟨_, rfl, by rwa [List.map_map]⟩

/-- Appends that are nothing like the rules asked for do the job only where nothing is
asked for and nothing is done. -/
theorem emitsExactly_of_unlike (before : List Rule) {out : List Append} {expected : List SgRule}
    {P : SgRule → Prop} (hout : ∀ a ∈ out, P a.rule.sgRule) (hexpected : ∀ r ∈ expected, ¬ P r)
    (hsilent : expected = [] → out = []) :
    EmitsExactly before out expected ↔ expected = [] := by
  constructor
  · rintro ⟨new, hnew, hperm⟩
    obtain ⟨new', hnew', hmem⟩ := exists_foldl_run before out
    obtain rfl := List.append_cancel_left (hnew.symm.trans hnew')
    refine List.eq_nil_iff_forall_not_mem.mpr fun r hr => ?_
    obtain ⟨rule, hrule, rfl⟩ := List.mem_map.mp (hperm.mem_iff.mpr hr)
    obtain ⟨a, ha, rfl⟩ := hmem rule hrule
    exact hexpected _ hr (hout a ha)
  · intro hnil
    exact ⟨[], by simp [hsilent hnil], by simp [hnil]⟩

/-! ## Entries against the product -/

section

variable {c : Cluster} {net : Net} {policyNs : String} {block : RuleBlock} {memo : Memo}
  {port : PolicyPort} {rs : List Resource}

/-- The appends of a numeric port towards resources. -/
theorem resourceAppends_ingress (n : Option Nat) (protocol : Option Protocol) :
    resourceAppends c net .ingress n protocol policyNs rs =
      .ok (rs.filterMap fun r => r.details.1.map fun cidr =>
        ⟨createSecurityGroupRuleBody net .ingress n protocol .IPv4 (some cidr) r.details.2 none,
          false, some r, none⟩) := by
  unfold resourceAppends
  induction rs with
  | nil => rfl
  | cons r rs ih =>
    rw [collect, ih]
    rcases hr : r.details with ⟨address, ns⟩
    cases address with
    | none => simp [hr, pure, Except.pure, bind, Except.bind]
    | some cidr => simp [hr, serviceAppends, pure, Except.pure, bind, Except.bind]

/-- Every container port of the cluster is a port number. -/
def PortsPositive (c : Cluster) : Prop :=
  ∀ p ∈ c.pods, ∀ ports ∈ p.containers, ∀ cp ∈ ports, cp.containerPort ≠ 0

/-- A rule on a named port opens one port, towards a resource with an address. -/
theorem textPort_ingress_rule {npPort : Option String} {m m' : Memo} {out : List Append}
    (hpos : PortsPositive c)
    (h : createSgRuleBodyOnTextPort c net .ingress port npPort rs policyNs [] m = .ok (out, m'))
    {a : Append} (ha : a ∈ out) :
    a.rule.sgRule.port_range_min ≠ none ∧ ∃ r ∈ rs, r.details.1 ≠ none := by
  obtain ⟨-, calls, hcalls, hmem⟩ := createSgRuleBodyOnTextPort_ok h
  rcases (hmem a).mp ha with ⟨-, before, call, after, hsplit, e, he, via, cidr, hcidr, hvia⟩ |
    ⟨e, he, cidr, hc, -⟩
  · obtain ⟨owner, howner, -⟩ := gather_owner he
    obtain ⟨hr, hport, selected, hselected, hp⟩ :=
      (offered_ingress_iff hcalls).mp ⟨before, call, after, hsplit, rfl, howner⟩
    refine ⟨?_, call.2, hr, by rw [hcidr]; simp⟩
    -- the port is that of a container of a selected pod
    obtain ⟨-, -, cp, hcp, -, hn⟩ := mem_getContainerPorts.mp hport
    obtain ⟨ports, hports, hcp⟩ := List.mem_flatten.mp hcp
    have hpod : owner ∈ c.pods := List.mem_of_mem_filter (mem_podsIn_of_getPods hselected hp)
    have hne : e.1 ≠ 0 := by
      rw [← hn]
      exact hpos owner hpod ports hports cp hcp
    cases via with
    | none =>
      rw [hvia]
      simp [ownAppend, createSecurityGroupRuleBody, Option.filter, hne]
    | some v => exact absurd hvia.1 (by simp)
  · cases hc

theorem blockCidrs_eq_nil (h : ∀ rule ∈ block.peers.getD [], ¬ rule.WholeCluster) :
    blockCidrs net block memo = [] := by
  have hkind : (block.peers.getD []).any (·.kind = .cluster) = false := by
    simp only [List.any_eq_false, decide_eq_true_eq]
    exact fun rule hrule hk => h rule hrule (Peer.kind_eq_cluster hk)
  refine List.eq_nil_iff_forall_not_mem.mpr fun x hx => ?_
  rw [blockCidrs, mem_clusterCidrs, hkind] at hx
  simp at hx

/-- A block whose peers the API server admits has peers or is bare. -/
theorem bare_iff {inside : String → String → Prop}
    (hnet : ∀ cidr ex, inside ex cidr → net.cidrExclude cidr ex ≠ [])
    (hspec : ∀ rule ∈ block.peers.getD [], rule.Specified inside) :
    block.bare net = true ↔ block.peers.getD [] = [] := by
  constructor
  · intro hbare
    by_contra hne
    have hadmitted : RuleBlock.Admitted inside { block with ports := none } :=
      ⟨hspec, fun ports h => by cases h⟩
    have hnot : RuleBlock.bare net { block with ports := none } = false :=
      hadmitted.not_bare hnet hne
    exact absurd (hbare.symm.trans hnot) (by decide)
  · intro hnil
    simp [RuleBlock.bare, selectorsGiven, ipBlockResources, hnil]

/-- The entry, with the peers of the block resolved. -/
theorem EntryAppends.exists_portAppends {d : Direction} {out : List Append}
    (hrs : BlockResources c net policyNs block rs)
    (h : EntryAppends c net d policyNs block memo port out) :
    ∃ found m m', collect (peerResources c policyNs) (block.peers.getD []) = .ok found ∧
      rs = found ++ ipBlockResources net block ∧
      portAppends c net d policyNs (blockPeers net block memo found) port m = .ok (out, m') := by
  obtain ⟨found, hfound, rfl⟩ := hrs
  obtain ⟨peers, prefixes, before, after, earlier, m, m', hpeers, -, -, hport⟩ := h
  rw [parseSelectors_eq, hfound] at hpeers
  cases hpeers
  exact ⟨found, m, m', hfound, rfl, hport⟩

/-- An entry of a block without peers. -/
theorem EntryAppends.of_bare {d : Direction} {out : List Append}
    (hrs : BlockResources c net policyNs block rs) (hbare : block.bare net = true)
    (h : EntryAppends c net d policyNs block memo port out) :
    ∃ m m', createAllPodsSgRules c net d port policyNs [] m = .ok (out, m') := by
  obtain ⟨found, m, m', hfound, -, h⟩ := h.exists_portAppends hrs
  unfold portAppends at h
  rw [if_pos ((blockPeers_bare hfound).mpr hbare)] at h
  exact ⟨m, m', h⟩

/-- An entry of a block with peers, none of which is the whole cluster. -/
theorem EntryAppends.of_peers {d : Direction} {out : List Append}
    (hrs : BlockResources c net policyNs block rs) (hbare : block.bare net = false)
    (hwhole : ∀ rule ∈ block.peers.getD [], ¬ rule.WholeCluster)
    (h : EntryAppends c net d policyNs block memo port out) :
    ∃ m m', resourcePortAppends c net d policyNs rs port m = .ok (out, m') := by
  obtain ⟨found, m, m', hfound, rfl, h⟩ := h.exists_portAppends hrs
  unfold portAppends at h
  have hcidrs : (blockPeers net block memo found).allowedCidrs.getD [] = [] := by
    show blockCidrs net block memo = []
    exact blockCidrs_eq_nil hwhole
  rw [if_neg fun hp => by rw [(blockPeers_bare hfound).mp hp] at hbare; cases hbare] at h
  obtain ⟨⟨appends, m₁⟩, happends, h⟩ := bind_eq_ok.mp h
  simp only [if_pos hcidrs] at h
  cases h
  exact ⟨m, m', happends⟩

theorem productRules_eq_nil :
    productRules net block rs port = [] ↔
      block.peers.getD [] ≠ [] ∧ ∀ r ∈ rs, r.details.1 = none := by
  unfold productRules
  by_cases hpeers : block.peers.getD [] = []
  · simp [hpeers]
  · simp [hpeers]

theorem port_range_of_mem_productRules {r : SgRule} (h : r ∈ productRules net block rs port) :
    r.port_range_min = port.number? ∧ r.port_range_max = port.number? := by
  unfold productRules at h
  split at h
  · obtain ⟨ethertype, -, rfl⟩ := List.mem_map.mp h
    exact ⟨rfl, rfl⟩
  · obtain ⟨resource, -, hr⟩ := List.mem_filterMap.mp h
    obtain ⟨cidr, -, rfl⟩ := Option.map_eq_some_iff.mp hr
    exact ⟨rfl, rfl⟩

/-- The appends of an entry with a number. -/
theorem EntryAppends.of_number {inside : String → String → Prop} {n : Nat} {out : List Append}
    (hnet : ∀ cidr ex, inside ex cidr → net.cidrExclude cidr ex ≠ [])
    (hspec : ∀ rule ∈ block.peers.getD [], rule.Specified inside)
    (hwhole : ∀ rule ∈ block.peers.getD [], ¬ rule.WholeCluster)
    (hrs : BlockResources c net policyNs block rs) (hn : port.port = .number n)
    (h : EntryAppends c net .ingress policyNs block memo port out) :
    (∀ a ∈ out, a.ifNew = false) ∧ out.map (fun a => a.rule.sgRule) =
      (productRules net block rs port).map fun r =>
        { r with port_range_min := (some n).filter (· ≠ 0),
                 port_range_max := (some n).filter (· ≠ 0) } := by
  unfold productRules
  by_cases hpeers : block.peers.getD [] = []
  · obtain ⟨m, m', h⟩ := h.of_bare hrs ((bare_iff hnet hspec).mpr hpeers)
    simp only [createAllPodsSgRules, hn] at h
    cases h
    simp [hpeers, createSecurityGroupRuleBody, PolicyPort.ingressRule, PolicyPort.protocolOrTCP]
  · have hbare : block.bare net = false := by
      simpa using fun hb => hpeers ((bare_iff hnet hspec).mp hb)
    obtain ⟨m, m', h⟩ := h.of_peers hrs hbare hwhole
    simp only [resourcePortAppends, hn, createSgRuleOnNumberPort, resourceAppends_ingress] at h
    cases h
    rw [if_neg hpeers, List.map_filterMap, List.map_filterMap]
    refine ⟨fun a ha => ?_, List.filterMap_congr fun r _ => ?_⟩
    · obtain ⟨r, -, hr⟩ := List.mem_filterMap.mp ha
      obtain ⟨cidr, -, rfl⟩ := Option.map_eq_some_iff.mp hr
      rfl
    · cases r.details.1 with
      | none => rfl
      | some cidr => rfl

/-- The appends of an entry without a port. -/
theorem EntryAppends.of_omitted {inside : String → String → Prop} {npPort : Option String}
    {out : List Append} (hpos : PortsPositive c)
    (hnet : ∀ cidr ex, inside ex cidr → net.cidrExclude cidr ex ≠ [])
    (hspec : ∀ rule ∈ block.peers.getD [], rule.Specified inside)
    (hwhole : ∀ rule ∈ block.peers.getD [], ¬ rule.WholeCluster)
    (hrs : BlockResources c net policyNs block rs) (hn : port.port = .text npPort)
    (h : EntryAppends c net .ingress policyNs block memo port out) :
    ∀ a ∈ out, a.rule.sgRule.port_range_min ≠ none ∧
      (block.peers.getD [] = [] ∨ ∃ r ∈ rs, r.details.1 ≠ none) := by
  intro a ha
  by_cases hpeers : block.peers.getD [] = []
  · obtain ⟨m, m', h⟩ := h.of_bare hrs ((bare_iff hnet hspec).mpr hpeers)
    simp only [createAllPodsSgRules, hn] at h
    exact ⟨(textPort_ingress_rule hpos h ha).1, .inl hpeers⟩
  · have hbare : block.bare net = false := by
      simpa using fun hb => hpeers ((bare_iff hnet hspec).mp hb)
    obtain ⟨m, m', h⟩ := h.of_peers hrs hbare hwhole
    simp only [resourcePortAppends, hn] at h
    obtain ⟨hrange, hr⟩ := textPort_ingress_rule hpos h ha
    exact ⟨hrange, .inr hr⟩

/-- An entry with a number other than 0 opens the product of the peers and the port; one
without a number, or with port 0, does so only where there is nothing to open. -/
theorem ingress_entry_product_iff (c : Cluster) (net : Net) (inside : String → String → Prop)
    (policyNs : String) (block : RuleBlock) (memo : Memo) (port : PolicyPort)
    (rs : List Resource) (before : List Rule) (out : List Append)
    (hpos : PortsPositive c)
    (hnet : ∀ cidr ex, inside ex cidr → net.cidrExclude cidr ex ≠ [])
    (hspec : ∀ rule ∈ block.peers.getD [], rule.Specified inside)
    (hwhole : ∀ rule ∈ block.peers.getD [], ¬ rule.WholeCluster)
    (hrs : BlockResources c net policyNs block rs)
    (h : EntryAppends c net .ingress policyNs block memo port out) :
    EmitsExactly before out (productRules net block rs port) ↔
      (∃ n, port.port = .number n ∧ n ≠ 0) ∨
        (block.peers.getD [] ≠ [] ∧ ∀ r ∈ rs, r.details.1 = none) := by
  have hnil : productRules net block rs port = [] ↔ _ := productRules_eq_nil
  rw [← hnil]
  cases hn : port.port with
  | number n =>
    have hnumber : port.number? = some n := by rw [PolicyPort.number?, hn]
    obtain ⟨halways, hout⟩ := h.of_number hnet hspec hwhole hrs hn
    by_cases hzero : n = 0
    · -- port 0 reads as no port at all
      have hrange : ∀ a ∈ out, a.rule.sgRule.port_range_min = none := by
        intro a ha
        have hmem : a.rule.sgRule ∈ out.map fun a => a.rule.sgRule := List.mem_map_of_mem ha
        rw [hout] at hmem
        obtain ⟨r, -, hr⟩ := List.mem_map.mp hmem
        rw [← hr]
        simp [hzero]
      rw [emitsExactly_of_unlike (P := fun r => r.port_range_min = none) before hrange]
      · simp [hzero]
      · intro r hr
        rw [(port_range_of_mem_productRules hr).1, hnumber]
        simp
      · intro hnone
        rw [hnone] at hout
        exact List.map_eq_nil_iff.mp hout
    · have hsame : out.map (fun a => a.rule.sgRule) = productRules net block rs port := by
        rw [hout]
        refine (List.map_congr_left fun r hr => ?_).trans (List.map_id _)
        obtain ⟨hmin, hmax⟩ := port_range_of_mem_productRules hr
        rw [hnumber] at hmin hmax
        have hfilter : (some n).filter (· ≠ 0) = some n := by simp [Option.filter, hzero]
        rw [hfilter]
        cases r
        simp_all
      rw [emitsExactly_of_always before halways, hsame]
      simp [hzero]
  | text npPort =>
    have hnumber : port.number? = none := by rw [PolicyPort.number?, hn]
    have hout := h.of_omitted hpos hnet hspec hwhole hrs hn
    rw [emitsExactly_of_unlike (P := fun r => r.port_range_min ≠ none) before
      fun a ha => (hout a ha).1]
    · simp
    · intro r hr
      rw [(port_range_of_mem_productRules hr).1, hnumber]
      simp
    · intro hnone
      obtain ⟨hpeers, haddress⟩ := productRules_eq_nil.mp hnone
      refine List.eq_nil_iff_forall_not_mem.mpr fun a ha => ?_
      rcases (hout a ha).2 with hno | ⟨r, hr, hsome⟩
      · exact hpeers hno
      · exact hsome (haddress r hr)

end

/-- TCP for `10.0.0.0/8`, on one port or on all of them. -/
def tenBlock (port : PortRef) : RuleBlock :=
  ⟨some [⟨none, none, some ⟨"10.0.0.0/8", []⟩⟩], some [⟨port, none⟩]⟩

theorem tenBlock_specified (port : PortRef) :
    ∀ rule ∈ (tenBlock port).peers.getD [], rule.Specified lowerHalf := by
  intro rule hrule
  rw [List.mem_singleton.mp hrule]
  refine ⟨.inr (.inr (by decide)), fun b hb ex hex => ?_⟩
  cases hb
  cases hex

theorem tenBlock_not_whole (port : PortRef) :
    ∀ rule ∈ (tenBlock port).peers.getD [], ¬ rule.WholeCluster := by
  intro rule hrule hwhole
  rw [List.mem_singleton.mp hrule] at hwhole
  exact absurd hwhole.1 (by decide)

theorem tenBlock_resources (port : PortRef) :
    BlockResources (clusterWith (some webLabels)) halvingNet "shop" (tenBlock port)
      [.cidr "10.0.0.0/8"] :=
  ⟨[], rfl, rfl⟩

theorem clusterWith_portsPositive (labels : Option Labels) :
    PortsPositive (clusterWith labels) := by
  intro p hp
  rw [List.mem_singleton.mp hp]
  show ∀ ports ∈ [[(⟨some "http", 8080⟩ : ContainerPort)]], ∀ cp ∈ ports, cp.containerPort ≠ 0
  decide

/-- The rule for port 80. -/
def tenAppends : List Append :=
  [⟨createSecurityGroupRuleBody halvingNet .ingress (some 80) (some .TCP) .IPv4
    (some "10.0.0.0/8") none none, false, some (.cidr "10.0.0.0/8"), none⟩]

theorem ingress_entry_product_ten :
    EmitsExactly [] tenAppends
      (productRules halvingNet (tenBlock (.number 80)) [.cidr "10.0.0.0/8"]
        ⟨.number 80, none⟩) := by
  refine (ingress_entry_product_iff (clusterWith (some webLabels)) halvingNet lowerHalf "shop"
    (tenBlock (.number 80)) ⟨webSelector, []⟩ ⟨.number 80, none⟩ [.cidr "10.0.0.0/8"] [] tenAppends
    (clusterWith_portsPositive _) halvingNet_cidrExclude (tenBlock_specified _)
    (tenBlock_not_whole _) (tenBlock_resources _) ?_).mpr (.inl ⟨80, rfl, by decide⟩)
  exact ⟨⟨none, false, []⟩, [], [], [], [], ⟨webSelector, []⟩, ⟨webSelector, []⟩, rfl, rfl, rfl,
    rfl⟩

/-- Without a port nothing is opened to `10.0.0.0/8`: the container port of the selected
pod has a name. -/
theorem ingress_entry_omitted_port :
    EntryAppends (clusterWith (some webLabels)) halvingNet .ingress "shop" (tenBlock (.text none))
      ⟨webSelector, []⟩ ⟨.text none, none⟩ [] ∧
    ¬ EmitsExactly [] []
      (productRules halvingNet (tenBlock (.text none)) [.cidr "10.0.0.0/8"]
        ⟨.text none, none⟩) := by
  constructor
  · exact ⟨⟨none, false, []⟩, [], [], [], [], ⟨webSelector, []⟩, ⟨webSelector, []⟩, rfl, rfl, rfl,
      by decide +kernel⟩
  · rintro ⟨new, hnew, hperm⟩
    obtain rfl : new = [] := by simpa using hnew.symm
    exact absurd hperm.length_eq (by decide)

end KuryrKubernetes
