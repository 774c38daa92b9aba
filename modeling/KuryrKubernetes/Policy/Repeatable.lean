import KuryrKubernetes.Policy.Productions

/-!
# Compiling a policy again

A compilation writes to two kinds of objects that outlive it: the cached list of the
subnet pool's prefixes, and the selectors of the policy it is given. A later
compilation, of this policy or of another one, reads them as they were left.

- `networkPolicyLeft` is what a compilation leaves of them, also when it fails half way.
- `Controller` is a process: its policy objects and the cached prefixes.
- `NetworkPolicy.Later` relates a policy to what any number of compilations leaves of
  it: some selectors may have lost `pod-template-hash`.
- `compile_eq_of_later` says when the compiler cannot tell the two apart, and
  `compile_run_eq` concludes for every run of the process.
-/

namespace KuryrKubernetes

open Dicts LabelSelectors Results

/-! ## What a compilation leaves behind -/

/-- An entry whose pod selector has been handed to `get_pods`. -/
def Peer.popped (rule : Peer) : Peer :=
  { rule with podSelector := rule.podSelector.map LabelSelector.popHash }

/-- An entry after its iteration of `_parse_selectors`. The label is popped before the
request is sent, so also when the request fails; without a matching namespace there is
no request. -/
def Peer.left (c : Cluster) (rule : Peer) : Peer :=
  match rule.kind with
  | .podsEverywhere _ | .ownPods _ => rule.popped
  | .podsOf nsSelector _ =>
    match getNamespaces c nsSelector with
    | .ok (_ :: _) => rule.popped
    | .ok [] | .error _ => rule
  | .ipBlock | .cluster | .namespaces _ | .ownNamespace => rule

/-- The entries and the cached prefixes after the loop of `_parse_selectors`, which stops
at the first failure. -/
def peersLeft (c : Cluster) (net : Net) (policyNs : String) :
    List Peer → Peers × List String → List Peer × List String
  | [], acc => ([], acc.2)
  | rule :: rules, acc =>
    match parsePeer c net policyNs rule acc with
    | .error _ => (rule.left c :: rules, acc.2)
    | .ok acc' =>
      let rest := peersLeft c net policyNs rules acc'
      (rule.left c :: rest.1, rest.2)

/-- The policy's own selector after the loop over `ports`. -/
def portsLeft (c : Cluster) (net : Net) (d : Direction) (policyNs : String) (peers : Peers) :
    List PolicyPort → Memo → LabelSelector
  | [], memo => memo.podSelector
  | port :: ports, memo =>
    let podSelector := selectorAfter d memo.podSelector port
    match portAppends c net d policyNs peers port memo with
    | .error _ => podSelector
    | .ok _ => portsLeft c net d policyNs peers ports { memo with podSelector := podSelector }

/-- A block, and the memo, after its iteration of `_parse_sg_rules`. -/
def blockLeft (c : Cluster) (net : Net) (d : Direction) (policyNs : String) (block : RuleBlock)
    (memo : Memo) : RuleBlock × Memo :=
  let left := peersLeft c net policyNs (block.peers.getD []) (⟨none, false, []⟩, memo.prefixes)
  let podSelector :=
    match parseSelectors c net policyNs block memo.prefixes with
    | .error _ => memo.podSelector
    | .ok (peers, prefixes) =>
      portsLeft c net d policyNs
        { peers with allowedResources := peers.allowedResources ++ ipBlockResources net block }
        (block.ports.getD []) { memo with prefixes := prefixes }
  ({ block with peers := block.peers.map fun _ => left.1 }, ⟨podSelector, left.2⟩)

/-- The blocks, and the memo, after the loop of `_parse_sg_rules`. -/
def blocksLeft (c : Cluster) (net : Net) (d : Direction) (policyNs : String) :
    List RuleBlock → Memo → List RuleBlock × Memo
  | [], memo => ([], memo)
  | block :: blocks, memo =>
    let left := blockLeft c net d policyNs block memo
    match blockAppends c net d policyNs block memo with
    | .error _ => (left.1 :: blocks, left.2)
    | .ok _ =>
      let rest := blocksLeft c net d policyNs blocks left.2
      (left.1 :: rest.1, rest.2)

/-- The rule list of a direction, and the memo, after `_parse_sg_rules`. -/
def sgRulesLeft (c : Cluster) (net : Net) (d : Direction) (policy : NetworkPolicy) (memo : Memo) :
    Option (List RuleBlock) × Memo :=
  let left := blocksLeft c net d policy.ns (policy.spec.blocks d) memo
  ((policy.spec.ruleList d).map fun _ => left.1, left.2)

/-- The policy object and the cached prefixes after `_parse_network_policy_rules`. When
ingress fails, egress is not looked at. -/
def networkPolicyLeft (c : Cluster) (net : Net) (policy : NetworkPolicy) (prefixes : List String) :
    NetworkPolicy × List String :=
  let memo : Memo := ⟨policy.spec.podSelector, prefixes⟩
  let ingress := sgRulesLeft c net .ingress policy memo
  let egress :=
    match parseSgRules c net .ingress policy memo with
    | .error _ => (policy.spec.egress, ingress.2)
    | .ok _ => sgRulesLeft c net .egress policy ingress.2
  ({ policy with spec :=
      { policy.spec with
        podSelector := egress.2.podSelector
        ingress := ingress.1
        egress := egress.1 } }, egress.2.prefixes)

/-- The two rule lists of a policy (network_policy.py:653–668). -/
def compile (c : Cluster) (net : Net) (policy : NetworkPolicy) (prefixes : List String) :
    Except Error (List Rule × List Rule) :=
  (parseNetworkPolicyRules c net policy prefixes).map fun out =>
    (runAppends out.1, runAppends out.2)

/-! ## The process -/

/-- A controller process: its policy objects, and the prefixes of the cached pool. -/
structure Controller (κ : Type) where
  policies : κ → NetworkPolicy
  prefixes : List String

section

variable {κ : Type} [DecidableEq κ]

/-- The rule lists of one policy, compiled now. -/
def Controller.compile (net : Net) (s : Controller κ) (c : Cluster) (k : κ) :
    Except Error (List Rule × List Rule) :=
  KuryrKubernetes.compile c net (s.policies k) s.prefixes

/-- The process after it has compiled one policy. -/
def Controller.compiled (net : Net) (s : Controller κ) (e : κ × Cluster) : Controller κ where
  policies := Function.update s.policies e.1
    (networkPolicyLeft e.2 net (s.policies e.1) s.prefixes).1
  prefixes := (networkPolicyLeft e.2 net (s.policies e.1) s.prefixes).2

/-- The process after it has compiled policies, each in the cluster state of that time. -/
def Controller.run (net : Net) (s : Controller κ) (es : List (κ × Cluster)) : Controller κ :=
  es.foldl (Controller.compiled net) s

end

/-! ## The memo the compiler passes along -/

section

variable {c : Cluster} {net : Net} {d : Direction} {policyNs : String}

theorem peersLeft_prefixes : ∀ {rules : List Peer} {acc acc' : Peers × List String},
    parsePeers c net policyNs rules acc = .ok acc' →
      (peersLeft c net policyNs rules acc).2 = acc'.2
  | [], acc, acc', h => by
    cases h
    rfl
  | rule :: rules, acc, acc', h => by
    obtain ⟨acc₁, hrule, hrest⟩ := bind_eq_ok.mp h
    simp only [peersLeft, hrule]
    exact peersLeft_prefixes hrest

theorem portsLeft_of_ok {block : RuleBlock} {memo : Memo} {found : List Resource}
    (hfound : collect (peerResources c policyNs) (block.peers.getD []) = .ok found) :
    ∀ {ports : List PolicyPort} {m : Memo} {out : List Append × Memo},
      portsAppends c net d policyNs (blockPeers net block memo found) ports m = .ok out →
      portsLeft c net d policyNs (blockPeers net block memo found) ports m = out.2.podSelector
  | [], m, out, h => by
    cases h
    rfl
  | port :: ports, m, out, h => by
    obtain ⟨⟨appends, m₁⟩, hport, h⟩ := bind_eq_ok.mp h
    obtain ⟨⟨rest, m₂⟩, hrest, h⟩ := bind_eq_ok.mp h
    cases h
    obtain ⟨rfl, -⟩ := portAppends_ok hfound hport
    simp only [portsLeft, hport]
    exact portsLeft_of_ok hfound hrest

/-- **A compilation that succeeds leaves the memo it returns.** -/
theorem blockLeft_of_ok {block : RuleBlock} {memo : Memo} {out : List Append × Memo}
    (h : blockAppends c net d policyNs block memo = .ok out) :
    (blockLeft c net d policyNs block memo).2 = out.2 := by
  obtain ⟨⟨peers, prefixes⟩, hpeers, h⟩ := bind_eq_ok.mp h
  have hprefixes := peersLeft_prefixes hpeers
  have hpeers' := hpeers
  rw [parseSelectors_eq] at hpeers'
  cases hfound : collect (peerResources c policyNs) (block.peers.getD []) with
  | error e => rw [hfound] at hpeers'; cases hpeers'
  | ok found =>
    rw [hfound] at hpeers'
    cases hpeers'
    simp only [blockLeft, hpeers, hprefixes]
    cases hports : block.ports with
    | some ports =>
      simp only [hports] at h
      change portsAppends c net d policyNs (blockPeers net block memo found) ports _ = _ at h
      have hsel := portsLeft_of_ok hfound h
      obtain ⟨hmemo, -⟩ := portsAppends_ok hfound h
      change Memo.mk (portsLeft c net d policyNs (blockPeers net block memo found) ports _) _ = _
      rw [hsel, hmemo]
    | none =>
      simp only [hports] at h
      obtain ⟨appends, -, h⟩ := bind_eq_ok.mp h
      cases h
      rfl

theorem blocksLeft_of_ok : ∀ {blocks : List RuleBlock} {memo : Memo} {out : List Append × Memo},
    blocksAppends c net d policyNs blocks memo = .ok out →
      (blocksLeft c net d policyNs blocks memo).2 = out.2
  | [], memo, out, h => by
    cases h
    rfl
  | block :: blocks, memo, out, h => by
    obtain ⟨⟨appends, m₁⟩, happends, h⟩ := bind_eq_ok.mp h
    obtain ⟨⟨rest, m₂⟩, hrest, h⟩ := bind_eq_ok.mp h
    cases h
    simp only [blocksLeft, happends]
    rw [blockLeft_of_ok happends]
    exact blocksLeft_of_ok hrest

theorem sgRulesLeft_of_ok {policy : NetworkPolicy} {memo : Memo} {out : List Append × Memo}
    (h : parseSgRules c net d policy memo = .ok out) :
    (sgRulesLeft c net d policy memo).2 = out.2 := by
  cases hb : policy.spec.blocks d with
  | nil =>
    unfold sgRulesLeft
    rw [hb, (parseSgRules_ok h).1, hb]
    rfl
  | cons block blocks =>
    obtain ⟨bs, hbs, -⟩ := parseSgRules_of_blocks hb h
    unfold sgRulesLeft
    rw [hb]
    have hleft := blocksLeft_of_ok hbs
    exact hleft

end

/-! ## Popping again -/

/-- Popping the label does not change what `get_pods` asks for: there was no label, or
something else is left to send. -/
def LabelSelector.PopSafe (s : LabelSelector) : Prop := s.labelItems = [] ∨ s.SurvivesPop

instance (s : LabelSelector) : Decidable s.PopSafe := inferInstanceAs (Decidable (_ ∨ _))

theorem LabelSelector.PopSafe.getPods_eq {s : LabelSelector} (h : s.PopSafe) (c : Cluster)
    (ns : Option String) : getPods c s.popHash ns = getPods c s ns :=
  getPods_popHash h ns

theorem LabelSelector.PopSafe.popHash {s : LabelSelector} (h : s.PopSafe) : s.popHash.PopSafe := by
  rcases h with hl | hs
  · refine .inl (List.eq_nil_iff_forall_not_mem.mpr fun e he => ?_)
    have hmem := (LabelSelector.mem_popHash_labelItems.mp he).1
    rw [hl] at hmem
    cases hmem
  · right
    unfold LabelSelector.SurvivesPop at hs ⊢
    rwa [s.popHash_popHash]

/-- The selectors of a row after `get_pods`. -/
def PeerKind.popped : PeerKind → PeerKind
  | .podsEverywhere s => .podsEverywhere s.popHash
  | .podsOf n s => .podsOf n s.popHash
  | .ownPods s => .ownPods s.popHash
  | .ipBlock => .ipBlock
  | .cluster => .cluster
  | .namespaces n => .namespaces n
  | .ownNamespace => .ownNamespace

theorem LabelSelector.popHash_eq_none {s : LabelSelector} :
    s.popHash = LabelSelector.none ↔ s = LabelSelector.none := by
  obtain ⟨ml, me⟩ := s
  cases ml <;> simp [LabelSelector.popHash, LabelSelector.none]

theorem truthy_popHash (o : Option LabelSelector) :
    truthy (o.map LabelSelector.popHash) = (truthy o).map LabelSelector.popHash := by
  cases o with
  | none => rfl
  | some s =>
    by_cases hs : s = LabelSelector.none
    · subst hs
      rfl
    · have hp : s.popHash ≠ LabelSelector.none := mt LabelSelector.popHash_eq_none.mp hs
      simp [truthy, Option.filter, hs, hp]

/-- Popping keeps the row of an entry. -/
theorem Peer.kind_popped (rule : Peer) : rule.popped.kind = rule.kind.popped := by
  obtain ⟨nsSel, podSel, block⟩ := rule
  unfold Peer.kind Peer.popped
  simp only [truthy_popHash]
  by_cases hns : nsSel = some LabelSelector.none
  · simp only [if_pos hns]
    cases truthy podSel <;> rfl
  · simp only [if_neg hns]
    cases truthy nsSel with
    | some n => cases truthy podSel <;> rfl
    | none =>
      cases podSel with
      | none => rfl
      | some s =>
        by_cases hs : s = LabelSelector.none
        · subst hs
          rfl
        · have hp : s.popHash ≠ LabelSelector.none := mt LabelSelector.popHash_eq_none.mp hs
          simp [hs, hp, PeerKind.popped]

@[simp] theorem Peer.popped_popped (rule : Peer) : rule.popped.popped = rule.popped := by
  obtain ⟨nsSel, podSel, block⟩ := rule
  cases podSel <;> simp [Peer.popped]

/-- The pod selector of an entry can be popped. -/
def Peer.PopSafe (rule : Peer) : Prop := ∀ s ∈ rule.podSelector, s.PopSafe

theorem getPodsInNamespaces_popHash {c : Cluster} {s : LabelSelector} (h : s.PopSafe)
    (matching : List Pod) (nss : List Namespace) :
    getPodsInNamespaces c s.popHash matching nss = getPodsInNamespaces c s matching nss := by
  cases nss with
  | nil => rfl
  | cons n nss => rw [getPodsInNamespaces, getPodsInNamespaces, h.getPods_eq, s.popHash_popHash]

/-- The selector a row hands to `get_pods` is the pod selector of the entry. -/
theorem Peer.PopSafe.of_kind {rule : Peer} (h : rule.PopSafe) :
    match rule.kind with
    | .podsEverywhere s | .podsOf _ s | .ownPods s => s.PopSafe
    | .ipBlock | .cluster | .namespaces _ | .ownNamespace => True := by
  obtain ⟨nsSel, podSel, block⟩ := rule
  have htruthy : ∀ s, truthy podSel = some s → s.PopSafe := fun s hs => h s (truthy_eq_some hs).1
  unfold Peer.kind
  by_cases hns : nsSel = some LabelSelector.none
  · simp only [if_pos hns]
    cases hp : truthy podSel with
    | none => trivial
    | some s => exact htruthy s hp
  · simp only [if_neg hns]
    cases truthy nsSel with
    | some n =>
      cases hp : truthy podSel with
      | none => trivial
      | some s => exact htruthy s hp
    | none =>
      cases podSel with
      | none => trivial
      | some s =>
        by_cases hs : s = LabelSelector.none
        · simp only [if_pos hs]
        · simp only [if_neg hs]
          exact h s rfl

theorem Peer.PopSafe.peerResources_eq {rule : Peer} (h : rule.PopSafe) (c : Cluster)
    (policyNs : String) : peerResources c policyNs rule.popped = peerResources c policyNs rule := by
  have hsafe := h.of_kind
  unfold peerResources
  rw [rule.kind_popped]
  cases hk : rule.kind with
  | ipBlock => rfl
  | cluster => rfl
  | namespaces n => rfl
  | ownNamespace => rfl
  | podsEverywhere s =>
    rw [hk] at hsafe
    simp only [PeerKind.popped, hsafe.getPods_eq]
  | ownPods s =>
    rw [hk] at hsafe
    simp only [PeerKind.popped, hsafe.getPods_eq]
  | podsOf n s =>
    rw [hk] at hsafe
    simp only [PeerKind.popped, getPodsInNamespaces_popHash hsafe]

/-! ## The same policy, later -/

/-- What compilations may leave of a selector they pop only if `P`. -/
def PoppedIf (P : Prop) (s t : LabelSelector) : Prop := t = s ∨ (P ∧ t = s.popHash)

theorem PoppedIf.trans {P : Prop} {s t u : LabelSelector} (h : PoppedIf P s t)
    (h' : PoppedIf P t u) : PoppedIf P s u := by
  rcases h with rfl | ⟨hp, rfl⟩
  · exact h'
  · rcases h' with rfl | ⟨-, rfl⟩
    · exact .inr ⟨hp, rfl⟩
    · exact .inr ⟨hp, s.popHash_popHash⟩

theorem PoppedIf.mono {P Q : Prop} {s t : LabelSelector} (h : PoppedIf P s t) (hpq : P → Q) :
    PoppedIf Q s t := by
  rcases h with h | ⟨hp, h⟩
  · exact .inl h
  · exact .inr ⟨hpq hp, h⟩

/-- What compilations may leave of an entry. -/
def Peer.Later (rule rule' : Peer) : Prop := rule' = rule ∨ rule' = rule.popped

/-- What compilations may leave of a block. -/
structure RuleBlock.Later (block block' : RuleBlock) : Prop where
  peers : Option.Rel (List.Forall₂ Peer.Later) block.peers block'.peers
  ports : block'.ports = block.ports

/-- Some port of the block is given by name. -/
def RuleBlock.NamesPort (block : RuleBlock) : Prop :=
  ∃ port ∈ block.ports.getD [], ∃ name, port.port = .text name

/-- Compiling the ingress blocks asks for the pods of the policy. -/
def PolicySpec.AsksOwnPods (spec : PolicySpec) : Prop :=
  ∃ block ∈ spec.blocks .ingress, block.NamesPort

/-- What compilations may leave of a policy. -/
structure NetworkPolicy.Later (policy policy' : NetworkPolicy) : Prop where
  ns : policy'.ns = policy.ns
  policyTypes : policy'.spec.policyTypes = policy.spec.policyTypes
  ruleList : ∀ d, Option.Rel (List.Forall₂ RuleBlock.Later) (policy.spec.ruleList d)
    (policy'.spec.ruleList d)
  podSelector : PoppedIf policy.spec.AsksOwnPods policy.spec.podSelector policy'.spec.podSelector

theorem Peer.Later.left {rule rule' : Peer} (h : Peer.Later rule rule') (c : Cluster) :
    Peer.Later rule (rule'.left c) := by
  have hleft : rule'.left c = rule' ∨ rule'.left c = rule'.popped := by
    unfold Peer.left
    split
    · exact .inr rfl
    · exact .inr rfl
    · split
      · exact .inr rfl
      · exact .inl rfl
      · exact .inl rfl
    all_goals exact .inl rfl
  rcases hleft with hleft | hleft <;> rw [hleft]
  · exact h
  · rcases h with rfl | rfl
    · exact .inr rfl
    · exact .inr rule.popped_popped

theorem peer_later_refl (rules : List Peer) : List.Forall₂ Peer.Later rules rules :=
  List.forall₂_same.mpr fun _ _ => .inl rfl

theorem RuleBlock.later_refl (block : RuleBlock) : block.Later block where
  peers := by
    cases block.peers with
    | none => exact .none
    | some rules => exact .some (peer_later_refl rules)
  ports := rfl

theorem NetworkPolicy.later_refl (policy : NetworkPolicy) : policy.Later policy where
  ns := rfl
  policyTypes := rfl
  ruleList := fun d => by
    cases policy.spec.ruleList d with
    | none => exact .none
    | some blocks => exact .some (List.forall₂_same.mpr fun block _ => block.later_refl)
  podSelector := .inl rfl

/-- The lists behind two options. -/
theorem forall₂_getD {α : Type} {R : α → α → Prop} {o o' : Option (List α)}
    (h : Option.Rel (List.Forall₂ R) o o') : List.Forall₂ R (o.getD []) (o'.getD []) := by
  cases h with
  | none => exact .nil
  | some h => exact h

section

variable {c : Cluster} {net : Net} {d : Direction} {policyNs : String}

theorem peersLeft_later {rules rules' : List Peer} (h : List.Forall₂ Peer.Later rules rules') :
    ∀ acc, List.Forall₂ Peer.Later rules (peersLeft c net policyNs rules' acc).1 := by
  induction h with
  | nil => exact fun _ => .nil
  | cons hrule hrest ih =>
    intro acc
    unfold peersLeft
    split
    · exact .cons (hrule.left c) hrest
    · exact .cons (hrule.left c) (ih _)

theorem selectorAfter_poppedIf (s : LabelSelector) (port : PolicyPort) :
    PoppedIf (d = .ingress ∧ ∃ name, port.port = .text name) s (selectorAfter d s port) := by
  unfold selectorAfter
  cases hp : port.port with
  | number n => exact .inl rfl
  | text name =>
    cases d with
    | ingress => exact .inr ⟨⟨rfl, name, rfl⟩, rfl⟩
    | egress => exact .inl rfl

theorem portsLeft_poppedIf {peers : Peers} : ∀ (ports : List PolicyPort) (memo : Memo),
    PoppedIf (d = .ingress ∧ ∃ port ∈ ports, ∃ name, port.port = .text name) memo.podSelector
      (portsLeft c net d policyNs peers ports memo)
  | [], _ => .inl rfl
  | port :: ports, memo => by
    have hport := (selectorAfter_poppedIf (d := d) memo.podSelector port).mono
      fun h => (⟨h.1, port, List.mem_cons_self, h.2⟩ :
        d = .ingress ∧ ∃ p ∈ port :: ports, ∃ name, p.port = .text name)
    unfold portsLeft
    split
    · exact hport
    · refine hport.trans ((portsLeft_poppedIf ports _).mono fun h => ⟨h.1, ?_⟩)
      obtain ⟨p, hp, hname⟩ := h.2
      exact ⟨p, List.mem_cons_of_mem _ hp, hname⟩

theorem blockLeft_later {block block' : RuleBlock} (h : block.Later block') (memo : Memo) :
    block.Later (blockLeft c net d policyNs block' memo).1 where
  peers := by
    have hpeers := h.peers
    unfold blockLeft
    cases hb : block.peers with
    | none =>
      rw [hb] at hpeers
      cases hb' : block'.peers with
      | none => exact .none
      | some rules' => rw [hb'] at hpeers; cases hpeers
    | some rules =>
      rw [hb] at hpeers
      cases hb' : block'.peers with
      | none => rw [hb'] at hpeers; cases hpeers
      | some rules' =>
        rw [hb'] at hpeers
        cases hpeers with
        | some hrules => exact .some (peersLeft_later hrules _)
  ports := h.ports

theorem blockLeft_poppedIf (block : RuleBlock) (memo : Memo) :
    PoppedIf (d = .ingress ∧ block.NamesPort) memo.podSelector
      (blockLeft c net d policyNs block memo).2.podSelector := by
  unfold blockLeft
  cases parseSelectors c net policyNs block memo.prefixes with
  | error e => exact .inl rfl
  | ok peers => exact portsLeft_poppedIf _ _

theorem blocksLeft_later {blocks blocks' : List RuleBlock}
    (h : List.Forall₂ RuleBlock.Later blocks blocks') : ∀ memo,
      List.Forall₂ RuleBlock.Later blocks (blocksLeft c net d policyNs blocks' memo).1 := by
  induction h with
  | nil => exact fun _ => .nil
  | cons hblock hrest ih =>
    intro memo
    unfold blocksLeft
    split
    · exact .cons (blockLeft_later hblock memo) hrest
    · exact .cons (blockLeft_later hblock memo) (ih _)

theorem blocksLeft_poppedIf : ∀ (blocks : List RuleBlock) (memo : Memo),
    PoppedIf (d = .ingress ∧ ∃ block ∈ blocks, block.NamesPort) memo.podSelector
      (blocksLeft c net d policyNs blocks memo).2.podSelector
  | [], _ => .inl rfl
  | block :: blocks, memo => by
    have hblock : PoppedIf (d = .ingress ∧ ∃ b ∈ block :: blocks, b.NamesPort) memo.podSelector
        (blockLeft c net d policyNs block memo).2.podSelector :=
      (blockLeft_poppedIf block memo).mono fun h => ⟨h.1, block, List.mem_cons_self, h.2⟩
    unfold blocksLeft
    split
    · exact hblock
    · refine hblock.trans ((blocksLeft_poppedIf blocks _).mono fun h => ⟨h.1, ?_⟩)
      obtain ⟨b, hb, hname⟩ := h.2
      exact ⟨b, List.mem_cons_of_mem _ hb, hname⟩

end

theorem RuleBlock.Later.namesPort_iff {block block' : RuleBlock} (h : block.Later block') :
    block'.NamesPort ↔ block.NamesPort := by
  unfold RuleBlock.NamesPort
  rw [h.ports]

theorem NetworkPolicy.Later.blocks {policy policy' : NetworkPolicy} (h : policy.Later policy')
    (d : Direction) :
    List.Forall₂ RuleBlock.Later (policy.spec.blocks d) (policy'.spec.blocks d) :=
  forall₂_getD (h.ruleList d)

/-- An element of the later list, and the one it comes from. -/
theorem exists_of_forall₂ {α : Type} {R : α → α → Prop} {l l' : List α} (h : List.Forall₂ R l l')
    {b : α} (hb : b ∈ l') : ∃ a ∈ l, R a b := by
  induction h with
  | nil => cases hb
  | @cons a b' l l' hR _ ih =>
    rcases List.mem_cons.mp hb with rfl | hb
    · exact ⟨a, List.mem_cons_self, hR⟩
    · obtain ⟨a', ha', hR'⟩ := ih hb
      exact ⟨a', List.mem_cons_of_mem _ ha', hR'⟩

theorem NetworkPolicy.Later.asksOwnPods {policy policy' : NetworkPolicy}
    (h : policy.Later policy') (hasks : policy'.spec.AsksOwnPods) : policy.spec.AsksOwnPods := by
  obtain ⟨block', hmem, hnames⟩ := hasks
  obtain ⟨block, hblock, hlater⟩ := exists_of_forall₂ (h.blocks .ingress) hmem
  exact ⟨block, hblock, hlater.namesPort_iff.mp hnames⟩

section

variable {c : Cluster} {net : Net} {policy policy' : NetworkPolicy}

theorem sgRulesLeft_later (h : policy.Later policy') (d : Direction) (memo : Memo) :
    Option.Rel (List.Forall₂ RuleBlock.Later) (policy.spec.ruleList d)
      (sgRulesLeft c net d policy' memo).1 := by
  have hlist := h.ruleList d
  have hleft : List.Forall₂ RuleBlock.Later (policy.spec.blocks d)
      (blocksLeft c net d policy'.ns (policy'.spec.blocks d) memo).1 :=
    blocksLeft_later (h.blocks d) memo
  unfold sgRulesLeft
  revert hlist hleft
  unfold PolicySpec.blocks
  cases policy.spec.ruleList d with
  | none =>
    cases policy'.spec.ruleList d with
    | none => exact fun _ _ => .none
    | some blocks' => exact fun hlist _ => by cases hlist
  | some blocks =>
    cases policy'.spec.ruleList d with
    | none => exact fun hlist _ => by cases hlist
    | some blocks' => exact fun _ hleft => .some hleft

/-- Each direction pops the policy's own selector for named ingress ports only. -/
theorem sgRulesLeft_poppedIf (d : Direction) (memo : Memo) :
    PoppedIf policy.spec.AsksOwnPods memo.podSelector
      (sgRulesLeft c net d policy memo).2.podSelector := by
  refine (blocksLeft_poppedIf (policy.spec.blocks d) memo).mono ?_
  rintro ⟨rfl, hasks⟩
  exact hasks

/-- **One compilation** leaves of a policy what compilations may leave of it. -/
theorem networkPolicyLeft_later (h : policy.Later policy') (prefixes : List String) :
    policy.Later (networkPolicyLeft c net policy' prefixes).1 := by
  have hin : PoppedIf policy'.spec.AsksOwnPods policy'.spec.podSelector
      (sgRulesLeft c net .ingress policy' ⟨policy'.spec.podSelector, prefixes⟩).2.podSelector :=
    sgRulesLeft_poppedIf .ingress _
  have hown : ∀ t, PoppedIf policy'.spec.AsksOwnPods policy'.spec.podSelector t →
      PoppedIf policy.spec.AsksOwnPods policy.spec.podSelector t :=
    fun t ht => h.podSelector.trans (ht.mono h.asksOwnPods)
  unfold networkPolicyLeft
  dsimp only
  cases parseSgRules c net .ingress policy' ⟨policy'.spec.podSelector, prefixes⟩ with
  | error e =>
    refine ⟨h.ns, h.policyTypes, fun d => ?_, hown _ hin⟩
    cases d with
    | ingress => exact sgRulesLeft_later h .ingress _
    | egress => exact h.ruleList .egress
  | ok out =>
    refine ⟨h.ns, h.policyTypes, fun d => ?_, hown _ (hin.trans (sgRulesLeft_poppedIf .egress _))⟩
    cases d with
    | ingress => exact sgRulesLeft_later h .ingress _
    | egress => exact sgRulesLeft_later h .egress _

end

/-! ## The cached prefixes -/

section

variable {c : Cluster} {net : Net} {d : Direction} {policyNs : String}

/-- Without the cache every lookup returns a list of its own. -/
theorem clusterCidrs_uncached (hcache : net.subnetCaching = false) :
    ∀ (rules : List Peer) (acc : Option (List String) × List String),
      (clusterCidrs net rules acc).2 = acc.2
  | [], _ => rfl
  | rule :: rules, (cidrs, prefixes) => by
    unfold clusterCidrs
    split
    · rw [clusterCidrs_uncached hcache rules, if_neg (by simp [hcache])]
    · exact clusterCidrs_uncached hcache rules _

theorem peersLeft_uncached (hcache : net.subnetCaching = false) :
    ∀ (rules : List Peer) (acc : Peers × List String),
      (peersLeft c net policyNs rules acc).2 = acc.2
  | [], _ => rfl
  | rule :: rules, (peers, prefixes) => by
    unfold peersLeft
    rw [parsePeer_eq]
    cases peerResources c policyNs rule with
    | error e => rfl
    | ok rs =>
      show (peersLeft c net policyNs rules (_, (clusterCidrs net [rule] _).2)).2 = prefixes
      rw [peersLeft_uncached hcache rules, clusterCidrs_uncached hcache]

theorem blocksLeft_uncached (hcache : net.subnetCaching = false) :
    ∀ (blocks : List RuleBlock) (memo : Memo),
      (blocksLeft c net d policyNs blocks memo).2.prefixes = memo.prefixes
  | [], _ => rfl
  | block :: blocks, memo => by
    have hblock : (blockLeft c net d policyNs block memo).2.prefixes = memo.prefixes :=
      peersLeft_uncached hcache _ _
    unfold blocksLeft
    split
    · exact hblock
    · rw [blocksLeft_uncached hcache blocks, hblock]

theorem networkPolicyLeft_uncached (hcache : net.subnetCaching = false) (policy : NetworkPolicy)
    (prefixes : List String) : (networkPolicyLeft c net policy prefixes).2 = prefixes := by
  have hin : (blocksLeft c net .ingress policy.ns (policy.spec.blocks .ingress)
      ⟨policy.spec.podSelector, prefixes⟩).2.prefixes = prefixes := blocksLeft_uncached hcache _ _
  unfold networkPolicyLeft
  dsimp only
  cases parseSgRules c net .ingress policy ⟨policy.spec.podSelector, prefixes⟩ with
  | error e => exact hin
  | ok out => exact (blocksLeft_uncached hcache _ _).trans hin

end

/-! ## What the compiler sees of the later policy -/

theorem Peer.Later.kind_eq {rule rule' : Peer} (h : Peer.Later rule rule') :
    rule'.kind = rule.kind ∨ rule'.kind = rule.kind.popped := by
  rcases h with rfl | rfl
  · exact .inl rfl
  · exact .inr rule.kind_popped

theorem Peer.Later.cluster_iff {rule rule' : Peer} (h : Peer.Later rule rule') :
    rule'.kind = .cluster ↔ rule.kind = .cluster := by
  rcases h.kind_eq with hk | hk <;> rw [hk]
  cases rule.kind <;> simp [PeerKind.popped]

theorem Peer.Later.ipBlock_iff {rule rule' : Peer} (h : Peer.Later rule rule') :
    rule'.kind = .ipBlock ↔ rule.kind = .ipBlock := by
  rcases h.kind_eq with hk | hk <;> rw [hk]
  cases rule.kind <;> simp [PeerKind.popped]

section

variable {c : Cluster} {net : Net} {d : Direction} {policyNs : String}

theorem collect_peerResources_later {rules rules' : List Peer}
    (h : List.Forall₂ Peer.Later rules rules') (hsafe : ∀ rule ∈ rules, rule.PopSafe) :
    collect (peerResources c policyNs) rules' = collect (peerResources c policyNs) rules := by
  induction h with
  | nil => rfl
  | @cons rule rule' rules rules' hlater _ ih =>
    have hrule : peerResources c policyNs rule' = peerResources c policyNs rule := by
      rcases hlater with rfl | rfl
      · rfl
      · exact (hsafe rule List.mem_cons_self).peerResources_eq c policyNs
    rw [collect, collect, hrule, ih fun r hr => hsafe r (List.mem_cons_of_mem _ hr)]

theorem clusterCidrs_later {rules rules' : List Peer}
    (h : List.Forall₂ Peer.Later rules rules') :
    ∀ acc, clusterCidrs net rules' acc = clusterCidrs net rules acc := by
  induction h with
  | nil => exact fun _ => rfl
  | cons hlater _ ih =>
    rintro ⟨cidrs, prefixes⟩
    simp only [clusterCidrs, hlater.cluster_iff, ih]

theorem selectorsGiven_later {rules rules' : List Peer}
    (h : List.Forall₂ Peer.Later rules rules') : selectorsGiven rules' = selectorsGiven rules := by
  induction h with
  | nil => rfl
  | cons hlater _ ih =>
    unfold selectorsGiven at ih ⊢
    simp only [List.any_cons, ih, ne_eq, hlater.ipBlock_iff]

theorem filterMap_ipBlock_later {rules rules' : List Peer}
    (h : List.Forall₂ Peer.Later rules rules') :
    rules'.filterMap Peer.ipBlock = rules.filterMap Peer.ipBlock := by
  induction h with
  | nil => rfl
  | @cons rule rule' rules rules' hlater _ ih =>
    have hblock : rule'.ipBlock = rule.ipBlock := by
      rcases hlater with rfl | rfl <;> rfl
    rw [List.filterMap_cons, List.filterMap_cons, hblock, ih]

/-- All selectors of the entries of a block can be popped. -/
def RuleBlock.PopSafe (block : RuleBlock) : Prop := ∀ rule ∈ block.peers.getD [], rule.PopSafe

theorem blockAppends_later {block block' : RuleBlock} (h : block.Later block')
    (hsafe : block.PopSafe) (memo : Memo) :
    blockAppends c net d policyNs block' memo = blockAppends c net d policyNs block memo := by
  have hpeers := forall₂_getD h.peers
  unfold blockAppends ipBlockResources
  rw [parseSelectors_eq, parseSelectors_eq, collect_peerResources_later hpeers hsafe,
    clusterCidrs_later hpeers, selectorsGiven_later hpeers, filterMap_ipBlock_later hpeers, h.ports]

theorem blocksAppends_later {blocks blocks' : List RuleBlock}
    (h : List.Forall₂ RuleBlock.Later blocks blocks') (hsafe : ∀ block ∈ blocks, block.PopSafe) :
    ∀ memo, blocksAppends c net d policyNs blocks' memo =
      blocksAppends c net d policyNs blocks memo := by
  induction h with
  | nil => exact fun _ => rfl
  | @cons block block' blocks blocks' hlater _ ih =>
    intro memo
    have hrest := ih fun b hb => hsafe b (List.mem_cons_of_mem _ hb)
    simp only [blocksAppends, blockAppends_later hlater (hsafe block List.mem_cons_self), hrest]

theorem RuleBlock.Later.eq_empty_iff {block block' : RuleBlock} (h : block.Later block') :
    block' = RuleBlock.empty ↔ block = RuleBlock.empty := by
  obtain ⟨peers, ports⟩ := block
  obtain ⟨peers', ports'⟩ := block'
  obtain ⟨hpeers, hports⟩ := h
  cases hports
  cases hpeers <;> simp [RuleBlock.empty]

theorem parseSgRules_later {policy policy' : NetworkPolicy} (h : policy.Later policy')
    (hsafe : ∀ block ∈ policy.spec.blocks d, block.PopSafe) (memo : Memo) :
    parseSgRules c net d policy' memo = parseSgRules c net d policy memo := by
  have hblocks := h.blocks d
  have hlist : ∀ p : NetworkPolicy, (p.spec.ruleList d).getD [] = p.spec.blocks d := fun _ => rfl
  unfold parseSgRules
  rw [hlist, hlist]
  cases hb : policy.spec.blocks d with
  | nil =>
    rw [hb] at hblocks
    cases hb' : policy'.spec.blocks d with
    | cons block' blocks' => rw [hb'] at hblocks; cases hblocks
    | nil => cases d <;> simp only [h.policyTypes]
  | cons block blocks =>
    rw [hb] at hblocks
    cases hb' : policy'.spec.blocks d with
    | nil => rw [hb'] at hblocks; cases hblocks
    | cons block' blocks' =>
      rw [hb'] at hblocks
      have hall : blocksAppends c net d policy.ns (block' :: blocks') memo =
          blocksAppends c net d policy.ns (block :: blocks) memo :=
        blocksAppends_later hblocks (hb ▸ hsafe) memo
      cases hblocks with
      | cons hblock _ => simp only [h.ns, hall, hblock.eq_empty_iff]

end

/-! ## Changing the memo

Two changes of the memo go through the compiler unnoticed: the policy's own selector may
be popped before the ingress blocks, and the prefixes may be any where no entry asks for
the whole cluster. -/

/-- The appends of `f` do not depend on the change `g` of a memo that meets `ok`, and the
memo it returns shows the change. -/
def Carries (g : Memo → Memo) (ok : Memo → Prop) (f : Memo → Except Error (List Append × Memo)) :
    Prop :=
  ∀ memo, ok memo →
    f (g memo) = (f memo).map (fun out => (out.1, g out.2)) ∧ Holds (fun out => ok out.2) (f memo)

section

variable {g : Memo → Memo} {ok : Memo → Prop}

theorem Carries.const {x : Except Error (List Append)} :
    Carries g ok fun memo => x >>= fun as => .ok (as, memo) := by
  intro memo hok
  cases x with
  | error e => exact ⟨rfl, fun out h => by cases h⟩
  | ok as => exact ⟨rfl, Holds.ok hok⟩

/-- Two computations one after the other, with their appends joined. -/
theorem Carries.seq {f₁ f₂ : Memo → Except Error (List Append × Memo)} (h₁ : Carries g ok f₁)
    (h₂ : Carries g ok f₂) :
    Carries g ok fun memo => f₁ memo >>= fun out =>
      f₂ out.2 >>= fun rest => .ok (out.1 ++ rest.1, rest.2) := by
  intro memo hok
  obtain ⟨heq, hout⟩ := h₁ memo hok
  dsimp only
  rw [heq]
  cases hf : f₁ memo with
  | error e => exact ⟨rfl, fun out h => by cases h⟩
  | ok out =>
    obtain ⟨heq', hout'⟩ := h₂ out.2 (hout out hf)
    show (f₂ (g out.2) >>= _) = Except.map _ (f₂ out.2 >>= _) ∧ Holds _ (f₂ out.2 >>= _)
    rw [heq']
    cases hf' : f₂ out.2 with
    | error e => exact ⟨rfl, fun out h => by cases h⟩
    | ok rest => exact ⟨rfl, Holds.ok (hout' rest hf')⟩

variable {c : Cluster} {net : Net} {d : Direction} {policyNs : String}

-- only a named port looks at the memo
variable (htext : ∀ port npPort resources cidrs,
  Carries g ok (createSgRuleBodyOnTextPort c net d port npPort resources policyNs cidrs))

include htext

theorem carries_allPods (port : PolicyPort) (cidrs : List String) :
    Carries g ok (createAllPodsSgRules c net d port policyNs cidrs) := by
  unfold createAllPodsSgRules
  cases port.port with
  | text npPort => exact htext port npPort _ cidrs
  | number n =>
    by_cases hc : cidrs = []
    · simp only [hc, ne_eq, not_true_eq_false, if_false]
      exact Carries.const (x := .ok _)
    · simp only [ne_eq, hc, not_false_eq_true, if_true]
      exact Carries.const (x := .ok _)

theorem carries_resourcePort (resources : List Resource) (port : PolicyPort) :
    Carries g ok (resourcePortAppends c net d policyNs resources port) := by
  unfold resourcePortAppends
  cases port.port with
  | text npPort => exact htext port npPort resources []
  | number n => exact Carries.const

theorem carries_port (peers : Peers) (port : PolicyPort) :
    Carries g ok (portAppends c net d policyNs peers port) := by
  have hone := carries_resourcePort htext peers.allowedResources port
  unfold portAppends
  split
  · exact carries_allPods htext port []
  · by_cases hc : peers.allowedCidrs.getD [] = []
    · intro memo hok
      simpa [hc] using hone memo hok
    · simp only [hc, if_false]
      exact hone.seq (carries_allPods htext port (peers.allowedCidrs.getD []))

theorem carries_ports (peers : Peers) : ∀ ports : List PolicyPort,
    Carries g ok (portsAppends c net d policyNs peers ports)
  | [] => Carries.const (x := .ok [])
  | port :: ports => (carries_port htext peers port).seq (carries_ports peers ports)

/-- A block resolves its entries first, which may write to the prefixes. -/
theorem carries_block {block : RuleBlock}
    (hpeers : ∀ memo, ok memo → parseSelectors c net policyNs block (g memo).prefixes =
      (parseSelectors c net policyNs block memo.prefixes).map fun out =>
        (out.1, (g { memo with prefixes := out.2 }).prefixes))
    (hprefixes : ∀ memo q, ok memo → ok { memo with prefixes := q } ∧
      (g { memo with prefixes := q }).podSelector = (g memo).podSelector) :
    Carries g ok (blockAppends c net d policyNs block) := by
  intro memo hok
  unfold blockAppends
  rw [hpeers memo hok]
  cases parseSelectors c net policyNs block memo.prefixes with
  | error e => exact ⟨rfl, fun out h => by cases h⟩
  | ok out =>
    obtain ⟨hok', hsel⟩ := hprefixes memo out.2 hok
    have hmemo : Memo.mk (g memo).podSelector (g ⟨memo.podSelector, out.2⟩).prefixes =
        g ⟨memo.podSelector, out.2⟩ := by rw [← hsel]
    cases hports : block.ports with
    | some ports =>
      simp only [Except.map, bind, Except.bind, hmemo]
      exact carries_ports htext _ ports _ hok'
    | none =>
      simp only [Except.map, bind, Except.bind, hmemo]
      cases resourceAppends c net d none none policyNs
          (out.1.allowedResources ++ ipBlockResources net block) with
      | error e => exact ⟨rfl, fun out h => by cases h⟩
      | ok as => exact ⟨rfl, Holds.ok hok'⟩

end

theorem carries_blocks {g : Memo → Memo} {ok : Memo → Prop} {c : Cluster} {net : Net}
    {d : Direction} {policyNs : String} : ∀ {blocks : List RuleBlock},
    (∀ block ∈ blocks, Carries g ok (blockAppends c net d policyNs block)) →
      Carries g ok (blocksAppends c net d policyNs blocks)
  | [], _ => Carries.const (x := .ok [])
  | block :: _, h => (h block List.mem_cons_self).seq
      (carries_blocks fun b hb => h b (List.mem_cons_of_mem _ hb))

theorem carries_sgRules {g : Memo → Memo} {ok : Memo → Prop} {c : Cluster} {net : Net}
    {d : Direction} {policy : NetworkPolicy}
    (h : ∀ block ∈ policy.spec.blocks d, Carries g ok (blockAppends c net d policy.ns block)) :
    Carries g ok (parseSgRules c net d policy) := by
  have hlist : (policy.spec.ruleList d).getD [] = policy.spec.blocks d := rfl
  unfold parseSgRules
  rw [hlist]
  cases hb : policy.spec.blocks d with
  | nil => cases d <;> exact Carries.const (x := .ok _)
  | cons block blocks => exact Carries.seq (.const (x := .ok _)) (carries_blocks (hb ▸ h))

section

variable {c : Cluster} {net : Net} {d : Direction} {policyNs : String}

/-- The memo once the policy's own selector has been popped. -/
def Memo.popped (memo : Memo) : Memo := { memo with podSelector := memo.podSelector.popHash }

/-- A named ingress port pops the selector itself, so it cannot tell whether that has
happened before. -/
theorem carries_popped_textPort (port : PolicyPort) (npPort : Option String)
    (resources : List Resource) (cidrs : List String) :
    Carries Memo.popped (fun memo => memo.podSelector.PopSafe)
      (createSgRuleBodyOnTextPort c net .ingress port npPort resources policyNs cidrs) := by
  intro memo hsafe
  have hpop := memo.podSelector.popHash_popHash
  unfold createSgRuleBodyOnTextPort
  dsimp only [Memo.popped]
  rw [hsafe.getPods_eq, hpop]
  cases getPods c memo.podSelector (some policyNs) with
  | error e => exact ⟨rfl, fun out h => by cases h⟩
  | ok selected =>
    dsimp only [bind, Except.bind]
    cases runContainerPorts c net .ingress port memo.podSelector.popHash policyNs cidrs Dict.empty
      (selected.flatMap fun p => resources.map fun r => (getContainerPorts npPort p, r)) with
    | error e => exact ⟨rfl, fun out h => by cases h⟩
    | ok out =>
      refine ⟨?_, Holds.ok hsafe.popHash⟩
      show Except.ok _ = Except.ok (_, Memo.mk memo.podSelector.popHash.popHash memo.prefixes)
      rw [hpop]

theorem carries_popped (policy : NetworkPolicy) :
    Carries Memo.popped (fun memo => memo.podSelector.PopSafe)
      (parseSgRules c net .ingress policy) :=
  carries_sgRules fun _ _ => carries_block carries_popped_textPort
    (fun memo _ => by
      dsimp only [Memo.popped]
      cases parseSelectors c net policy.ns _ memo.prefixes <;> rfl)
    (fun _ _ hsafe => ⟨hsafe, rfl⟩)

/-- The memo with other prefixes. -/
def Memo.withPrefixes (q : List String) (memo : Memo) : Memo := { memo with prefixes := q }

theorem carries_withPrefixes_textPort (q : List String) (port : PolicyPort) (npPort : Option String)
    (resources : List Resource) (cidrs : List String) :
    Carries (Memo.withPrefixes q) (fun _ => True)
      (createSgRuleBodyOnTextPort c net d port npPort resources policyNs cidrs) := by
  intro memo _
  refine ⟨?_, Holds.trivial⟩
  unfold createSgRuleBodyOnTextPort
  cases d with
  | ingress =>
    dsimp only [Memo.withPrefixes, bind, Except.bind]
    cases getPods c memo.podSelector (some policyNs) with
    | error e => rfl
    | ok selected =>
      dsimp only
      cases runContainerPorts c net .ingress port memo.podSelector.popHash policyNs cidrs Dict.empty
        (selected.flatMap fun p => resources.map fun r => (getContainerPorts npPort p, r)) <;> rfl
  | egress =>
    dsimp only [Memo.withPrefixes, bind, Except.bind]
    cases runContainerPorts c net .egress port memo.podSelector policyNs cidrs Dict.empty
      ((resources.filter Resource.hasSpec).map fun r => (getPorts c npPort r, r)) <;> rfl

/-- Entries that do not ask for the whole cluster do not touch the prefixes. -/
theorem clusterCidrs_of_no_cluster : ∀ {rules : List Peer}, (∀ rule ∈ rules, rule.kind ≠ .cluster) →
    ∀ acc, clusterCidrs net rules acc = acc
  | [], _, _ => rfl
  | rule :: rules, h, (cidrs, prefixes) => by
    rw [clusterCidrs, if_neg (h rule List.mem_cons_self)]
    exact clusterCidrs_of_no_cluster (fun r hr => h r (List.mem_cons_of_mem _ hr)) _

theorem carries_withPrefixes (q : List String) {policy : NetworkPolicy}
    (h : ∀ block ∈ policy.spec.blocks d, ∀ rule ∈ block.peers.getD [], rule.kind ≠ .cluster) :
    Carries (Memo.withPrefixes q) (fun _ => True) (parseSgRules c net d policy) := by
  refine carries_sgRules fun block hblock => carries_block (carries_withPrefixes_textPort q)
    (fun memo _ => ?_) (fun _ _ _ => ⟨trivial, rfl⟩)
  rw [parseSelectors_eq, parseSelectors_eq]
  cases collect (peerResources c policy.ns) (block.peers.getD []) with
  | error e => rfl
  | ok rs =>
    have hkeeps : ∀ acc, clusterCidrs net (block.peers.getD []) acc = acc :=
      clusterCidrs_of_no_cluster (h block hblock)
    simp only [Except.map, hkeeps, Memo.withPrefixes]

end

/-! ## Named ingress ports leave the selector popped -/

theorem popHash_foldl_selectorAfter : ∀ {ports : List PolicyPort} {s : LabelSelector},
    (s.popHash = s ∨ ∃ port ∈ ports, ∃ name, port.port = .text name) →
      (ports.foldl (selectorAfter .ingress) s).popHash = ports.foldl (selectorAfter .ingress) s
  | [], s, h => by
    rcases h with h | ⟨port, hport, -⟩
    · exact h
    · cases hport
  | port :: ports, s, h => by
    rw [List.foldl_cons]
    refine popHash_foldl_selectorAfter ?_
    cases hp : port.port with
    | text name =>
      left
      simp only [selectorAfter, hp, poppedFor, LabelSelector.popHash_popHash]
    | number n =>
      simp only [selectorAfter, hp]
      refine h.imp_right ?_
      rintro ⟨p, hmem, name, hname⟩
      rcases List.mem_cons.mp hmem with rfl | hmem
      · rw [hp] at hname
        cases hname
      · exact ⟨p, hmem, name, hname⟩

theorem popHash_foldl_memoAfter {net : Net} : ∀ {blocks : List RuleBlock} {memo : Memo},
    (memo.podSelector.popHash = memo.podSelector ∨ ∃ block ∈ blocks, block.NamesPort) →
      (blocks.foldl (fun m block => memoAfter net .ingress block m) memo).popped =
        blocks.foldl (fun m block => memoAfter net .ingress block m) memo
  | [], memo, h => by
    rcases h with h | ⟨block, hblock, -⟩
    · exact congrArg (Memo.mk · memo.prefixes) h
    · cases hblock
  | block :: blocks, memo, h => by
    rw [List.foldl_cons]
    refine popHash_foldl_memoAfter ?_
    by_cases hnames : block.NamesPort
    · exact .inl (popHash_foldl_selectorAfter (.inr hnames))
    · rcases h with h | ⟨b, hb, hname⟩
      · exact .inl (popHash_foldl_selectorAfter (.inl h))
      · rcases List.mem_cons.mp hb with rfl | hb
        · exact absurd hname hnames
        · exact .inr ⟨b, hb, hname⟩

/-! ## Repeating a compilation -/

/-- The policy can be compiled again and again. While the pool is cached, no entry asks
for the whole cluster; and of every selector handed to `get_pods` something is left once
`pod-template-hash` is popped, unless it had no label at all. -/
structure NetworkPolicy.Repeatable (net : Net) (policy : NetworkPolicy) : Prop where
  pool : net.subnetCaching = true →
    ∀ d, ∀ block ∈ policy.spec.blocks d, ∀ rule ∈ block.peers.getD [], rule.kind ≠ .cluster
  peers : ∀ d, ∀ block ∈ policy.spec.blocks d, block.PopSafe
  own : policy.spec.AsksOwnPods → policy.spec.podSelector.PopSafe

section

variable {c : Cluster} {net : Net} {policy policy' : NetworkPolicy} {prefixes : List String}

/-- The ingress blocks, with the selector as it was or as it was left. -/
theorem parseSgRules_ingress_later (h : policy.Later policy') (hr : policy.Repeatable net) :
    parseSgRules c net .ingress policy' ⟨policy'.spec.podSelector, prefixes⟩ =
      parseSgRules c net .ingress policy ⟨policy.spec.podSelector, prefixes⟩ := by
  rw [parseSgRules_later h (hr.peers .ingress)]
  rcases h.podSelector with hsame | ⟨hasks, hpopped⟩
  · rw [hsame]
  · rw [hpopped]
    have hcarry : parseSgRules c net .ingress policy ⟨policy.spec.podSelector.popHash, prefixes⟩ =
        (parseSgRules c net .ingress policy ⟨policy.spec.podSelector, prefixes⟩).map
          fun out => (out.1, out.2.popped) :=
      (carries_popped policy ⟨policy.spec.podSelector, prefixes⟩ (hr.own hasks)).1
    refine Eq.trans hcarry ?_
    cases hok : parseSgRules c net .ingress policy ⟨policy.spec.podSelector, prefixes⟩ with
    | error e => rfl
    | ok out =>
      -- a named port has popped the selector in either case
      have hmemo := (parseSgRules_ok hok).1
      have hpop : out.2.popped = out.2 := by
        rw [hmemo]
        exact popHash_foldl_memoAfter (.inr hasks)
      show Except.ok (out.1, out.2.popped) = Except.ok out
      rw [hpop]

/-- **The compiler cannot tell a repeatable policy from what compilations leave of it.** -/
theorem compile_eq_of_later (h : policy.Later policy') (hr : policy.Repeatable net) :
    compile c net policy' prefixes = compile c net policy prefixes := by
  have hegress : ∀ memo, parseSgRules c net .egress policy' memo =
      parseSgRules c net .egress policy memo := parseSgRules_later h (hr.peers .egress)
  unfold compile parseNetworkPolicyRules
  rw [parseSgRules_ingress_later h hr]
  simp only [hegress]

/-- Without an entry for the whole cluster, the prefixes are not read. -/
theorem compile_prefixes
    (h : ∀ d, ∀ block ∈ policy.spec.blocks d, ∀ rule ∈ block.peers.getD [], rule.kind ≠ .cluster)
    (q : List String) : compile c net policy q = compile c net policy prefixes := by
  have hin : parseSgRules c net .ingress policy ⟨policy.spec.podSelector, q⟩ =
      (parseSgRules c net .ingress policy ⟨policy.spec.podSelector, prefixes⟩).map
        fun out => (out.1, out.2.withPrefixes q) :=
    (carries_withPrefixes q (h .ingress) ⟨policy.spec.podSelector, prefixes⟩ trivial).1
  unfold compile parseNetworkPolicyRules
  rw [hin]
  cases parseSgRules c net .ingress policy ⟨policy.spec.podSelector, prefixes⟩ with
  | error e => rfl
  | ok out =>
    have heg : parseSgRules c net .egress policy (out.2.withPrefixes q) =
        (parseSgRules c net .egress policy out.2).map fun rest => (rest.1, rest.2.withPrefixes q) :=
      (carries_withPrefixes q (h .egress) out.2 trivial).1
    dsimp only [Except.map, bind, Except.bind]
    rw [heg]
    cases parseSgRules c net .egress policy out.2 <;> rfl

end

section

variable {κ : Type} [DecidableEq κ] {net : Net}

/-- What a run leaves of a process: its policies later, and without the cache the same
prefixes. -/
structure Controller.Later (net : Net) (s s' : Controller κ) : Prop where
  policies : ∀ k, (s.policies k).Later (s'.policies k)
  prefixes : net.subnetCaching = false → s'.prefixes = s.prefixes

theorem Controller.Later.compiled {s s' : Controller κ} (h : s.Later net s') (e : κ × Cluster) :
    s.Later net (s'.compiled net e) where
  policies := fun k => by
    by_cases hk : k = e.1
    · subst hk
      show (s.policies e.1).Later (Function.update s'.policies e.1 _ e.1)
      rw [Function.update_self]
      exact networkPolicyLeft_later (h.policies e.1) s'.prefixes
    · show (s.policies k).Later (Function.update s'.policies e.1 _ k)
      rw [Function.update_of_ne hk]
      exact h.policies k
  prefixes := fun hcache =>
    (networkPolicyLeft_uncached hcache (s'.policies e.1) s'.prefixes).trans (h.prefixes hcache)

theorem Controller.Later.run {s : Controller κ} : ∀ (es : List (κ × Cluster)) {s' : Controller κ},
    s.Later net s' → s.Later net (s'.run net es)
  | [], _, h => h
  | e :: es, _, h => Controller.Later.run es (h.compiled e)

theorem Controller.later_run (s : Controller κ) (es : List (κ × Cluster)) :
    s.Later net (s.run net es) :=
  Controller.Later.run es ⟨fun k => (s.policies k).later_refl, fun _ => rfl⟩

/-- **Compilation is repeatable**: compiled first, and again in the same cluster state
after any other compilations, a repeatable policy gives the same rule lists. -/
theorem compile_run_eq (net : Net) (s : Controller κ) (k : κ) (c : Cluster)
    (es : List (κ × Cluster)) (hr : (s.policies k).Repeatable net) :
    (s.run net ((k, c) :: es)).compile net c k = s.compile net c k := by
  have hlater : s.Later net (s.run net ((k, c) :: es)) := s.later_run ((k, c) :: es)
  refine (compile_eq_of_later (hlater.policies k) hr).trans ?_
  cases hcache : net.subnetCaching with
  | false => rw [hlater.prefixes hcache, Controller.compile]
  | true => exact compile_prefixes (hr.pool hcache) _

end

/-- An entry for the whole cluster. -/
def everywherePeer : Peer := ⟨some LabelSelector.none, none, none⟩

/-- An entry for the pods of one rollout. -/
def rolloutPeer : Peer :=
  ⟨none, some ⟨some ⟨[(podTemplateHash, "5c4f")], by decide⟩, none⟩, none⟩

/-- Three policies: ingress from the `app: web` pods, from the whole cluster, and from one
rollout. -/
def sampleController : Controller (Fin 3) where
  policies := fun k => ingressPolicy webSelector
    [⟨some [[⟨none, some webSelector, none⟩, everywherePeer, rolloutPeer].get k], none⟩]
  prefixes := ["10.0.0.0/16"]

theorem sampleController_web_repeatable : (sampleController.policies 0).Repeatable sampleNet where
  pool := fun _ d block hblock rule hrule => by
    cases d with
    | ingress =>
      cases List.mem_singleton.mp hblock
      cases List.mem_singleton.mp hrule
      decide
    | egress => cases hblock
  peers := fun d block hblock rule hrule s hs => by
    cases d with
    | ingress =>
      cases List.mem_singleton.mp hblock
      cases List.mem_singleton.mp hrule
      cases hs
      decide
    | egress => cases hblock
  own := fun _ => by decide

theorem compile_run_web :
    (sampleController.run sampleNet [(0, clusterWith (some webLabels)),
      (1, clusterWith (some webLabels)), (2, clusterWith none)]).compile sampleNet
        (clusterWith (some webLabels)) 0 =
      sampleController.compile sampleNet (clusterWith (some webLabels)) 0 :=
  compile_run_eq sampleNet sampleController 0 (clusterWith (some webLabels))
    [(1, clusterWith (some webLabels)), (2, clusterWith none)] sampleController_web_repeatable

/-- The second compilation of the whole-cluster policy finds the service subnet in the
cached list and appends it again; that of the rollout policy sends an empty selector,
which the server refuses. -/
theorem compile_run_differs :
    (sampleController.run sampleNet [(1, clusterWith none)]).compile sampleNet
      (clusterWith none) 1 ≠
        sampleController.compile sampleNet (clusterWith none) 1 ∧
      (sampleController.run sampleNet [(2, clusterWith none)]).compile sampleNet
        (clusterWith none) 2 ≠
        sampleController.compile sampleNet (clusterWith none) 2 := by
  constructor <;> decide +kernel

end KuryrKubernetes
