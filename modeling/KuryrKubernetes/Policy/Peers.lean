import KuryrKubernetes.Policy.DefaultRules

/-!
# The peers of a rule block

What `_parse_selectors` returns, entry by entry, against the documented selector
table (devref/network_policy.rst:477–491).

- `Peer.kind` reads an entry the way the table does.
- `parseSelectors_eq` takes the loop apart: the resources are those of the entries
  one after the other, the cluster CIDRs do not depend on the cluster state.
- `peerResources_eq` says what one entry looks up. With both selectors given, only
  the pods of the last matching namespace are kept.
- `parseSelectors_denotes_iff` compares the result with the table.
-/

namespace KuryrKubernetes

open Dicts LabelSelectors Results

/-! ## Entries -/

/-- The rows of the selector table; an entry with neither selector is an IP
block. -/
inductive PeerKind where
  | ipBlock
  | cluster
  | podsEverywhere (podSelector : LabelSelector)
  | podsOf (nsSelector podSelector : LabelSelector)
  | namespaces (nsSelector : LabelSelector)
  | ownNamespace
  | ownPods (podSelector : LabelSelector)
deriving DecidableEq, Repr

/-- The row of an entry. -/
def Peer.kind (rule : Peer) : PeerKind :=
  if rule.namespaceSelector = some LabelSelector.none then
    match truthy rule.podSelector with
    | some podSelector => .podsEverywhere podSelector
    | none => .cluster
  else
    match truthy rule.namespaceSelector with
    | some nsSelector =>
      match truthy rule.podSelector with
      | some podSelector => .podsOf nsSelector podSelector
      | none => .namespaces nsSelector
    | none =>
      match rule.podSelector with
      | none => .ipBlock
      | some podSelector =>
        if podSelector = LabelSelector.none then .ownNamespace else .ownPods podSelector

/-- The resources one entry adds. -/
def peerResources (c : Cluster) (policyNs : String) (rule : Peer) : Except Error (List Resource) :=
  match rule.kind with
  | .ipBlock | .cluster => .ok []
  | .podsEverywhere podSelector => do
    let pods ← getPods c podSelector none
    return pods.map .pod
  | .podsOf nsSelector podSelector => do
    let namespaces ← getNamespaces c nsSelector
    let pods ← getPodsInNamespaces c podSelector [] namespaces
    return pods.map .pod
  | .namespaces nsSelector => do
    let namespaces ← getNamespaces c nsSelector
    return namespaces.map .namespace
  | .ownNamespace => do
    let ns ← c.namespace? policyNs
    return [.namespace ns]
  | .ownPods podSelector => do
    let pods ← getPods c podSelector (some policyNs)
    return pods.map .pod

/-- The cluster CIDRs after some entries, and the prefixes of the pool. -/
def clusterCidrs (net : Net) : List Peer → Option (List String) × List String →
    Option (List String) × List String
  | [], acc => acc
  | rule :: rules, (cidrs, prefixes) =>
    if rule.kind = .cluster then
      clusterCidrs net rules (some (prefixes ++ [net.serviceSubnet]),
        if net.subnetCaching then prefixes ++ [net.serviceSubnet] else prefixes)
    else clusterCidrs net rules (cidrs, prefixes)

/-- Some entry is not just an IP block. -/
def selectorsGiven (rules : List Peer) : Bool := rules.any (·.kind ≠ .ipBlock)

section

variable {c : Cluster} {net : Net} {policyNs : String}

/-- One iteration of the loop, by the row of its entry. -/
theorem parsePeer_eq (rule : Peer) (peers : Peers) (prefixes : List String) :
    parsePeer c net policyNs rule (peers, prefixes) =
      (peerResources c policyNs rule).map fun rs =>
        let acc := clusterCidrs net [rule] (peers.allowedCidrs, prefixes)
        (⟨acc.1, peers.selectors || selectorsGiven [rule], peers.allowedResources ++ rs⟩,
          acc.2) := by
  obtain ⟨cidrs, sel, res⟩ := peers
  -- in every row: the loop body makes the requests of `peerResources`, in the same order
  have hrow : ∀ (x : Except Error (List Resource)) (b : Bool), selectorsGiven [rule] = b →
      rule.kind ≠ .cluster → peerResources c policyNs rule = x →
      (parsePeer c net policyNs rule (⟨cidrs, sel, res⟩, prefixes) =
        x.map fun rs => (⟨cidrs, sel || b, res ++ rs⟩, prefixes)) →
      parsePeer c net policyNs rule (⟨cidrs, sel, res⟩, prefixes) =
        (peerResources c policyNs rule).map fun rs =>
          (⟨(clusterCidrs net [rule] (cidrs, prefixes)).1, sel || selectorsGiven [rule], res ++ rs⟩,
            (clusterCidrs net [rule] (cidrs, prefixes)).2) := by
    intro x b hb hk hx hp
    rw [hp, hx, hb]
    simp [clusterCidrs, hk]
  show parsePeer c net policyNs rule (⟨cidrs, sel, res⟩, prefixes) = _
  obtain ⟨nsSel, podSel, block⟩ := rule
  by_cases hns : nsSel = some LabelSelector.none
  · cases hpod : truthy podSel with
    | none =>
      subst hns
      have hk : (Peer.mk (some LabelSelector.none) podSel block).kind = .cluster := by
        simp [Peer.kind, hpod]
      have hres : peerResources c policyNs ⟨some LabelSelector.none, podSel, block⟩ = .ok [] := by
        rw [peerResources, hk]
      rw [hres]
      simp [parsePeer, hpod, hk, clusterCidrs, selectorsGiven, Except.map]
    | some s =>
      have hk : (Peer.mk nsSel podSel block).kind = .podsEverywhere s := by
        simp [Peer.kind, hns, hpod]
      refine hrow _ true (by simp [selectorsGiven, hk]) (by simp [hk])
        (by rw [peerResources, hk]) ?_
      simp only [parsePeer, hns, if_true, hpod, Bool.or_true]
      cases getPods c s none <;> rfl
  · cases hns' : truthy nsSel with
    | some n =>
      cases hpod : truthy podSel with
      | none =>
        have hk : (Peer.mk nsSel podSel block).kind = .namespaces n := by
          simp [Peer.kind, hns, hns', hpod]
        refine hrow _ true (by simp [selectorsGiven, hk]) (by simp [hk])
          (by rw [peerResources, hk]) ?_
        simp only [parsePeer, hns, if_false, hns', hpod, Bool.or_true]
        cases getNamespaces c n <;> rfl
      | some s =>
        have hk : (Peer.mk nsSel podSel block).kind = .podsOf n s := by
          simp [Peer.kind, hns, hns', hpod]
        refine hrow _ true (by simp [selectorsGiven, hk]) (by simp [hk])
          (by rw [peerResources, hk]) ?_
        simp only [parsePeer, hns, if_false, hns', hpod, Bool.or_true]
        cases getNamespaces c n with
        | error e => rfl
        | ok nss =>
          show (getPodsInNamespaces c s [] nss >>= _) =
            Except.map _ (getPodsInNamespaces c s [] nss >>= _)
          cases getPodsInNamespaces c s [] nss <;> rfl
    | none =>
      cases podSel with
      | none =>
        have hk : (Peer.mk nsSel none block).kind = .ipBlock := by simp [Peer.kind, hns, hns']
        refine hrow _ false (by simp [selectorsGiven, hk]) (by simp [hk])
          (by rw [peerResources, hk]) ?_
        simp [parsePeer, hns, hns', Except.map]
      | some s =>
        by_cases hs : s = LabelSelector.none
        · have hk : (Peer.mk nsSel (some s) block).kind = .ownNamespace := by
            simp [Peer.kind, hns, hns', hs]
          refine hrow _ true (by simp [selectorsGiven, hk]) (by simp [hk])
            (by rw [peerResources, hk]) ?_
          simp only [parsePeer, hns, if_false, hns', hs, if_true, Bool.or_true]
          cases c.namespace? policyNs <;> rfl
        · have hk : (Peer.mk nsSel (some s) block).kind = .ownPods s := by
            simp [Peer.kind, hns, hns', hs]
          refine hrow _ true (by simp [selectorsGiven, hk]) (by simp [hk])
            (by rw [peerResources, hk]) ?_
          simp only [parsePeer, hns, if_false, hns', hs, Bool.or_true]
          cases getPods c s (some policyNs) <;> rfl

theorem parsePeers_eq :
    ∀ (rules : List Peer) (peers : Peers) (prefixes : List String),
      parsePeers c net policyNs rules (peers, prefixes) =
        (collect (peerResources c policyNs) rules).map fun rs =>
          let acc := clusterCidrs net rules (peers.allowedCidrs, prefixes)
          (⟨acc.1, peers.selectors || selectorsGiven rules, peers.allowedResources ++ rs⟩, acc.2)
  | [], peers, prefixes => by
    simp [parsePeers, collect, Except.map, clusterCidrs, selectorsGiven]
  | rule :: rules, peers, prefixes => by
    have hstep : ∀ acc, clusterCidrs net (rule :: rules) acc
        = clusterCidrs net rules (clusterCidrs net [rule] acc) := by
      rintro ⟨cidrs, prefixes⟩
      by_cases hk : rule.kind = .cluster <;> simp [clusterCidrs, hk]
    have hsel : selectorsGiven (rule :: rules) =
      (selectorsGiven [rule] || selectorsGiven rules) := by
      simp [selectorsGiven]
    rw [parsePeers, parsePeer_eq, collect, hstep, hsel]
    cases peerResources c policyNs rule with
    | error e => rfl
    | ok rs =>
      show parsePeers c net policyNs rules _ = Except.map _ (collect _ rules >>= _)
      rw [parsePeers_eq rules]
      cases collect (peerResources c policyNs) rules with
      | error e => rfl
      | ok rest => simp [Except.map, bind, Except.bind, pure, Except.pure, Bool.or_assoc]

/-- **The loop, taken apart.** -/
theorem parseSelectors_eq (block : RuleBlock) (prefixes : List String) :
    parseSelectors c net policyNs block prefixes =
      (collect (peerResources c policyNs) (block.peers.getD [])).map fun rs =>
        let acc := clusterCidrs net (block.peers.getD []) (none, prefixes)
        (⟨acc.1, selectorsGiven (block.peers.getD []), rs⟩, acc.2) := by
  rw [parseSelectors, parsePeers_eq]
  simp

end

/-! ## What an entry looks up -/

/-- A selector of an entry as the API server admits it. -/
structure Peer.Admitted (rule : Peer) : Prop where
  namespaceSelector : ∀ s, rule.namespaceSelector = some s → s.Admitted
  podSelector : ∀ s, rule.podSelector = some s → s.Admitted

/-- The selectors of a row can be rendered. -/
def PeerKind.Renderable : PeerKind → Prop
  | .ipBlock | .cluster | .ownNamespace => True
  | .podsEverywhere s | .ownPods s | .namespaces s => s.Renderable
  | .podsOf n s => n.Renderable ∧ s.Renderable

theorem truthy_eq_some {o : Option LabelSelector} {s : LabelSelector} (h : truthy o = some s) :
    o = some s ∧ s ≠ LabelSelector.none := by
  rw [truthy, Option.filter_eq_some_iff] at h
  exact ⟨h.1, by simpa using h.2⟩

theorem Peer.Admitted.renderable {rule : Peer} (h : rule.Admitted) : rule.kind.Renderable := by
  have hns : ∀ s, truthy rule.namespaceSelector = some s → s.Renderable := fun s hs =>
    (h.namespaceSelector s (truthy_eq_some hs).1).renderable (truthy_eq_some hs).2
  have hpod : ∀ s, truthy rule.podSelector = some s → s.Renderable := fun s hs =>
    (h.podSelector s (truthy_eq_some hs).1).renderable (truthy_eq_some hs).2
  unfold Peer.kind
  split
  · cases hp : truthy rule.podSelector with
    | none => trivial
    | some s => exact hpod s hp
  · cases hn : truthy rule.namespaceSelector with
    | some n =>
      cases hp : truthy rule.podSelector with
      | none => exact hns n hn
      | some s => exact ⟨hns n hn, hpod s hp⟩
    | none =>
      cases hp : rule.podSelector with
      | none => trivial
      | some s =>
        by_cases hs : s = LabelSelector.none
        · simp only [hs, if_true]
          trivial
        · simp only [hs, if_false]
          exact (h.podSelector s hp).renderable hs

/-- Something is left to send once the label is popped. -/
def LabelSelector.SurvivesPop (s : LabelSelector) : Prop :=
  s.popHash.labelItems ≠ [] ∨ s.expressions ≠ []

instance (s : LabelSelector) : Decidable s.SurvivesPop :=
  inferInstanceAs (Decidable (_ ∨ _))

theorem LabelSelector.Renderable.popHash {s : LabelSelector} (hs : s.Renderable)
    (h : s.SurvivesPop) : s.popHash.Renderable :=
  ⟨fun r hr => hs.valid r (LabelSelector.mem_popHash_requirements hr), h⟩

/-- The pods of a namespace that a popped selector selects. -/
def podsSelected (c : Cluster) (s : LabelSelector) (ns : Option String) : List Pod :=
  (c.podsIn ns).filter fun p => s.popHash.Selects p.labels

section

variable {c : Cluster} {net : Net} {policyNs : String}

theorem getPods_emptied_popHash {s : LabelSelector} (hs : s.Renderable) (h : ¬ s.SurvivesPop)
    (ns : Option String) : getPods c s.popHash ns = .error .badRequest := by
  rw [LabelSelector.SurvivesPop, not_or, not_not, not_not] at h
  obtain ⟨ml, me⟩ := s
  cases ml with
  | none => exact absurd h.2 (hs.nonempty.resolve_left fun hl => hl rfl)
  | some d =>
    have hd : d.erase podTemplateHash = Dict.empty := Dict.ext h.1
    exact getPods_emptied c (s := LabelSelector.popHash ⟨some d, me⟩) (congrArg some hd) h.2 ns

/-- After the first request the selector no longer changes. -/
theorem getPodsInNamespaces_popped {s : LabelSelector} (hs : s.Renderable) (hpop : s.popHash = s)
    (hacc : s.acceptable = true) :
    ∀ (nss : List Namespace) (matching : List Pod),
      getPodsInNamespaces c s matching nss =
        .ok (nss.getLast?.elim matching fun n => podsSelected c s (some n.name))
  | [], _ => rfl
  | n :: nss, matching => by
    rw [getPodsInNamespaces, getPods_eq c hs, if_pos hacc, hpop]
    show getPodsInNamespaces c s _ nss = _
    rw [getPodsInNamespaces_popped hs hpop hacc nss, List.getLast?_cons]
    cases nss.getLast? with
    | none => simp [podsSelected, hpop]
    | some m => rfl

/-- The namespaces can all be asked for their pods: the server accepts the value
lists, and a selector with nothing but the popped label is asked for once only. -/
def CanAsk (s : LabelSelector) (nss : List Namespace) : Prop :=
  nss = [] ∨ (s.acceptable = true ∧ (nss.length = 1 ∨ s.SurvivesPop))

/-- **The pods of the last namespace** are what the loop keeps. -/
theorem getPodsInNamespaces_eq {s : LabelSelector} (hs : s.Renderable) (nss : List Namespace) :
    (CanAsk s nss → getPodsInNamespaces c s [] nss =
      .ok (nss.getLast?.elim [] fun n => podsSelected c s (some n.name))) ∧
    (¬ CanAsk s nss → getPodsInNamespaces c s [] nss = .error .badRequest) := by
  cases nss with
  | nil => exact ⟨fun _ => rfl, fun h => absurd (.inl rfl) h⟩
  | cons n nss =>
    rw [getPodsInNamespaces, getPods_eq c hs]
    by_cases hacc : s.acceptable = true
    · rw [if_pos hacc]
      show (CanAsk s (n :: nss) → getPodsInNamespaces c s.popHash _ nss = _) ∧
        (¬ CanAsk s (n :: nss) → getPodsInNamespaces c s.popHash _ nss = _)
      by_cases hsend : s.SurvivesPop
      · refine ⟨fun _ => ?_, fun h => absurd (.inr ⟨hacc, .inr hsend⟩) h⟩
        rw [getPodsInNamespaces_popped (hs.popHash hsend) s.popHash_popHash
          (s.popHash_acceptable.trans hacc), List.getLast?_cons]
        cases nss.getLast? with
        | none => rfl
        | some m => simp [podsSelected]
      · cases nss with
        | nil => exact ⟨fun _ => rfl, fun h => absurd (.inr ⟨hacc, .inl rfl⟩) h⟩
        | cons m nss =>
          refine ⟨fun h => ?_, fun _ => ?_⟩
          · rcases h with h | ⟨-, h | h⟩
            · cases h
            · simp at h
            · exact absurd h hsend
          · rw [getPodsInNamespaces, getPods_emptied_popHash hs hsend]
            rfl
    · rw [if_neg hacc]
      refine ⟨fun h => ?_, fun _ => rfl⟩
      rcases h with h | ⟨h, -⟩
      · cases h
      · exact absurd h hacc

/-- The namespaces a selector selects. -/
def namespacesSelected (c : Cluster) (s : LabelSelector) : List Namespace :=
  c.namespaces.filter fun n => s.Selects n.labels

/-- The requests of an entry succeed. -/
def Served (c : Cluster) (policyNs : String) (rule : Peer) : Prop :=
  match rule.kind with
  | .ipBlock | .cluster => True
  | .podsEverywhere s | .ownPods s | .namespaces s => s.acceptable = true
  | .podsOf n s => n.acceptable = true ∧ CanAsk s (namespacesSelected c n)
  | .ownNamespace => policyNs ∈ c.namespaces.map Namespace.name

/-- What an entry looks up, as the code does. -/
def Found (c : Cluster) (policyNs : String) (rule : Peer) (r : Resource) : Prop :=
  match rule.kind with
  | .ipBlock | .cluster => False
  | .podsEverywhere s => ∃ p ∈ podsSelected c s none, r = .pod p
  | .podsOf n s => ∃ m, (namespacesSelected c n).getLast? = some m ∧
      ∃ p ∈ podsSelected c s (some m.name), r = .pod p
  | .namespaces n => ∃ m ∈ namespacesSelected c n, r = .namespace m
  | .ownNamespace => ∃ m ∈ c.namespaces, m.name = policyNs ∧ r = .namespace m
  | .ownPods s => ∃ p ∈ podsSelected c s (some policyNs), r = .pod p

/-- **The resources of one entry.** -/
theorem peerResources_eq {rule : Peer} (hr : rule.Admitted) :
    (Served c policyNs rule →
      ∃ rs, peerResources c policyNs rule = .ok rs ∧ ∀ r, r ∈ rs ↔ Found c policyNs rule r) ∧
    (¬ Served c policyNs rule → ∃ e, peerResources c policyNs rule = .error e) := by
  have hrend := hr.renderable
  unfold Served Found peerResources
  cases hk : rule.kind with
  | ipBlock => simp
  | cluster => simp
  | podsEverywhere s =>
    rw [hk] at hrend
    simp only [getPods_eq c hrend]
    refine ⟨fun h => ⟨(podsSelected c s none).map .pod, by simp only [if_pos h]; rfl,
      fun r => by simp [eq_comm]⟩, fun h => ⟨_, by simp only [if_neg h]; rfl⟩⟩
  | ownPods s =>
    rw [hk] at hrend
    simp only [getPods_eq c hrend]
    refine ⟨fun h => ⟨(podsSelected c s (some policyNs)).map .pod, by simp only [if_pos h]; rfl,
      fun r => by simp [eq_comm]⟩, fun h => ⟨_, by simp only [if_neg h]; rfl⟩⟩
  | namespaces n =>
    rw [hk] at hrend
    simp only [getNamespaces_eq c hrend]
    refine ⟨fun h => ⟨(namespacesSelected c n).map .namespace, by simp only [if_pos h]; rfl,
      fun r => by simp [eq_comm]⟩, fun h => ⟨_, by simp only [if_neg h]; rfl⟩⟩
  | ownNamespace =>
    constructor
    · intro h
      obtain ⟨m, hm, hname, hok⟩ := Cluster.namespace?_ok h
      refine ⟨[.namespace m], by simp only [hok]; rfl, fun r => ?_⟩
      rw [List.mem_singleton]
      constructor
      · rintro rfl
        exact ⟨m, hm, hname, rfl⟩
      · rintro ⟨m', hm', hname', rfl⟩
        rw [c.namespace_ext hm' hm (hname'.trans hname.symm)]
    · intro h
      cases hok : c.namespace? policyNs with
      | error e => exact ⟨e, rfl⟩
      | ok m => exact absurd (List.mem_map.mpr ⟨m, Cluster.mem_of_namespace? hok⟩) h
  | podsOf n s =>
    rw [hk] at hrend
    have hloop := getPodsInNamespaces_eq (c := c) hrend.2 (namespacesSelected c n)
    simp only [getNamespaces_eq c hrend.1]
    constructor
    · rintro ⟨hacc, hask⟩
      refine ⟨((namespacesSelected c n).getLast?.elim [] fun m =>
        podsSelected c s (some m.name)).map .pod, ?_, fun r => ?_⟩
      · simp only [if_pos hacc]
        show (getPodsInNamespaces c s [] (namespacesSelected c n) >>= _) = _
        -- the loop over the namespaces keeps the pods of the last one
        rw [hloop.1 hask]
        rfl
      · cases (namespacesSelected c n).getLast? with
        | none => simp
        | some m => simp [eq_comm]
    · intro h
      by_cases hacc : n.acceptable = true
      · refine ⟨.badRequest, ?_⟩
        simp only [if_pos hacc]
        show (getPodsInNamespaces c s [] (namespacesSelected c n) >>= _) = _
        rw [hloop.2 fun hask => h ⟨hacc, hask⟩]
        rfl
      · exact ⟨.badRequest, by simp only [if_neg hacc]; rfl⟩

/-- The requests of an entry that succeeds are served. -/
theorem served_of_ok {rule : Peer} (hr : rule.Admitted) {l : List Resource}
    (h : peerResources c policyNs rule = .ok l) : Served c policyNs rule := by
  by_contra hn
  obtain ⟨e, he⟩ := (peerResources_eq hr).2 hn
  rw [h] at he
  cases he

/-! ## Against the table -/

/-- What the table says an entry stands for. -/
def Documented (c : Cluster) (net : Net) (prefixes : List String) (policyNs : String) (rule : Peer)
    (r : Resource) : Prop :=
  match rule.kind with
  | .ipBlock => False
  | .cluster => ∃ x, (x ∈ prefixes ∨ x = net.serviceSubnet) ∧ r = .cidr x
  | .podsEverywhere s => ∃ p ∈ c.pods, s.Selects p.labels = true ∧ r = .pod p
  | .podsOf n s => ∃ p ∈ c.pods, s.Selects p.labels = true ∧
      (∃ m ∈ c.namespaces, n.Selects m.labels = true ∧ m.name = p.ns) ∧ r = .pod p
  | .namespaces n => ∃ m ∈ c.namespaces, n.Selects m.labels = true ∧ r = .namespace m
  | .ownNamespace => ∃ m ∈ c.namespaces, m.name = policyNs ∧ r = .namespace m
  | .ownPods s => ∃ p ∈ c.pods, s.Selects p.labels = true ∧ p.ns = policyNs ∧ r = .pod p

/-- What the returned peers denote. -/
def Peers.Denotes (peers : Peers) (r : Resource) : Prop :=
  r ∈ peers.allowedResources ∨ ∃ x ∈ peers.allowedCidrs.getD [], r = .cidr x

/-- The peers are returned and denote the union of the entries. -/
def PeersAsDocumented (c : Cluster) (net : Net) (prefixes : List String) (policyNs : String)
    (block : RuleBlock) : Prop :=
  ∃ peers prefixes', parseSelectors c net policyNs block prefixes = .ok (peers, prefixes') ∧
    ∀ r, peers.Denotes r ↔ ∃ rule ∈ block.peers.getD [], Documented c net prefixes policyNs rule r

/-- A pod the table includes and the code passes over: it lives in a matching
namespace that is not the last one. -/
def Skipped (c : Cluster) (rule : Peer) (p : Pod) : Prop :=
  match rule.kind with
  | .podsOf n s => p ∈ c.pods ∧ s.Selects p.labels = true ∧
      (∃ m ∈ namespacesSelected c n, m.name = p.ns) ∧
      ∀ m, (namespacesSelected c n).getLast? = some m → m.name ≠ p.ns
  | _ => False

/-- The pod selector of an entry refuses the pod. -/
def PeerKind.Refuses (k : PeerKind) (p : Pod) : Prop :=
  match k with
  | .podsEverywhere s | .ownPods s | .podsOf _ s => s.Selects p.labels = false
  | _ => False

/-- A pod the code includes and the table does not: only without the popped label
does the selector select it. -/
def Surplus (c : Cluster) (policyNs : String) (rule : Peer) (p : Pod) : Prop :=
  Found c policyNs rule (.pod p) ∧ rule.kind.Refuses p

theorem selects_popHash {s : LabelSelector} {labels : Option Labels}
    (h : s.Selects labels = true) : s.popHash.Selects labels = true := by
  obtain ⟨hl, he⟩ := selects_iff.mp h
  exact selects_iff.mpr ⟨fun e hmem => hl e (LabelSelector.mem_popHash_labelItems.mp hmem).1, he⟩

theorem mem_podsSelected {s : LabelSelector} {ns : Option String} {p : Pod} :
    p ∈ podsSelected c s ns ↔
      p ∈ c.pods ∧ (∀ n, ns = some n → p.ns = n) ∧ s.popHash.Selects p.labels = true := by
  unfold podsSelected Cluster.podsIn
  cases ns with
  | none => simp
  | some n => simp [and_comm]

theorem mem_namespacesSelected {s : LabelSelector} {n : Namespace} :
    n ∈ namespacesSelected c s ↔ n ∈ c.namespaces ∧ s.Selects n.labels = true := by
  simp [namespacesSelected]

/-- An entry that is documented to give a resource looks it up, or skips it. -/
theorem Documented.found {prefixes : List String} {rule : Peer} {r : Resource}
    (h : Documented c net prefixes policyNs rule r) (hc : rule.kind ≠ .cluster) :
    Found c policyNs rule r ∨ ∃ p, r = .pod p ∧ Skipped c rule p := by
  unfold Documented at h
  unfold Found Skipped
  cases hk : rule.kind with
  | ipBlock => simp [hk] at h
  | cluster => exact absurd hk hc
  | podsEverywhere s =>
    simp only [hk] at h ⊢
    obtain ⟨p, hp, hsel, rfl⟩ := h
    exact .inl ⟨p, mem_podsSelected.mpr ⟨hp, fun _ hn => (nomatch hn), selects_popHash hsel⟩, rfl⟩
  | ownPods s =>
    simp only [hk] at h ⊢
    obtain ⟨p, hp, hsel, hns, rfl⟩ := h
    refine .inl ⟨p, mem_podsSelected.mpr ⟨hp, fun n hn => ?_, selects_popHash hsel⟩, rfl⟩
    cases hn
    exact hns
  | namespaces n =>
    simp only [hk] at h ⊢
    obtain ⟨m, hm, hsel, rfl⟩ := h
    exact .inl ⟨m, mem_namespacesSelected.mpr ⟨hm, hsel⟩, rfl⟩
  | ownNamespace =>
    simp only [hk] at h ⊢
    exact .inl h
  | podsOf n s =>
    simp only [hk] at h ⊢
    obtain ⟨p, hp, hsel, ⟨m, hm, hnsel, hname⟩, rfl⟩ := h
    have hmem := mem_namespacesSelected.mpr ⟨hm, hnsel⟩
    -- the namespace of the pod is the last matching one, or it is not
    by_cases hlast : ∀ m', (namespacesSelected c n).getLast? = some m' → m'.name ≠ p.ns
    · exact .inr ⟨p, rfl, hp, hsel, ⟨m, hmem, hname⟩, hlast⟩
    · push Not at hlast
      obtain ⟨m', hm', hname'⟩ := hlast
      refine .inl ⟨m', hm', p, mem_podsSelected.mpr ⟨hp, fun n hn => ?_, selects_popHash hsel⟩, rfl⟩
      cases hn
      exact hname'.symm

/-- What an entry looks up is documented, or surplus. -/
theorem Found.documented (net : Net) (prefixes : List String) {rule : Peer} {r : Resource}
    (h : Found c policyNs rule r) :
    Documented c net prefixes policyNs rule r ∨ ∃ p, r = .pod p ∧ Surplus c policyNs rule p := by
  have h0 := h
  unfold Found at h
  unfold Documented Surplus
  cases hk : rule.kind with
  | ipBlock => simp [hk] at h
  | cluster => simp [hk] at h
  | podsEverywhere s =>
    simp only [hk] at h ⊢
    obtain ⟨p, hp, rfl⟩ := h
    obtain ⟨hp, -, -⟩ := mem_podsSelected.mp hp
    cases hsel : s.Selects p.labels with
    | true => exact .inl ⟨p, hp, hsel, rfl⟩
    | false => exact .inr ⟨p, rfl, h0, hsel⟩
  | ownPods s =>
    simp only [hk] at h ⊢
    obtain ⟨p, hp, rfl⟩ := h
    obtain ⟨hp, hns, -⟩ := mem_podsSelected.mp hp
    cases hsel : s.Selects p.labels with
    | true => exact .inl ⟨p, hp, hsel, hns _ rfl, rfl⟩
    | false => exact .inr ⟨p, rfl, h0, hsel⟩
  | namespaces n =>
    simp only [hk] at h ⊢
    obtain ⟨m, hm, rfl⟩ := h
    obtain ⟨hm, hsel⟩ := mem_namespacesSelected.mp hm
    exact .inl ⟨m, hm, hsel, rfl⟩
  | ownNamespace =>
    simp only [hk] at h ⊢
    exact .inl h
  | podsOf n s =>
    simp only [hk] at h ⊢
    obtain ⟨m, hm, p, hp, rfl⟩ := h
    obtain ⟨hp, hns, -⟩ := mem_podsSelected.mp hp
    obtain ⟨hm, hnsel⟩ := mem_namespacesSelected.mp (List.mem_of_getLast? hm)
    cases hsel : s.Selects p.labels with
    | true => exact .inl ⟨p, hp, hsel, ⟨m, hm, hnsel, (hns _ rfl).symm⟩, rfl⟩
    | false => exact .inr ⟨p, rfl, h0, hsel⟩

/-- A skipped pod is documented. -/
theorem Skipped.documented {prefixes : List String} {rule : Peer} {p : Pod}
    (h : Skipped c rule p) : Documented c net prefixes policyNs rule (.pod p) := by
  unfold Skipped at h
  unfold Documented
  cases hk : rule.kind with
  | podsOf n s =>
    simp only [hk] at h ⊢
    obtain ⟨hp, hsel, ⟨m, hm, hname⟩, -⟩ := h
    obtain ⟨hm, hnsel⟩ := mem_namespacesSelected.mp hm
    exact ⟨p, hp, hsel, ⟨m, hm, hnsel, hname⟩, rfl⟩
  | _ => simp [hk] at h

theorem mem_clusterCidrs {x : String} :
    ∀ (rules : List Peer) (cidrs : Option (List String)) (prefixes : List String),
      x ∈ (clusterCidrs net rules (cidrs, prefixes)).1.getD [] ↔
        if rules.any (·.kind = .cluster) then x ∈ prefixes ∨ x = net.serviceSubnet
        else x ∈ cidrs.getD []
  | [], _, _ => by simp [clusterCidrs]
  | rule :: rules, cidrs, prefixes => by
    by_cases hk : rule.kind = .cluster
    · simp only [clusterCidrs, hk, if_true, mem_clusterCidrs rules, List.any_cons,
        decide_true, Bool.true_or]
      cases net.subnetCaching <;> split <;> simp
    · simp [clusterCidrs, hk, mem_clusterCidrs rules]

/-- The entries of a block whose peers come out as documented: the requests
succeed, and what one entry skips or adds is made good by another. -/
structure PeersSupported (c : Cluster) (net : Net) (prefixes : List String) (policyNs : String)
    (rules : List Peer) : Prop where
  served : ∀ rule ∈ rules, Served c policyNs rule
  skipped : ∀ rule ∈ rules, ∀ p, Skipped c rule p →
    ∃ rule' ∈ rules, Found c policyNs rule' (.pod p)
  surplus : ∀ rule ∈ rules, ∀ p, Surplus c policyNs rule p →
    ∃ rule' ∈ rules, Documented c net prefixes policyNs rule' (.pod p)

/-- What the returned peers denote, entry by entry. -/
theorem denotes_iff {rules : List Peer} {rs : List Resource} {prefixes : List String}
    (hrules : ∀ rule ∈ rules, rule.Admitted)
    (hrs : collect (peerResources c policyNs) rules = .ok rs) (r : Resource) :
    Peers.Denotes ⟨(clusterCidrs net rules (none, prefixes)).1, selectorsGiven rules, rs⟩ r ↔
      (∃ rule ∈ rules, Found c policyNs rule r) ∨
      ∃ rule ∈ rules, rule.kind = .cluster ∧ Documented c net prefixes policyNs rule r := by
  obtain ⟨hall, hmem⟩ := mem_collect hrs
  have hfound : r ∈ rs ↔ ∃ rule ∈ rules, Found c policyNs rule r := by
    rw [hmem]
    refine exists_congr fun rule => and_congr_right fun hrule => ?_
    obtain ⟨l, hl⟩ := hall rule hrule
    obtain ⟨l', hl', hiff⟩ :=
      (peerResources_eq (hrules rule hrule)).1 (served_of_ok (hrules rule hrule) hl)
    rw [hl'] at hl
    cases hl
    simp [hl', hiff]
  have hcidr : (∃ x ∈ (clusterCidrs net rules (none, prefixes)).1.getD [], r = .cidr x) ↔
      ∃ rule ∈ rules, rule.kind = .cluster ∧ Documented c net prefixes policyNs rule r := by
    simp only [mem_clusterCidrs, Option.getD_none, List.not_mem_nil, if_false_right,
      List.any_eq_true, decide_eq_true_eq]
    constructor
    · rintro ⟨x, ⟨⟨rule, hrule, hk⟩, hx⟩, rfl⟩
      refine ⟨rule, hrule, hk, ?_⟩
      rw [Documented, hk]
      exact ⟨x, hx, rfl⟩
    · rintro ⟨rule, hrule, hk, hdoc⟩
      rw [Documented, hk] at hdoc
      obtain ⟨x, hx, rfl⟩ := hdoc
      exact ⟨x, ⟨⟨rule, hrule, hk⟩, hx⟩, rfl⟩
  rw [Peers.Denotes, hfound, hcidr]

/-- **The peers of a block against the selector table**, exactly. -/
theorem parseSelectors_denotes_iff (c : Cluster) (net : Net) (prefixes : List String)
    (policyNs : String) (block : RuleBlock)
    (hrules : ∀ rule ∈ block.peers.getD [], rule.Admitted) :
    PeersAsDocumented c net prefixes policyNs block ↔
      PeersSupported c net prefixes policyNs (block.peers.getD []) := by
  unfold PeersAsDocumented
  rw [parseSelectors_eq]
  generalize block.peers.getD [] = rules at hrules ⊢
  constructor
  · rintro ⟨peers, prefixes', hok, hden⟩
    cases hrs : collect (peerResources c policyNs) rules with
    | error e =>
      rw [hrs] at hok
      cases hok
    | ok rs =>
      rw [hrs] at hok
      cases hok
      obtain ⟨hall, -⟩ := mem_collect hrs
      have hiff : ∀ r, _ := fun r => (denotes_iff hrules hrs r).symm.trans (hden r)
      refine ⟨fun rule hrule => ?_, fun rule hrule p hp => ?_, fun rule hrule p hp => ?_⟩
      · obtain ⟨l, hl⟩ := hall rule hrule
        exact served_of_ok (hrules rule hrule) hl
      · -- a documented pod that its own entry skips has to be found by another one
        rcases (hiff _).mpr ⟨rule, hrule, hp.documented⟩ with h | ⟨rule', hrule', hk, hdoc⟩
        · exact h
        · rw [Documented, hk] at hdoc
          obtain ⟨x, -, hx⟩ := hdoc
          cases hx
      · exact (hiff _).mp (.inl ⟨rule, hrule, hp.1⟩)
  · intro hsup
    obtain ⟨rs, hrs⟩ : ∃ rs, collect (peerResources c policyNs) rules = .ok rs := by
      refine exists_collect fun rule hrule => ?_
      obtain ⟨l, hl, -⟩ := (peerResources_eq (hrules rule hrule)).1 (hsup.served rule hrule)
      exact ⟨l, hl⟩
    refine ⟨_, _, by rw [hrs]; rfl, fun r => ?_⟩
    refine (denotes_iff hrules hrs r).trans ⟨?_, ?_⟩
    · rintro (⟨rule, hrule, hf⟩ | ⟨rule, hrule, -, hdoc⟩)
      · rcases hf.documented net prefixes with hdoc | ⟨p, rfl, hp⟩
        · exact ⟨rule, hrule, hdoc⟩
        · exact hsup.surplus rule hrule p hp
      · exact ⟨rule, hrule, hdoc⟩
    · rintro ⟨rule, hrule, hdoc⟩
      by_cases hk : rule.kind = .cluster
      · exact .inr ⟨rule, hrule, hk, hdoc⟩
      · rcases hdoc.found hk with hf | ⟨p, rfl, hp⟩
        · exact .inl ⟨rule, hrule, hf⟩
        · exact .inl (hsup.skipped rule hrule p hp)

end

/-- An entry with a pod selector only. -/
def podPeer (s : LabelSelector) : Peer := ⟨none, some s, none⟩

theorem podPeer_admitted {s : LabelSelector} (h : s.Admitted) : (podPeer s).Admitted where
  namespaceSelector := fun _ hs => nomatch hs
  podSelector := fun _ hs => by cases hs; exact h

theorem parseSelectors_denotes_web_pods :
    PeersAsDocumented (clusterWith (some webLabels)) sampleNet [] "shop"
      ⟨some [podPeer webSelector], none⟩ :=
  (parseSelectors_denotes_iff (clusterWith (some webLabels)) sampleNet [] "shop"
    ⟨some [podPeer webSelector], none⟩ (by
      intro rule hrule
      rw [List.mem_singleton.mp hrule]
      exact podPeer_admitted webSelector_admitted)).mpr (by
    have hkind : (podPeer webSelector).kind = .ownPods webSelector := by decide
    constructor
    · intro rule hrule
      rw [List.mem_singleton.mp hrule, Served, hkind]
      decide
    · intro rule hrule p hp
      rw [List.mem_singleton.mp hrule, Skipped, hkind] at hp
      exact hp.elim
    · intro rule hrule p hp
      rw [List.mem_singleton.mp hrule, Surplus, Found, hkind] at hp
      obtain ⟨⟨q, hq, heq⟩, hno⟩ := hp
      cases heq
      have hpod : p = podWith (some webLabels) := List.mem_singleton.mp (mem_podsSelected.mp hq).1
      subst hpod
      have hyes : webSelector.Selects (podWith (some webLabels)).labels = true := by decide
      rw [PeerKind.Refuses, hyes] at hno
      cases hno)

/-- The labels `team: a`. -/
def teamLabels : Labels := ⟨[("team", "a")], by decide⟩

/-- Two namespaces of one team, the web pod lives in the first. -/
def teamCluster : Cluster where
  namespaces := [⟨"shop", some teamLabels, ["kubernetes"], some "10.0.0.0/24"⟩,
    ⟨"store", some teamLabels, ["kubernetes"], some "10.0.1.0/24"⟩]
  pods := [podWith (some webLabels)]
  services := []
  namespaces_nodup := by decide
  pods_nodup := by decide
  pods_namespaced := by decide
  services_namespaced := by decide

/-- The web pods of the team's namespaces. -/
def teamWebBlock : RuleBlock :=
  ⟨some [⟨some ⟨some teamLabels, none⟩, some webSelector, none⟩], none⟩

/-- The pod of the first namespace is documented, and lost. -/
theorem parseSelectors_loses_first_namespace :
    ¬ PeersAsDocumented teamCluster sampleNet [] "shop" teamWebBlock := by
  rintro ⟨peers, prefixes, hok, hden⟩
  have hempty : parseSelectors teamCluster sampleNet "shop" teamWebBlock []
      = .ok (⟨none, true, []⟩, []) := by decide +kernel
  rw [hempty] at hok
  cases hok
  have hdoc : Documented teamCluster sampleNet [] "shop"
      ⟨some ⟨some teamLabels, none⟩, some webSelector, none⟩ (.pod (podWith (some webLabels))) :=
    ⟨podWith (some webLabels), List.mem_singleton.mpr rfl, by decide,
      ⟨⟨"shop", some teamLabels, ["kubernetes"], some "10.0.0.0/24"⟩, by decide, by decide, rfl⟩,
        rfl⟩
  rcases (hden _).mpr ⟨_, List.mem_singleton.mpr rfl, hdoc⟩ with h | ⟨x, hx, -⟩
  · cases h
  · cases hx

end KuryrKubernetes
