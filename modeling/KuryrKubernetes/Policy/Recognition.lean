import KuryrKubernetes.Lib.Flag
import KuryrKubernetes.Policy.DefaultRules
import KuryrKubernetes.Policy.Triggers

/-!
# What the triggers recognise

The flag of `_parse_rules` without the calls it goes through. For a new pod or
namespace an entry of a block is taken for some pods, or not at all (`Subject.taken`),
and is then visited once for each port of the block. A visit with a number, or without
ports, may raise the flag; a visit with a named port never does, and takes it back when
a pod at hand lacks the port.

`createRulesFor_iff` says that a policy is bumped when some visit raises the flag and no
later one takes it back.
-/

namespace KuryrKubernetes

open Dicts LabelSelectors Results Flags

namespace Trigger

/-! ## Visits -/

/-- An entry of a block, for one port of the block. -/
structure Visit where
  pods : List Pod
  raises : Bool
  port : Option PolicyPort
deriving DecidableEq, Repr

/-- The pods a request lists. -/
def listed (c : Cluster) (s : LabelSelector) (ns : Option String) : List Pod :=
  (getPods c s ns).toOption.getD []

/-- The entry is about the namespace of the pod. -/
def reaches (c : Cluster) (policyNs : String) (p : Pod) (rule : Peer) : Bool :=
  if rule.namespaceSelector = some LabelSelector.none then true
  else
    match truthy rule.namespaceSelector with
    | some nsSelector => (c.namespace? p.ns).toOption.any fun ns =>
        (truthyLabels ns.labels).any fun labels => matchSelector (some nsSelector) (some labels)
    | none => p.ns = policyNs

/-- A pod of the right namespace. Without a `podSelector` it raises nothing. -/
def takenPod (p : Pod) (podSelector : Option LabelSelector) : Option (List Pod × Bool) :=
  match truthy podSelector with
  | some s => if matchSelector (some s) p.labels then some ([p], true) else none
  | none => some ([p], false)

/-- The pods of a namespace; without a `podSelector`, those with its labels. -/
def takenNamespace (c : Cluster) (n : Namespace) (rule : Peer) : Option (List Pod × Bool) :=
  match truthy rule.namespaceSelector, truthyLabels n.labels with
  | some nsSelector, some labels =>
    if matchSelector (some nsSelector) (some labels) then
      match truthy rule.podSelector with
      | some s =>
        some (listed c s (some n.name), (listed c s (some n.name)).any (·.kuryrPortIP.isSome))
      | none => some (listed c nsSelector none, true)
    else none
  | _, _ => none

/-- The pods an entry is taken for, and whether it raises the flag when the block has a
number or no ports. -/
def Subject.taken (c : Cluster) (policyNs : String) : Subject → Peer → Option (List Pod × Bool)
  | .pod p, rule => if reaches c policyNs p rule then takenPod p rule.podSelector else none
  | .namespace n, rule => takenNamespace c n rule

/-- The visits of an entry that is taken for some pods. -/
def portVisits (block : RuleBlock) (taken : List Pod × Bool) : List Visit :=
  match block.ports with
  | some ports => ports.map fun port => ⟨taken.1, taken.2, some port⟩
  | none => [⟨taken.1, taken.2, none⟩]

/-- The visits of an entry. -/
def entryVisits (c : Cluster) (policyNs : String) (subject : Subject) (block : RuleBlock)
    (rule : Peer) : List Visit :=
  ((subject.taken c policyNs rule).map (portVisits block)).getD []

/-- The visits of a block. -/
def blockVisits (c : Cluster) (policyNs : String) (subject : Subject) (block : RuleBlock) :
    List Visit :=
  (block.peers.getD []).flatMap (entryVisits c policyNs subject block)

/-- The visits of a list of blocks. -/
def visits (c : Cluster) (policyNs : String) (subject : Subject) (blocks : List RuleBlock) :
    List Visit :=
  blocks.flatMap (blockVisits c policyNs subject)

/-- The visit is about a named port. -/
def Visit.named (v : Visit) : Option (Option String) :=
  match v.port with
  | some ⟨.text npPort, _⟩ => some npPort
  | _ => none

/-- The visit raises the flag. -/
def Visit.recognises (v : Visit) : Bool := v.named.isNone && v.raises

/-- A pod with an address has the named port. -/
def serves (npPort : Option String) (p : Pod) : Bool :=
  (getContainerPorts npPort p).any fun e => e.1.kuryrPortIP.isSome

/-- A pod at hand lacks the named port. On ingress these are the pods of the policy, on
egress those of the entry that are not pods of the policy. -/
def lacking (c : Cluster) (policyNs : String) (s : LabelSelector) (d : Direction)
    (npPort : Option String) (pods : List Pod) : Bool :=
  match d with
  | .ingress => (listed c s (some policyNs)).any fun p => !serves npPort p
  | .egress => pods.any fun p =>
      !((matchSelector (some s.popHash) p.labels && policyNs = p.ns) || serves npPort p)

/-- The visit takes the flag back. -/
def Visit.forgets (c : Cluster) (policyNs : String) (s : LabelSelector) (d : Direction)
    (v : Visit) : Bool :=
  v.named.any fun npPort => lacking c policyNs s d npPort v.pods

/-! ## The selector that is popped -/

/-- The selector object, before or after a call of `get_pods`. -/
def Popped (s t : LabelSelector) : Prop := t = s ∨ t = s.popHash

theorem Popped.popHash_eq {s t : LabelSelector} (h : Popped s t) : t.popHash = s.popHash := by
  rcases h with rfl | rfl
  · rfl
  · exact s.popHash_popHash

theorem Popped.listed_eq {c : Cluster} {s t : LabelSelector} {ns : Option String} {l : List Pod}
    (ht : Popped s t) (h : getPods c t ns = .ok l) : listed c s ns = l := by
  have hs : getPods c s ns = .ok l := by
    rcases ht with rfl | rfl
    · exact h
    · exact getPods_of_popHash h
  rw [listed, hs]
  rfl

/-! ## The flag -/

/-- What has come has an address, if it is a pod. -/
def Subject.Ready : Subject → Prop
  | .pod p => p.kuryrPortIP ≠ none
  | .namespace _ => True

section

variable {c : Cluster} {policyNs : String} {s : LabelSelector} {d : Direction}

variable (c policyNs s d) in
/-- A computation that takes the flag through some visits. -/
def Follows (flag : Flag) (vs : List Visit) (x : Except Error Flag) : Prop :=
  Holds (fun flag' => flag'.1 = run Visit.recognises (Visit.forgets c policyNs s d) flag.1 vs ∧
    Popped s flag'.2) x

theorem Follows.done {flag : Flag} (h : Popped s flag.2) :
    Follows c policyNs s d flag [] (.ok flag) :=
  Holds.ok ⟨rfl, h⟩

theorem Follows.bind {flag : Flag} {vs ws : List Visit} {x : Except Error Flag}
    {f : Flag → Except Error Flag} (hx : Follows c policyNs s d flag vs x)
    (hf : ∀ flag', Popped s flag'.2 → Follows c policyNs s d flag' ws (f flag')) :
    Follows c policyNs s d flag (vs ++ ws) (x >>= f) := by
  refine Holds.bind hx fun flag' h => (hf flag' h.2).mono fun flag'' h' => ⟨?_, h'.2⟩
  rw [run_append, h'.1, h.1]

/-- The loop over the spec pods or over the pods of an entry. -/
theorem createSgRuleOnTextPort_spec {npPort : Option String} {pods : List Pod} {flag : Flag}
    (h : Popped s flag.2) :
    Holds (fun flag' => flag'.1 = (if lacking c policyNs s d npPort pods then false else flag.1) ∧
      Popped s flag'.2) (createSgRuleOnTextPort c policyNs d npPort pods flag) := by
  unfold createSgRuleOnTextPort
  intro flag' hflag'
  obtain ⟨specPods, hspec, hflag'⟩ := bind_eq_ok.mp hflag'
  cases d with
  | ingress =>
    cases hflag'
    refine ⟨?_, .inr h.popHash_eq⟩
    rw [lacking, h.listed_eq hspec]
    exact foldl_keep
  | egress =>
    cases hflag'
    refine ⟨?_, .inr h.popHash_eq⟩
    rw [lacking, h.popHash_eq, ← foldl_keep]
    refine List.foldl_ext _ _ _ fun flag p _ => ?_
    -- pods of the policy leave the flag as it is
    cases matchSelector (some s.popHash) p.labels && decide (policyNs = p.ns) <;> rfl

theorem portMatched_follows {pods : List Pod} {raises : Bool} {port : PolicyPort} {flag : Flag}
    (h : Popped s flag.2) :
    Follows c policyNs s d flag [⟨pods, raises, some port⟩]
      (portMatched c policyNs d pods raises port flag) := by
  obtain ⟨port, protocol⟩ := port
  cases port with
  | number n => exact Holds.ok ⟨by simp [run, step, Visit.recognises, Visit.forgets, Visit.named], h⟩
  | text npPort =>
    refine (createSgRuleOnTextPort_spec h).mono fun flag' h' => ⟨?_, h'.2⟩
    rw [h'.1]
    simp [run, step, Visit.recognises, Visit.forgets, Visit.named]

theorem portsMatched_follows {pods : List Pod} {raises : Bool} {ports : List PolicyPort}
    {flag : Flag} (h : Popped s flag.2) :
    Follows c policyNs s d flag (ports.map fun port => ⟨pods, raises, some port⟩)
      (portsMatched c policyNs d pods raises ports flag) := by
  induction ports generalizing flag with
  | nil => exact .done h
  | cons port ports ih => exact (portMatched_follows h).bind fun _ => ih

theorem blockMatched_follows {pods : List Pod} {raises : Bool} {block : RuleBlock} {flag : Flag}
    (h : Popped s flag.2) :
    Follows c policyNs s d flag (portVisits block (pods, raises))
      (blockMatched c policyNs d pods raises block flag) := by
  unfold blockMatched portVisits
  cases block.ports with
  | some ports => exact portsMatched_follows h
  | none => exact Holds.ok ⟨by simp [run, step, Visit.recognises, Visit.forgets, Visit.named], h⟩

theorem createSgRules_follows {p : Pod} {podSelector : Option LabelSelector} {block : RuleBlock}
    {flag : Flag} (hp : p.kuryrPortIP ≠ none) (h : Popped s flag.2) :
    Follows c policyNs s d flag
      (((takenPod p podSelector).map (portVisits block)).getD [])
      (createSgRules c policyNs d p podSelector block flag) := by
  unfold createSgRules takenPod
  rw [if_neg hp]
  cases truthy podSelector with
  | none => exact blockMatched_follows h
  | some t =>
    by_cases hmatch : matchSelector (some t) p.labels = true
    · simp only [hmatch, if_true]
      exact blockMatched_follows h
    · simp only [hmatch]
      exact .done h

theorem parseSelectorsOnPod_eq {p : Pod} {block : RuleBlock} {rule : Peer} {flag : Flag}
    {ns : Namespace} (hns : c.namespace? p.ns = .ok ns) :
    parseSelectorsOnPod c policyNs d p rule block flag =
      if reaches c policyNs p rule then createSgRules c policyNs d p rule.podSelector block flag
      else .ok flag := by
  unfold parseSelectorsOnPod reaches
  rw [hns]
  by_cases hall : rule.namespaceSelector = some LabelSelector.none
  · rw [if_pos hall, if_pos rfl]
    exact if_pos hall
  · rw [if_neg hall]
    refine (if_neg hall).trans ?_
    cases truthy rule.namespaceSelector with
    | some nsSelector => rfl
    | none => simp only [decide_eq_true_eq]; rfl

theorem parseSelectorsOnPod_follows {p : Pod} {block : RuleBlock} {rule : Peer} {flag : Flag}
    (hp : p.kuryrPortIP ≠ none) (h : Popped s flag.2) :
    Follows c policyNs s d flag (entryVisits c policyNs (.pod p) block rule)
      (parseSelectorsOnPod c policyNs d p rule block flag) := by
  cases hns : c.namespace? p.ns with
  | error e =>
    intro flag' hflag'
    unfold parseSelectorsOnPod at hflag'
    rw [hns] at hflag'
    cases hflag'
  | ok ns =>
    rw [parseSelectorsOnPod_eq hns, entryVisits, Subject.taken]
    split
    · exact createSgRules_follows hp h
    · exact .done h

theorem listed_of_ok {t : LabelSelector} {ns : Option String} {l : List Pod}
    (h : getPods c t ns = .ok l) : listed c t ns = l := by
  rw [listed, h]
  rfl

theorem parseSelectorsOnNamespace_follows {n : Namespace} {block : RuleBlock} {rule : Peer}
    {flag : Flag} (h : Popped s flag.2) :
    Follows c policyNs s d flag (entryVisits c policyNs (.namespace n) block rule)
      (parseSelectorsOnNamespace c policyNs d n rule block flag) := by
  show Follows c policyNs s d flag (((takenNamespace c n rule).map (portVisits block)).getD []) _
  unfold parseSelectorsOnNamespace takenNamespace
  cases truthy rule.namespaceSelector with
  | none => exact .done h
  | some nsSelector =>
    cases truthyLabels n.labels with
    | none => exact .done h
    | some labels =>
      by_cases hmatch : matchSelector (some nsSelector) (some labels) = true
      · simp only [hmatch, if_true]
        cases truthy rule.podSelector with
        | some t =>
          intro flag' hflag'
          obtain ⟨pods, hpods, hflag'⟩ := bind_eq_ok.mp hflag'
          simp only [listed_of_ok hpods]
          exact blockMatched_follows h _ hflag'
        | none =>
          intro flag' hflag'
          obtain ⟨pods, hpods, hflag'⟩ := bind_eq_ok.mp hflag'
          simp only [listed_of_ok hpods]
          exact blockMatched_follows h _ hflag'
      · simp only [hmatch]
        exact .done h

variable {subject : Subject}

theorem parseEntry_follows {block : RuleBlock} {rule : Peer} {flag : Flag} (hs : subject.Ready)
    (h : Popped s flag.2) :
    Follows c policyNs s d flag (entryVisits c policyNs subject block rule)
      (parseEntry c policyNs d subject block rule flag) := by
  rcases subject with p | n
  · exact parseSelectorsOnPod_follows hs h
  · exact parseSelectorsOnNamespace_follows h

theorem parseEntries_follows {block : RuleBlock} {rules : List Peer} {flag : Flag}
    (hs : subject.Ready) (h : Popped s flag.2) :
    Follows c policyNs s d flag (rules.flatMap (entryVisits c policyNs subject block))
      (parseEntries c policyNs d subject block rules flag) := by
  induction rules generalizing flag with
  | nil => exact .done h
  | cons rule rules ih => exact (parseEntry_follows hs h).bind fun _ => ih

/-- The second look at the named ports: the flag is down, and stays down. -/
theorem namedPortsMatched_false {p : Pod} {block : RuleBlock} {ports : List PolicyPort}
    {flag : Flag} (hdown : flag.1 = false) (h : Popped s flag.2) :
    Follows c policyNs s d flag [] (namedPortsMatched c policyNs d p block ports flag) := by
  induction ports generalizing flag with
  | nil => exact .done h
  | cons port ports ih =>
    have hport : Holds (fun flag' => flag'.1 = false ∧ Popped s flag'.2)
        (namedPortMatched c policyNs d p block port flag) := by
      unfold namedPortMatched
      split
      · split
        · refine (createSgRuleOnTextPort_spec h).mono fun flag' h' => ⟨?_, h'.2⟩
          rw [h'.1, hdown, ite_self]
        · exact Holds.ok ⟨hdown, h⟩
      · exact Holds.ok ⟨hdown, h⟩
    refine Holds.bind hport fun flag' h' => (ih h'.1 h'.2).mono fun flag'' h'' => ⟨?_, h''.2⟩
    rw [h''.1, h'.1, hdown]

theorem parseBlock_follows {block : RuleBlock} {flag : Flag} (hs : subject.Ready)
    (h : Popped s flag.2) :
    Follows c policyNs s d flag (blockVisits c policyNs subject block)
      (parseBlock c policyNs d subject block flag) := by
  unfold parseBlock
  rw [← List.append_nil (blockVisits c policyNs subject block)]
  refine (parseEntries_follows hs h).bind fun flag' h' => ?_
  rcases subject with p | n
  · dsimp only
    split
    · exact .done h'
    · next hdown => exact namedPortsMatched_false (by simpa using hdown) h'
  · exact .done h'

theorem parseBlocks_follows {blocks : List RuleBlock} {flag : Flag} (hs : subject.Ready)
    (h : Popped s flag.2) :
    Follows c policyNs s d flag (visits c policyNs subject blocks)
      (parseBlocks c policyNs d subject blocks flag) := by
  induction blocks generalizing flag with
  | nil => exact .done h
  | cons block blocks ih => exact (parseBlock_follows hs h).bind fun _ => ih

/-- **What `_parse_rules` recognises.** -/
theorem parseRules_iff {spec : PolicySpec} {flag : Flag} {t : LabelSelector} (hs : subject.Ready)
    (ht : Popped s t) (h : parseRules c policyNs d spec subject t = .ok flag) :
    (flag.1 = true ↔ StaysUp Visit.recognises (Visit.forgets c policyNs s d)
      (visits c policyNs subject (spec.blocks d))) ∧ Popped s flag.2 := by
  have hfollows : Follows c policyNs s d (false, t) (visits c policyNs subject (spec.blocks d))
      (parseRules c policyNs d spec subject t) := parseBlocks_follows hs ht
  obtain ⟨hflag, hpop⟩ := hfollows _ h
  refine ⟨?_, hpop⟩
  rw [hflag, run_eq_true]
  simp

end

end Trigger

/-! ## The driver -/

open Trigger

/-- What has come is recognised by the entries of a policy: in one direction some visit
raises the flag, and no later one takes it back. -/
def Recognised (c : Cluster) (crd : KuryrNetworkPolicy) (policy : NetworkPolicy)
    (subject : Subject) : Prop :=
  ∃ d, StaysUp Visit.recognises (Visit.forgets c crd.ns crd.podSelector d)
    (visits c crd.ns subject (policy.spec.blocks d))

theorem zipKnpNp_functional {crds : List KuryrNetworkPolicy} {policies : List NetworkPolicy}
    {crd : KuryrNetworkPolicy} {policy policy' : NetworkPolicy}
    (h : (crd, policy) ∈ zipKnpNp crds policies) (h' : (crd, policy') ∈ zipKnpNp crds policies) :
    policy' = policy := by
  obtain ⟨_, -, h⟩ := List.mem_filterMap.mp h
  obtain ⟨_, -, h'⟩ := List.mem_filterMap.mp h'
  obtain ⟨_, hfind, heq⟩ := Option.map_eq_some_iff.mp h
  obtain ⟨_, hfind', heq'⟩ := Option.map_eq_some_iff.mp h'
  cases heq
  cases heq'
  rw [hfind] at hfind'
  cases hfind'
  rfl

open NetworkPolicySecurityGroupsDriver in
/-- **A policy is bumped when it recognises what has come.** -/
theorem createRulesFor_iff {c : Cluster} {crds : List KuryrNetworkPolicy}
    {policies : List NetworkPolicy} {subject : Subject} {bumps : List Bump}
    {crd : KuryrNetworkPolicy} {policy : NetworkPolicy} (hs : subject.Ready)
    (h : createRulesFor c crds policies subject = .ok bumps)
    (hzip : (crd, policy) ∈ zipKnpNp crds policies) :
    (∃ bump ∈ bumps, bump.crd = crd) ↔ Recognised c crd policy subject := by
  -- the bumps of one pair
  obtain ⟨f, hf, hpair⟩ : ∃ f, collect f (zipKnpNp crds policies) = .ok bumps ∧
      ∀ pair l, f pair = .ok l → ∃ i e s, l = bumpNetworkpolicy pair.1 i e s ∧
        ((i || e) = true ↔ Recognised c pair.1 pair.2 subject) := by
    refine ⟨_, h, fun pair l hl => ?_⟩
    obtain ⟨⟨i, t⟩, hi, he⟩ := bind_eq_ok.mp hl
    obtain ⟨⟨e, t'⟩, he, hdone⟩ := bind_eq_ok.mp he
    obtain ⟨hi', ht⟩ := parseRules_iff hs (.inl rfl) hi
    obtain ⟨he', -⟩ := parseRules_iff hs ht he
    cases hdone
    refine ⟨i, e, t', rfl, ?_⟩
    rw [Bool.or_eq_true_iff, hi', he', Recognised, Direction.exists_iff]
  constructor
  · rintro ⟨bump, hbump, rfl⟩
    obtain ⟨⟨crd', policy'⟩, hmem, l, hl, hbump⟩ := ((mem_collect hf).2 bump).mp hbump
    obtain ⟨i, e, s, rfl, hiff⟩ := hpair _ l hl
    obtain ⟨htrue, hcrd⟩ := bumpNetworkpolicy_iff.mp ⟨bump, hbump, rfl⟩
    cases hcrd
    rw [← zipKnpNp_functional hzip hmem]
    exact hiff.mp htrue
  · intro hrec
    obtain ⟨l, hl⟩ := (mem_collect hf).1 _ hzip
    obtain ⟨i, e, s, rfl, hiff⟩ := hpair _ l hl
    obtain ⟨bump, hbump, hcrd⟩ := bumpNetworkpolicy_iff.mpr ⟨hiff.mpr hrec, rfl⟩
    exact ⟨bump, ((mem_collect hf).2 bump).mpr ⟨_, hzip, _, hl, hbump⟩, hcrd⟩

end KuryrKubernetes
