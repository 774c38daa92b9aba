import KuryrKubernetes.Policy.Recognition

/-!
# A policy and its single entries

Whether `_parse_rules` recognises what has come by a policy, against whether it does so by
one rule block of it with one entry and one port. A number, or no port, raises the flag; a
named port never does, and takes back what came before it.

- `Reduces`: a block cut down to one entry and one port.
- `parseRules_reducible_iff`: the flag of the policy is that of its reductions exactly
  when some visit that raises the flag has no later one that takes it back, or none
  raises it at all.

A pod without an address is never recognised (`parseRules_not_ready`).
-/

namespace KuryrKubernetes

open Dicts LabelSelectors Results Flags

namespace Trigger

/-! ## Reductions -/

/-- One entry of the block and one port of it, or none where the block has none. -/
structure Reduces (block block' : RuleBlock) : Prop where
  peers : (block.peers.getD [] = [] ∧ block'.peers = block.peers) ∨
    ∃ rule ∈ block.peers.getD [], block'.peers = some [rule]
  ports : (block.ports.getD [] = [] ∧ block'.ports = block.ports) ∨
    ∃ port ∈ block.ports.getD [], block'.ports = some [port]

end Trigger

/-- The policy with other blocks for a direction. -/
def PolicySpec.withBlocks (spec : PolicySpec) (d : Direction) (blocks : List RuleBlock) :
    PolicySpec :=
  match d with
  | .ingress => { spec with ingress := some blocks }
  | .egress => { spec with egress := some blocks }

@[simp] theorem PolicySpec.blocks_withBlocks (spec : PolicySpec) (d : Direction)
    (blocks : List RuleBlock) : (spec.withBlocks d blocks).blocks d = blocks := by
  cases d with
  | ingress => rfl
  | egress => rfl

namespace Trigger

section

variable {c : Cluster} {policyNs : String} {d : Direction} {subject : Subject}

/-- `_parse_rules` returns a value that is true. -/
def Matches (c : Cluster) (policyNs : String) (d : Direction) (spec : PolicySpec)
    (subject : Subject) (podSelector : LabelSelector) : Prop :=
  ∃ flag, parseRules c policyNs d spec subject podSelector = .ok flag ∧ flag.1 = true

/-! ## Pods without an address -/

theorem exists_namespace_of_ok {p : Pod} {block : RuleBlock} {rule : Peer} {flag flag' : Flag}
    (h : parseSelectorsOnPod c policyNs d p rule block flag = .ok flag') :
    ∃ ns, c.namespace? p.ns = .ok ns := by
  obtain ⟨ns, hns, -⟩ := bind_eq_ok.mp h
  exact ⟨ns, hns⟩

theorem parseEntries_not_ready {p : Pod} {block : RuleBlock} {rules : List Peer} {flag flag' : Flag}
    (hp : p.kuryrPortIP = none) (hdown : flag.1 = false)
    (h : parseEntries c policyNs d (.pod p) block rules flag = .ok flag') : flag'.1 = false := by
  induction rules generalizing flag with
  | nil =>
    cases h
    exact hdown
  | cons rule rules ih =>
    obtain ⟨flag₁, hentry, h⟩ := bind_eq_ok.mp h
    refine ih ?_ h
    obtain ⟨ns, hns⟩ := exists_namespace_of_ok hentry
    change parseSelectorsOnPod c policyNs d p rule block flag = .ok flag₁ at hentry
    rw [parseSelectorsOnPod_eq hns, createSgRules, if_pos hp] at hentry
    split at hentry
    · cases hentry
      rfl
    · cases hentry
      exact hdown

theorem parseBlocks_not_ready {p : Pod} {blocks : List RuleBlock} {flag flag' : Flag}
    (hp : p.kuryrPortIP = none) (hdown : flag.1 = false)
    (h : parseBlocks c policyNs d (.pod p) blocks flag = .ok flag') : flag'.1 = false := by
  induction blocks generalizing flag with
  | nil =>
    cases h
    exact hdown
  | cons block blocks ih =>
    obtain ⟨flag₂, hblock, h⟩ := bind_eq_ok.mp h
    refine ih ?_ h
    obtain ⟨flag₁, hentries, hblock⟩ := bind_eq_ok.mp hblock
    have hdown₁ := parseEntries_not_ready hp hdown hentries
    simp only [hdown₁, Bool.false_eq_true, if_false] at hblock
    -- the second look at the named ports keeps the flag down
    have hnamed := namedPortsMatched_false (s := flag₁.2) hdown₁ (.inl rfl) _ hblock
    rw [hnamed.1]
    exact hdown₁

/-- A pod without an address is not recognised. -/
theorem parseRules_not_ready {spec : PolicySpec} {s : LabelSelector} {flag : Flag}
    (hs : ¬ subject.Ready) (h : parseRules c policyNs d spec subject s = .ok flag) :
    flag.1 = false := by
  rcases subject with p | n
  · exact parseBlocks_not_ready (not_not.mp hs) rfl h
  · exact absurd trivial hs

/-! ## Blocks without named ports -/

/-- No port of the block is a named one. -/
def Plain (block : RuleBlock) : Prop := ∀ port ∈ block.ports.getD [], ∃ n, port.port = .number n

theorem exists_portsMatched {pods : List Pod} {raises : Bool} {ports : List PolicyPort}
    (hplain : ∀ port ∈ ports, ∃ n, port.port = .number n) (flag : Flag) :
    ∃ flag', portsMatched c policyNs d pods raises ports flag = .ok flag' := by
  induction ports generalizing flag with
  | nil => exact ⟨flag, rfl⟩
  | cons port ports ih =>
    obtain ⟨n, hn⟩ := hplain port List.mem_cons_self
    refine exists_bind ⟨(flag.1 || raises, flag.2), ?_⟩
      fun flag' => ih (fun x hx => hplain x (List.mem_cons_of_mem port hx)) flag'
    rw [portMatched, hn]

theorem exists_blockMatched {pods : List Pod} {raises : Bool} {block : RuleBlock}
    (hplain : Plain block) (flag : Flag) :
    ∃ flag', blockMatched c policyNs d pods raises block flag = .ok flag' := by
  unfold blockMatched
  cases hports : block.ports with
  | none => exact ⟨_, rfl⟩
  | some ports =>
    refine exists_portsMatched (fun port hport => hplain port ?_) flag
    rw [hports]
    exact hport

/-- An entry that was looked at once can be looked at with a block without named ports. -/
theorem exists_parseEntry {block block' : RuleBlock} {rule : Peer} {flag₀ flag₁ : Flag}
    (h : parseEntry c policyNs d subject block rule flag₀ = .ok flag₁) (hplain : Plain block')
    (flag : Flag) : ∃ flag', parseEntry c policyNs d subject block' rule flag = .ok flag' := by
  rcases subject with p | n
  · obtain ⟨ns, hns⟩ := exists_namespace_of_ok h
    show ∃ flag', parseSelectorsOnPod c policyNs d p rule block' flag = .ok flag'
    rw [parseSelectorsOnPod_eq hns]
    split
    · unfold createSgRules
      split
      · exact ⟨_, rfl⟩
      · split
        · split
          · exact exists_blockMatched hplain flag
          · exact ⟨_, rfl⟩
        · exact exists_blockMatched hplain flag
    · exact ⟨_, rfl⟩
  · change parseSelectorsOnNamespace c policyNs d n rule block flag₀ = .ok flag₁ at h
    show ∃ flag', parseSelectorsOnNamespace c policyNs d n rule block' flag = .ok flag'
    unfold parseSelectorsOnNamespace at h ⊢
    cases hns : truthy rule.namespaceSelector with
    | none => exact ⟨_, rfl⟩
    | some nsSelector =>
      cases hlabels : truthyLabels n.labels with
      | none => exact ⟨_, rfl⟩
      | some labels =>
        simp only [hns, hlabels] at h
        by_cases hmatch : matchSelector (some nsSelector) (some labels) = true
        · simp only [hmatch, if_true] at h ⊢
          -- the pods are listed as they were before
          cases hpod : truthy rule.podSelector with
          | some podSelector =>
            simp only [hpod] at h
            obtain ⟨pods, hpods, -⟩ := bind_eq_ok.mp h
            exact exists_bind ⟨pods, hpods⟩ fun pods => exists_blockMatched hplain flag
          | none =>
            simp only [hpod] at h
            obtain ⟨pods, hpods, -⟩ := bind_eq_ok.mp h
            exact exists_bind ⟨pods, hpods⟩ fun pods => exists_blockMatched hplain flag
        · simp only [hmatch]
          exact ⟨_, rfl⟩

theorem exists_parseEntry_of_entries {block : RuleBlock} {rules : List Peer} {flag flag' : Flag}
    {rule : Peer} (h : parseEntries c policyNs d subject block rules flag = .ok flag')
    (hrule : rule ∈ rules) :
    ∃ flag₀ flag₁, parseEntry c policyNs d subject block rule flag₀ = .ok flag₁ := by
  induction rules generalizing flag with
  | nil => cases hrule
  | cons first rules ih =>
    obtain ⟨flag₁, hfirst, h⟩ := bind_eq_ok.mp h
    rcases List.mem_cons.mp hrule with rfl | hrule
    · exact ⟨flag, flag₁, hfirst⟩
    · exact ih h hrule

/-- A run over the blocks looks at every entry of every block. -/
theorem exists_parseEntry_of_blocks {blocks : List RuleBlock} {flag flag' : Flag}
    {block : RuleBlock} {rule : Peer}
    (h : parseBlocks c policyNs d subject blocks flag = .ok flag') (hblock : block ∈ blocks)
    (hrule : rule ∈ block.peers.getD []) :
    ∃ flag₀ flag₁, parseEntry c policyNs d subject block rule flag₀ = .ok flag₁ := by
  induction blocks generalizing flag with
  | nil => cases hblock
  | cons first blocks ih =>
    obtain ⟨flag₁, hfirst, h⟩ := bind_eq_ok.mp h
    rcases List.mem_cons.mp hblock with rfl | hblock
    · obtain ⟨flag₂, hentries, -⟩ := bind_eq_ok.mp hfirst
      exact exists_parseEntry_of_entries hentries hrule
    · exact ih h hblock

theorem namedPortsMatched_plain {p : Pod} {block : RuleBlock} {ports : List PolicyPort}
    (hplain : ∀ port ∈ ports, ∃ n, port.port = .number n) (flag : Flag) :
    namedPortsMatched c policyNs d p block ports flag = .ok flag := by
  induction ports with
  | nil => rfl
  | cons port ports ih =>
    obtain ⟨n, hn⟩ := hplain port List.mem_cons_self
    have hport : namedPortMatched c policyNs d p block port flag = .ok flag := by
      rw [namedPortMatched, hn]
    rw [namedPortsMatched, hport]
    exact ih fun x hx => hplain x (List.mem_cons_of_mem port hx)

/-- A reduction without a named port is read without a failure. -/
theorem exists_parseRules_reduced {spec : PolicySpec} {s : LabelSelector} {block' : RuleBlock}
    {rule : Peer} (hplain : Plain block') (hpeers : block'.peers = some [rule])
    (hentry : ∃ flag', parseEntry c policyNs d subject block' rule (false, s) = .ok flag') :
    ∃ flag, parseRules c policyNs d (spec.withBlocks d [block']) subject s = .ok flag := by
  have hblocks : ((spec.withBlocks d [block']).ruleList d).getD [] = [block'] := by
    cases d with
    | ingress => rfl
    | egress => rfl
  unfold parseRules
  rw [hblocks]
  refine exists_bind (exists_bind ?_ fun flag => ?_) fun flag => ⟨flag, rfl⟩
  · rw [hpeers]
    exact exists_bind hentry fun flag => ⟨flag, rfl⟩
  · rcases subject with p | n
    · dsimp only
      split
      · exact ⟨flag, rfl⟩
      · exact ⟨flag, namedPortsMatched_plain hplain flag⟩
    · exact ⟨flag, rfl⟩

/-! ## Visits of a policy and of its reductions -/

theorem mem_visits {blocks : List RuleBlock} {v : Visit} :
    v ∈ visits c policyNs subject blocks ↔ ∃ block ∈ blocks, ∃ rule ∈ block.peers.getD [],
      ∃ taken, subject.taken c policyNs rule = some taken ∧ v ∈ portVisits block taken := by
  simp only [visits, blockVisits, entryVisits, List.mem_flatMap]
  refine exists_congr fun block => and_congr_right fun _ => exists_congr fun rule =>
    and_congr_right fun _ => ?_
  cases subject.taken c policyNs rule with
  | none => simp
  | some taken => simp

theorem Reduces.portVisits_subset {block block' : RuleBlock} (h : Reduces block block')
    {taken : List Pod × Bool} {v : Visit} (hv : v ∈ portVisits block' taken) :
    v ∈ portVisits block taken := by
  unfold portVisits at hv ⊢
  rcases h.ports with ⟨-, heq⟩ | ⟨port, hport, heq⟩
  · rwa [heq] at hv
  · rw [heq] at hv
    cases hports : block.ports with
    | none =>
      rw [hports] at hport
      cases hport
    | some ports =>
      rw [hports] at hport
      rw [List.mem_singleton.mp hv]
      exact List.mem_map.mpr ⟨port, hport, rfl⟩

theorem Reduces.visits_subset {block block' : RuleBlock} (h : Reduces block block')
    {blocks : List RuleBlock} (hblock : block ∈ blocks) {v : Visit}
    (hv : v ∈ visits c policyNs subject [block']) : v ∈ visits c policyNs subject blocks := by
  obtain ⟨block'', hblock'', rule, hrule, taken, htaken, hport⟩ := mem_visits.mp hv
  obtain rfl := List.mem_singleton.mp hblock''
  refine mem_visits.mpr ⟨block, hblock, rule, ?_, taken, htaken, h.portVisits_subset hport⟩
  rcases h.peers with ⟨-, heq⟩ | ⟨rule', hrule', heq⟩
  · rwa [heq] at hrule
  · rw [heq] at hrule
    obtain rfl := List.mem_singleton.mp hrule
    exact hrule'

/-- A visit that raises the flag is all there is to some reduction. -/
theorem exists_reduces {block : RuleBlock} {rule : Peer} {taken : List Pod × Bool} {v : Visit}
    (hrule : rule ∈ block.peers.getD []) (htaken : subject.taken c policyNs rule = some taken)
    (hv : v ∈ portVisits block taken) (hraises : v.recognises = true) :
    ∃ block', Reduces block block' ∧ Plain block' ∧ block'.peers = some [rule] ∧
      visits c policyNs subject [block'] = [v] := by
  have hone : ∀ ports, portVisits ⟨some [rule], ports⟩ taken = [v] →
      visits c policyNs subject [⟨some [rule], ports⟩] = [v] := by
    intro ports hports
    simp [visits, blockVisits, entryVisits, htaken, hports]
  unfold portVisits at hv
  cases hports : block.ports with
  | none =>
    rw [hports] at hv
    obtain rfl := List.mem_singleton.mp hv
    refine ⟨⟨some [rule], none⟩, ⟨.inr ⟨rule, hrule, rfl⟩, .inl (by simp [hports])⟩, ?_, rfl,
      hone none rfl⟩
    intro port hport
    cases hport
  | some ports =>
    rw [hports] at hv
    obtain ⟨port, hport, rfl⟩ := List.mem_map.mp hv
    refine ⟨⟨some [rule], some [port]⟩,
      ⟨.inr ⟨rule, hrule, rfl⟩, .inr ⟨port, by simpa [hports] using hport, rfl⟩⟩, ?_, rfl,
      hone _ rfl⟩
    intro port' hport'
    rw [List.mem_singleton.mp hport']
    -- a visit with a named port raises nothing
    obtain ⟨ref, protocol⟩ := port
    cases ref with
    | number n => exact ⟨n, rfl⟩
    | text npPort => simp [Visit.recognises, Visit.named] at hraises

theorem staysUp_singleton {s : LabelSelector} {v : Visit} (h : v.recognises = true) :
    StaysUp Visit.recognises (Visit.forgets c policyNs s d) [v] := by
  have hnamed : v.named = none := by
    simp only [Visit.recognises, Bool.and_eq_true, Option.isNone_iff_eq_none] at h
    exact h.1
  exact ⟨[], v, [], rfl, h, by simp [Visit.forgets, hnamed], by simp⟩

/-- The reductions of a policy recognise what has come when some visit raises the flag. -/
theorem exists_reduction_matches_iff {spec : PolicySpec} {s : LabelSelector} {flag : Flag}
    (hs : subject.Ready) (h : parseRules c policyNs d spec subject s = .ok flag) :
    (∃ block ∈ spec.blocks d, ∃ block', Reduces block block' ∧
      Matches c policyNs d (spec.withBlocks d [block']) subject s) ↔
      ∃ v ∈ visits c policyNs subject (spec.blocks d), v.recognises = true := by
  constructor
  · rintro ⟨block, hblock, block', hreduces, flag', hok, hflag'⟩
    obtain ⟨before, v, after, hsplit, hv, -⟩ := (parseRules_iff hs (.inl rfl) hok).1.mp hflag'
    rw [PolicySpec.blocks_withBlocks] at hsplit
    refine ⟨v, hreduces.visits_subset hblock ?_, hv⟩
    rw [hsplit]
    simp
  · rintro ⟨v, hv, hraises⟩
    obtain ⟨block, hblock, rule, hrule, taken, htaken, hv⟩ := mem_visits.mp hv
    obtain ⟨block', hreduces, hplain, hpeers, hvisits⟩ := exists_reduces hrule htaken hv hraises
    obtain ⟨flag₀, flag₁, hentry⟩ := exists_parseEntry_of_blocks h hblock hrule
    obtain ⟨flag', hok⟩ := exists_parseRules_reduced (s := s) hplain hpeers
      (exists_parseEntry hentry hplain _)
    refine ⟨block, hblock, block', hreduces, flag', hok, ?_⟩
    rw [(parseRules_iff hs (.inl rfl) hok).1, PolicySpec.blocks_withBlocks, hvisits]
    exact staysUp_singleton hraises

/-- `_parse_rules` is true of a policy exactly when it is of one of its reductions, as
long as some visit that raises the flag, if there is one, has no later visit that takes it
back. -/
theorem parseRules_reducible_iff (c : Cluster) (policyNs : String) (d : Direction)
    (spec : PolicySpec) (subject : Subject) (s : LabelSelector) (flag : Flag)
    (h : parseRules c policyNs d spec subject s = .ok flag) :
    (flag.1 = true ↔ ∃ block ∈ spec.blocks d, ∃ block', Reduces block block' ∧
        Matches c policyNs d (spec.withBlocks d [block']) subject s) ↔
      (subject.Ready → (∃ v ∈ visits c policyNs subject (spec.blocks d), v.recognises = true) →
        StaysUp Visit.recognises (Visit.forgets c policyNs s d)
          (visits c policyNs subject (spec.blocks d))) := by
  by_cases hs : subject.Ready
  · rw [exists_reduction_matches_iff hs h, (parseRules_iff hs (.inl rfl) h).1]
    constructor
    · intro hiff _ hraises
      exact hiff.mpr hraises
    · intro hcond
      refine ⟨?_, hcond hs⟩
      rintro ⟨before, v, after, hsplit, hv, -⟩
      exact ⟨v, by rw [hsplit]; simp, hv⟩
  · have hnone : ¬ ∃ block ∈ spec.blocks d, ∃ block', Reduces block block' ∧
        Matches c policyNs d (spec.withBlocks d [block']) subject s := by
      rintro ⟨block, -, block', -, flag', hok, hflag'⟩
      rw [parseRules_not_ready hs hok] at hflag'
      cases hflag'
    simp [hs, hnone, parseRules_not_ready hs h]

end

/-- Port 80 and another one for the pods of `app: web`. -/
def twoPortsBlock (second : PortRef) : RuleBlock :=
  ⟨some [⟨none, some webSelector, none⟩], some [⟨.number 80, none⟩, ⟨second, none⟩]⟩

/-- A policy of that block, for the same pods. -/
def twoPortsSpec (second : PortRef) : PolicySpec :=
  ⟨webSelector, some [twoPortsBlock second], none, [.ingress]⟩

theorem parseRules_reducible_numbers :
    ∃ block ∈ (twoPortsSpec (.number 443)).blocks .ingress, ∃ block', Reduces block block' ∧
      Matches (clusterWith (some webLabels)) "shop" .ingress
        ((twoPortsSpec (.number 443)).withBlocks .ingress [block'])
        (.pod (podWith (some webLabels))) webSelector := by
  refine ((parseRules_reducible_iff (clusterWith (some webLabels)) "shop" .ingress
    (twoPortsSpec (.number 443)) (.pod (podWith (some webLabels))) webSelector (true, webSelector)
    (by decide +kernel)).mpr fun _ _ => ?_).mp rfl
  exact ⟨[⟨[podWith (some webLabels)], true, some ⟨.number 80, none⟩⟩],
    ⟨[podWith (some webLabels)], true, some ⟨.number 443, none⟩⟩, [], by decide +kernel,
    by decide, by decide, by simp⟩

/-- The named port that the pod lacks takes back what port 80 has found. -/
theorem parseRules_not_reducible :
    parseRules (clusterWith (some webLabels)) "shop" .ingress
        (twoPortsSpec (.text (some "metrics"))) (.pod (podWith (some webLabels))) webSelector =
      .ok (false, webSelector) ∧
    ∃ block ∈ (twoPortsSpec (.text (some "metrics"))).blocks .ingress, ∃ block',
      Reduces block block' ∧ Matches (clusterWith (some webLabels)) "shop" .ingress
        ((twoPortsSpec (.text (some "metrics"))).withBlocks .ingress [block'])
        (.pod (podWith (some webLabels))) webSelector := by
  refine ⟨by decide +kernel, twoPortsBlock (.text (some "metrics")), List.mem_singleton.mpr rfl,
    ⟨some [⟨none, some webSelector, none⟩], some [⟨.number 80, none⟩]⟩, ⟨?_, ?_⟩,
    (true, webSelector), by decide +kernel, rfl⟩
  · exact .inr ⟨_, List.mem_singleton.mpr rfl, rfl⟩
  · exact .inr ⟨_, List.mem_cons_self, rfl⟩

end Trigger

end KuryrKubernetes
