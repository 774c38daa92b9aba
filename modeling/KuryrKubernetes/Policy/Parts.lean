import KuryrKubernetes.Policy.Productions

/-!
# Rules in a part of a cluster

A cluster and a part of it that has lost some pods, namespaces and services (`Part`).
A reason that names only objects of the part is a reason in the part
(`PolicyMade.restrict`), with the same rule body; and as long as the part resolves the
peers of the blocks to nothing new, a reason in the part is a reason in the whole
(`PolicyMade.extend`).

Named ports on egress make the order of the peers matter: a container port found with
one peer is opened for the peers behind it. `Offered` says so without the calls.
-/

namespace KuryrKubernetes

open Dicts LabelSelectors Results

/-! ## Who is offered a named port -/

theorem mem_getContainerPorts {npPort : Option String} {p q : Pod} {cp : Nat} :
    (q, cp) ∈ getContainerPorts npPort p ↔
      q = p ∧ p.hostNetwork = false ∧ ∃ x ∈ p.containers.flatten, x.name = npPort ∧
        x.containerPort = cp := by
  unfold getContainerPorts
  cases p.hostNetwork with
  | true => simp
  | false =>
    simp only [Bool.false_eq_true, if_false, List.mem_filterMap, true_and]
    constructor
    · rintro ⟨x, hx, heq⟩
      split at heq
      · next hname =>
        cases heq
        exact ⟨rfl, x, hx, hname, rfl⟩
      · cases heq
    · rintro ⟨rfl, x, hx, hname, rfl⟩
      exact ⟨x, hx, by rw [if_pos hname]⟩

/-- A container port of `owner` is opened for `r`. On egress it is found with `r` or
with a peer before. -/
def Offered (c : Cluster) (d : Direction) (npPort : Option String) (policyNs : String)
    (rs : List Resource) (s : LabelSelector) (r : Resource) (cp : Nat) (owner : Pod) : Prop :=
  match d with
  | .ingress => r ∈ rs ∧ (owner, cp) ∈ getContainerPorts npPort owner ∧
      ∃ selected, getPods c s (some policyNs) = .ok selected ∧ owner ∈ selected
  | .egress => r ∈ rs.filter Resource.hasSpec ∧ ∃ r', (owner, cp) ∈ getPorts c npPort r' ∧
      (r' = r ∨ [r', r].Sublist (rs.filter Resource.hasSpec))

theorem exists_split_of_sublist {α : Type} {x y : α} {l : List α} (h : [x, y].Sublist l) :
    ∃ before after, l = before ++ y :: after ∧ x ∈ before := by
  obtain ⟨l₁, l₂, rfl, hx, hy⟩ := List.cons_sublist_iff.mp h
  obtain ⟨u, v, rfl⟩ := List.append_of_mem (List.singleton_sublist.mp hy)
  exact ⟨l₁ ++ u, v, by simp, List.mem_append_left _ hx⟩

section

variable {c : Cluster} {d : Direction} {npPort : Option String} {policyNs : String}
  {rs : List Resource} {s : LabelSelector}

theorem Offered.calls {r : Resource} {cp : Nat} {owner : Pod}
    (h : Offered c d npPort policyNs rs s r cp owner) :
    ∃ calls, namedCalls c d npPort policyNs rs s = .ok calls := by
  cases d with
  | ingress =>
    obtain ⟨-, -, selected, hselected, -⟩ := h
    exact ⟨_, by rw [namedCalls, hselected]; rfl⟩
  | egress => exact ⟨_, rfl⟩

theorem Offered.mem {r : Resource} {cp : Nat} {owner : Pod}
    (h : Offered c d npPort policyNs rs s r cp owner) : r ∈ rs := by
  cases d with
  | ingress => exact h.1
  | egress => exact List.mem_of_mem_filter h.1

/-- Ingress: the ports of the pods of the policy, for each peer. -/
theorem offered_ingress_iff {calls : List (List (Pod × Nat) × Resource)} {r : Resource} {cp : Nat}
    {owner : Pod} (hcalls : namedCalls c .ingress npPort policyNs rs s = .ok calls) :
    (∃ before call after, calls = before ++ call :: after ∧ call.2 = r ∧
      (owner, cp) ∈ portsOf (before ++ [call])) ↔
        Offered c .ingress npPort policyNs rs s r cp owner := by
  obtain ⟨selected, hselected, hcalls⟩ := bind_eq_ok.mp hcalls
  cases hcalls
  constructor
  · rintro ⟨before, call, after, hsplit, rfl, howner⟩
    beta_reduce at hsplit
    have hmem : ∀ x ∈ before ++ [call], x ∈ selected.flatMap fun p =>
        rs.map fun r => (getContainerPorts npPort p, r) := by
      intro x hx
      rw [hsplit]
      simp only [List.mem_append, List.mem_cons] at hx ⊢
      tauto
    obtain ⟨x, hx, howner⟩ := List.mem_flatMap.mp howner
    obtain ⟨p, hp, hxp⟩ := List.mem_flatMap.mp (hmem x hx)
    obtain ⟨r', -, rfl⟩ := List.mem_map.mp hxp
    obtain ⟨p', -, hcall⟩ := List.mem_flatMap.mp (hmem call (by simp))
    obtain ⟨r, hr, hcall⟩ := List.mem_map.mp hcall
    obtain rfl := (mem_getContainerPorts.mp howner).1
    rw [← hcall]
    exact ⟨hr, howner, selected, hselected, hp⟩
  · rintro ⟨hr, howner, selected', hselected', hp⟩
    rw [hselected] at hselected'
    cases hselected'
    have hcall : (getContainerPorts npPort owner, r) ∈ selected.flatMap fun p =>
        rs.map fun r => (getContainerPorts npPort p, r) :=
      List.mem_flatMap.mpr ⟨owner, hp, List.mem_map.mpr ⟨r, hr, rfl⟩⟩
    obtain ⟨before, after, hsplit⟩ := List.append_of_mem hcall
    refine ⟨before, _, after, hsplit, rfl, ?_⟩
    exact List.mem_flatMap.mpr
      ⟨_, List.mem_append_right _ (List.mem_singleton.mpr rfl), howner⟩

/-- Egress: the ports found with the peers so far. -/
theorem offered_egress_iff {calls : List (List (Pod × Nat) × Resource)} {r : Resource} {cp : Nat}
    {owner : Pod} (hcalls : namedCalls c .egress npPort policyNs rs s = .ok calls) :
    (∃ before call after, calls = before ++ call :: after ∧ call.2 = r ∧
      (owner, cp) ∈ portsOf (before ++ [call])) ↔
        Offered c .egress npPort policyNs rs s r cp owner := by
  cases hcalls
  constructor
  · rintro ⟨before, call, after, hsplit, rfl, howner⟩
    obtain ⟨l₁, l₂, hl, rfl, hrest⟩ := List.map_eq_append_iff.mp hsplit
    obtain ⟨r, l₃, rfl, rfl, rfl⟩ := List.map_eq_cons_iff.mp hrest
    obtain ⟨x, hx, howner⟩ := List.mem_flatMap.mp howner
    refine ⟨by rw [hl]; simp, ?_⟩
    rcases List.mem_append.mp hx with hx | hx
    · obtain ⟨r', hr', rfl⟩ := List.mem_map.mp hx
      refine ⟨r', howner, .inr ?_⟩
      rw [hl]
      exact (List.singleton_sublist.mpr hr').append (List.singleton_sublist.mpr List.mem_cons_self)
    · obtain rfl := List.mem_singleton.mp hx
      exact ⟨r, howner, .inl rfl⟩
  · rintro ⟨hr, r', howner, hpos⟩
    -- an occurrence of `r` with `r'` at it or before it
    obtain ⟨l₁, l₃, hl, hmem⟩ : ∃ l₁ l₃, rs.filter Resource.hasSpec = l₁ ++ r :: l₃ ∧
        r' ∈ l₁ ++ [r] := by
      rcases hpos with rfl | hpos
      · obtain ⟨l₁, l₃, hl⟩ := List.append_of_mem hr
        exact ⟨l₁, l₃, hl, by simp⟩
      · obtain ⟨l₁, l₃, hl, hmem⟩ := exists_split_of_sublist hpos
        exact ⟨l₁, l₃, hl, List.mem_append_left _ hmem⟩
    refine ⟨l₁.map _, _, l₃.map _, by rw [hl, List.map_append]; rfl, rfl, ?_⟩
    refine List.mem_flatMap.mpr ⟨(getPorts c npPort r', r'), ?_, howner⟩
    rcases List.mem_append.mp hmem with hmem | hmem
    · exact List.mem_append_left _ (List.mem_map.mpr ⟨r', hmem, rfl⟩)
    · obtain rfl := List.mem_singleton.mp hmem
      exact List.mem_append_right _ (List.mem_singleton.mpr rfl)

/-- **The calls open a port for exactly those it is offered to.** -/
theorem offered_iff {calls : List (List (Pod × Nat) × Resource)} {r : Resource} {cp : Nat}
    {owner : Pod} (hcalls : namedCalls c d npPort policyNs rs s = .ok calls) :
    (∃ before call after, calls = before ++ call :: after ∧ call.2 = r ∧
      (owner, cp) ∈ portsOf (before ++ [call])) ↔ Offered c d npPort policyNs rs s r cp owner := by
  cases d with
  | ingress => exact offered_ingress_iff hcalls
  | egress => exact offered_egress_iff hcalls

end

/-! ## A part of a cluster -/

/-- Which objects are kept. -/
structure Keep where
  pod : Pod → Bool
  ns : Namespace → Bool
  svc : Service → Bool

/-- Which resources are kept. -/
def Keep.resource (k : Keep) : Resource → Bool
  | .pod p => k.pod p
  | .namespace n => k.ns n
  | .cidr _ => true

theorem filter_map_pods (k : Keep) (pods : List Pod) :
    (pods.map Resource.pod).filter k.resource = (pods.filter k.pod).map .pod := by
  rw [List.filter_map]
  rfl

theorem filter_map_namespaces (k : Keep) (nss : List Namespace) :
    (nss.map Resource.namespace).filter k.resource = (nss.filter k.ns).map .namespace := by
  rw [List.filter_map]
  rfl

/-- `c'` has the kept objects of `c`; the namespace of a kept pod is kept. -/
structure Part (k : Keep) (c c' : Cluster) : Prop where
  pods : c'.pods = c.pods.filter k.pod
  namespaces : c'.namespaces = c.namespaces.filter k.ns
  services : c'.services = c.services.filter k.svc
  housed : ∀ n p, n.name = p.ns → k.pod p = true → k.ns n = true

namespace Part

variable {k : Keep} {c c' : Cluster} (hp : Part k c c')

include hp

theorem podsIn (ns : Option String) : c'.podsIn ns = (c.podsIn ns).filter k.pod := by
  cases ns with
  | none => exact hp.pods
  | some ns =>
    show c'.pods.filter _ = (c.pods.filter _).filter _
    rw [hp.pods, List.filter_comm]

theorem listPods (query : String) (ns : Option String) :
    c'.listPods query ns = (c.listPods query ns).map (List.filter k.pod) := by
  unfold Cluster.listPods
  cases readQuery query with
  | error e => rfl
  | ok rs =>
    show Except.ok _ = Except.ok _
    rw [hp.podsIn, List.filter_comm]

theorem getPods_eq (s : LabelSelector) (ns : Option String) :
    getPods c' s ns = (getPods c s ns).map (List.filter k.pod) :=
  hp.listPods _ ns

theorem getServicePods_eq (svcSelector : Labels) (ns : Option String) :
    getServicePods c' svcSelector ns =
      (getServicePods c svcSelector ns).map (List.filter k.pod) :=
  hp.listPods _ ns

theorem mem_getPods {s : LabelSelector} {ns : Option String} {l' : List Pod}
    (h : getPods c' s ns = .ok l') :
    ∃ l, getPods c s ns = .ok l ∧ l' = l.filter k.pod := by
  rw [hp.getPods_eq] at h
  cases hl : getPods c s ns with
  | error e => rw [hl] at h; cases h
  | ok l =>
    rw [hl] at h
    cases h
    exact ⟨l, rfl, rfl⟩

/-- The container ports of a kept resource. -/
theorem mem_getPorts {npPort : Option String} {r : Resource} {q : Pod} {cp : Nat}
    (hr : k.resource r = true) :
    (q, cp) ∈ getPorts c' npPort r ↔ (q, cp) ∈ getPorts c npPort r ∧ k.pod q = true := by
  rcases r with p | n | cidr
  · constructor
    · intro h
      refine ⟨h, ?_⟩
      rw [(mem_getContainerPorts.mp h).1]
      exact hr
    · exact fun h => h.1
  · simp only [getPorts, List.mem_flatMap, hp.podsIn, List.mem_filter]
    constructor
    · rintro ⟨p, ⟨hmem, hkeep⟩, h⟩
      rw [(mem_getContainerPorts.mp h).1]
      exact ⟨⟨p, hmem, (mem_getContainerPorts.mp h).1 ▸ h⟩, hkeep⟩
    · rintro ⟨⟨p, hmem, h⟩, hkeep⟩
      rw [(mem_getContainerPorts.mp h).1] at hkeep
      exact ⟨p, ⟨hmem, hkeep⟩, h⟩
  · simp [getPorts]

/-- A resource that has a port of a kept pod is kept. -/
theorem resource_of_port {npPort : Option String} {r : Resource} {q : Pod} {cp : Nat}
    (h : (q, cp) ∈ getPorts c npPort r) (hq : k.pod q = true) : k.resource r = true := by
  rcases r with p | n | cidr
  · rw [(mem_getContainerPorts.mp h).1] at hq
    exact hq
  · obtain ⟨p, hmem, h⟩ := List.mem_flatMap.mp h
    obtain rfl := (mem_getContainerPorts.mp h).1
    have hns := (List.mem_filter.mp hmem).2
    exact hp.housed n q (by simpa using (of_decide_eq_true hns).symm) hq
  · rfl

theorem pods_resources : (c.pods.map Resource.pod).filter k.resource = c'.pods.map .pod := by
  rw [hp.pods, filter_map_pods]

theorem offered_restrict {d : Direction} {npPort : Option String} {policyNs : String}
    {rs rs' : List Resource} {s : LabelSelector} {r : Resource} {cp : Nat} {owner : Pod}
    (hsub : (rs.filter k.resource).Sublist rs')
    (h : Offered c d npPort policyNs rs s r cp owner) (hr : k.resource r = true)
    (howner : k.pod owner = true) : Offered c' d npPort policyNs rs' s r cp owner := by
  cases d with
  | ingress =>
    obtain ⟨hmem, hport, selected, hselected, hin⟩ := h
    refine ⟨hsub.subset (List.mem_filter.mpr ⟨hmem, hr⟩), hport, selected.filter k.pod, ?_,
      List.mem_filter.mpr ⟨hin, howner⟩⟩
    rw [hp.getPods_eq, hselected]
    rfl
  | egress =>
    obtain ⟨hmem, r', hport, hpos⟩ := h
    have hspec : ((rs.filter Resource.hasSpec).filter k.resource).Sublist
        (rs'.filter Resource.hasSpec) := by
      rw [List.filter_comm]
      exact hsub.filter _
    -- the port is found with a kept pod, so that peer is kept as well
    have hr' := hp.resource_of_port hport howner
    refine ⟨hspec.subset (List.mem_filter.mpr ⟨hmem, hr⟩), r',
      (hp.mem_getPorts hr').mpr ⟨hport, howner⟩, ?_⟩
    rcases hpos with rfl | hpos
    · exact .inl rfl
    · have hpair := hpos.filter k.resource
      rw [List.filter_cons_of_pos hr', List.filter_cons_of_pos hr] at hpair
      exact .inr (hpair.trans hspec)

theorem offered_extend {d : Direction} {npPort : Option String} {policyNs : String}
    {rs rs' : List Resource} {s : LabelSelector} {r : Resource} {cp : Nat} {owner : Pod}
    (hsub : rs'.Sublist rs) (hkept : ∀ r ∈ rs', k.resource r = true)
    (h : Offered c' d npPort policyNs rs' s r cp owner) :
    Offered c d npPort policyNs rs s r cp owner ∧ k.resource r = true ∧ k.pod owner = true := by
  cases d with
  | ingress =>
    obtain ⟨hmem, hport, selected', hselected, hin⟩ := h
    obtain ⟨selected, hfound, rfl⟩ := hp.mem_getPods hselected
    obtain ⟨hin, howner⟩ := List.mem_filter.mp hin
    exact ⟨⟨hsub.subset hmem, hport, selected, hfound, hin⟩, hkept r hmem, howner⟩
  | egress =>
    obtain ⟨hmem, r', hport, hpos⟩ := h
    have hspec := hsub.filter Resource.hasSpec
    have hr := hkept r (List.mem_of_mem_filter hmem)
    have hr' : k.resource r' = true := by
      rcases hpos with rfl | hpos
      · exact hr
      · exact hkept r' (List.mem_of_mem_filter (hpos.subset List.mem_cons_self))
    obtain ⟨hport, howner⟩ := (hp.mem_getPorts hr').mp hport
    refine ⟨⟨hspec.subset hmem, r', hport, ?_⟩, hr, howner⟩
    rcases hpos with rfl | hpos
    · exact .inl rfl
    · exact .inr (hpos.trans hspec)

theorem backs_restrict {net : Net} {policyNs : String} {svc : Service} {r : Resource}
    {backend : Option Pod} (h : Backs c net policyNs svc r backend)
    (hback : ∀ q, backend = some q → k.pod q = true) : Backs c' net policyNs svc r backend := by
  rcases r with p | n | cidr
  · exact h
  · exact h
  · unfold Backs at h ⊢
    cases hsel : truthyLabels svc.selector with
    | none =>
      rw [hsel] at h
      simpa [svcMatches, hsel] using h
    | some svcSelector =>
      rw [hsel] at h
      obtain ⟨hns, pods, q, ip, hpods, hq, hip, hin, rfl⟩ := h
      refine ⟨hns, pods.filter k.pod, q, ip, ?_, List.mem_filter.mpr ⟨hq, hback q rfl⟩, hip, hin,
        rfl⟩
      rw [hp.getServicePods_eq, hpods]
      rfl

theorem backs_extend {net : Net} {policyNs : String} {svc : Service} {r : Resource}
    {backend : Option Pod} (h : Backs c' net policyNs svc r backend) :
    Backs c net policyNs svc r backend ∧ ∀ q, backend = some q → k.pod q = true := by
  rcases r with p | n | cidr
  · exact ⟨h, fun q hq => by rw [h.2] at hq; cases hq⟩
  · exact ⟨h, fun q hq => by rw [h.2] at hq; cases hq⟩
  · unfold Backs at h ⊢
    cases hsel : truthyLabels svc.selector with
    | none =>
      rw [hsel] at h
      refine ⟨by simpa [svcMatches, hsel] using h, fun q hq => ?_⟩
      rw [h.2] at hq
      cases hq
    | some svcSelector =>
      rw [hsel] at h
      obtain ⟨hns, pods', q, ip, hpods, hq, hip, hin, rfl⟩ := h
      rw [hp.getServicePods_eq] at hpods
      cases hl : getServicePods c svcSelector (some svc.ns) with
      | error e => rw [hl] at hpods; cases hpods
      | ok pods =>
        rw [hl] at hpods
        cases hpods
        obtain ⟨hq, hkeep⟩ := List.mem_filter.mp hq
        exact ⟨⟨hns, pods, q, ip, hl, hq, hip, hin, rfl⟩, fun q' hq' => by cases hq'; exact hkeep⟩

end Part

/-! ## The cached prefixes -/

/-- The same subnet pool. A compilation may have appended the service subnet to the
cached list, once or more. -/
def SamePool (net : Net) (prefixes prefixes' : List String) : Prop :=
  ∀ x, x ∈ prefixes ++ [net.serviceSubnet] ↔ x ∈ prefixes' ++ [net.serviceSubnet]

/-- Memos that lead to the same rules. -/
structure Alike (net : Net) (m m' : Memo) : Prop where
  podSelector : m'.podSelector = m.podSelector
  pool : SamePool net m.prefixes m'.prefixes

theorem clusterCidrs_spec (net : Net) : ∀ (rules : List Peer) (cidrs : Option (List String))
    (prefixes : List String),
    SamePool net prefixes (clusterCidrs net rules (cidrs, prefixes)).2 ∧
      ∀ x, x ∈ (clusterCidrs net rules (cidrs, prefixes)).1.getD [] ↔
        if rules.any (·.kind = .cluster) then x ∈ prefixes ++ [net.serviceSubnet]
        else x ∈ cidrs.getD []
  | [], cidrs, prefixes => ⟨fun _ => Iff.rfl, by simp [clusterCidrs]⟩
  | rule :: rules, cidrs, prefixes => by
    by_cases hk : rule.kind = .cluster
    · have hpool : SamePool net prefixes
          (if net.subnetCaching then prefixes ++ [net.serviceSubnet] else prefixes) := by
        intro x
        split
        · simp
        · exact Iff.rfl
      obtain ⟨hrest, hmem⟩ := clusterCidrs_spec net rules (some (prefixes ++ [net.serviceSubnet]))
        (if net.subnetCaching then prefixes ++ [net.serviceSubnet] else prefixes)
      rw [clusterCidrs, if_pos hk]
      refine ⟨fun x => (hpool x).trans (hrest x), fun x => ?_⟩
      rw [hmem, List.any_cons, decide_eq_true hk, Bool.true_or, if_pos rfl]
      split
      · exact (hpool x).symm
      · exact Iff.rfl
    · rw [clusterCidrs, if_neg hk, List.any_cons, decide_eq_false hk, Bool.false_or]
      exact clusterCidrs_spec net rules cidrs prefixes

theorem Alike.mem_blockCidrs {net : Net} {m m' : Memo} (h : Alike net m m') {block : RuleBlock}
    {x : String} : x ∈ blockCidrs net block m ↔ x ∈ blockCidrs net block m' := by
  unfold blockCidrs
  rw [(clusterCidrs_spec net _ _ _).2, (clusterCidrs_spec net _ _ _).2]
  split
  · exact h.pool x
  · exact Iff.rfl

theorem Alike.after {net : Net} {m m' : Memo} (h : Alike net m m') (d : Direction)
    (block : RuleBlock) :
    Alike net (memoAfter net d block m) (memoAfter net d block m') where
  podSelector := by
    unfold memoAfter
    rw [h.podSelector]
  pool := fun x =>
    ((clusterCidrs_spec net (block.peers.getD []) none m.prefixes).1 x).symm.trans
      ((h.pool x).trans ((clusterCidrs_spec net (block.peers.getD []) none m'.prefixes).1 x))

theorem Alike.foldl {net : Net} {d : Direction} : ∀ {blocks : List RuleBlock} {m m' : Memo},
    Alike net m m' → Alike net (blocks.foldl (fun m block => memoAfter net d block m) m)
      (blocks.foldl (fun m block => memoAfter net d block m) m')
  | [], _, _, h => h
  | block :: _, _, _, h => (h.after d block).foldl

theorem Alike.blocks {net : Net} {d : Direction} {block : RuleBlock} {m : Memo} :
    ∀ {blocks : List RuleBlock} {memo memo' : Memo}, Alike net memo memo' →
      (block, m) ∈ blockMemos net d blocks memo →
      ∃ m', (block, m') ∈ blockMemos net d blocks memo' ∧ Alike net m m'
  | first :: blocks, memo, memo', h, hmem => by
    rcases List.mem_cons.mp hmem with hmem | hmem
    · cases hmem
      exact ⟨memo', List.mem_cons_self, h⟩
    · obtain ⟨m', hm', hlike⟩ := (h.after d first).blocks hmem
      exact ⟨m', List.mem_cons_of_mem _ hm', hlike⟩

theorem SamePool.symm {net : Net} {p p' : List String} (h : SamePool net p p') :
    SamePool net p' p :=
  fun x => (h x).symm

theorem SamePool.start {net : Net} {p p' : List String} (h : SamePool net p p')
    (policy : NetworkPolicy) (d : Direction) :
    Alike net (startMemo net policy p d) (startMemo net policy p' d) := by
  have hstart : Alike net ⟨policy.spec.podSelector, p⟩ ⟨policy.spec.podSelector, p'⟩ := ⟨rfl, h⟩
  cases d with
  | ingress => exact hstart
  | egress => exact hstart.foldl

/-! ## Reasons that stay -/

/-- A reason that names kept objects only. -/
structure Reason.Kept (k : Keep) (why : Reason) : Prop where
  resource : ∀ r, why.resource = some r → k.resource r = true
  owner : ∀ p, why.owner = some p → k.pod p = true
  service : ∀ v, why.via = some v → k.svc v.1 = true
  backend : ∀ v q, why.via = some v → v.2 = some q → k.pod q = true

/-- A rule for the whole cluster, or for everybody. -/
theorem Reason.kept_of_owner {k : Keep} {owner : Option Pod}
    (h : ∀ p, owner = some p → k.pod p = true) : Reason.Kept k ⟨none, owner, none⟩ where
  resource := by simp
  owner := h
  service := by simp
  backend := by simp

/-- A port that is offered is opened, with its owner among the pods that have it. -/
theorem Opens.of_offered {c : Cluster} {net : Net} {d : Direction} {policyNs : String}
    {block : RuleBlock} {memo : Memo} {ports : List PolicyPort} {port : PolicyPort}
    {s : LabelSelector} {npPort : Option String} {rs : List Resource} {r : Resource} {cp : Nat}
    {owner : Pod} (hports : block.ports = some ports)
    (hport : (port, s) ∈ portSelectors d ports memo.podSelector) (hnp : port.port = .text npPort)
    (hrs : NamedResources c net policyNs block rs)
    (h : Offered c d npPort policyNs rs s r cp owner)
    (hex : excluded (ownPods d (poppedFor d s) policyNs) owner = false) :
    ∃ pods, Opens c net d policyNs block memo r ⟨some cp, port.protocolOrTCP, some pods⟩
      (some owner) := by
  obtain ⟨calls, hcalls⟩ := h.calls
  obtain ⟨before, call, after, hsplit, rfl, howner⟩ := (offered_iff hcalls).mpr h
  obtain ⟨pods, hpods, -⟩ := has_gather.mpr ⟨owner, howner, rfl, hex⟩
  exact ⟨pods, .named (e := (cp, pods)) hports hport hnp hrs hcalls hsplit hpods howner hex⟩

/-- With all pods as peers, a port is offered to its owner. -/
theorem mem_portsOf_all {c : Cluster} {d : Direction} {npPort : Option String} {policyNs : String}
    {s : LabelSelector} {calls : List (List (Pod × Nat) × Resource)} {cp : Nat} {owner : Pod}
    (hcalls : namedCalls c d npPort policyNs (c.pods.map .pod) s = .ok calls) :
    (owner, cp) ∈ portsOf calls ↔
      Offered c d npPort policyNs (c.pods.map .pod) s (.pod owner) cp owner := by
  constructor
  · intro h
    obtain ⟨call, hcall, howner⟩ := List.mem_flatMap.mp h
    obtain ⟨before, after, hsplit⟩ := List.append_of_mem hcall
    have hmem : (owner, cp) ∈ portsOf (before ++ [call]) :=
      List.mem_flatMap.mpr ⟨call, List.mem_append_right _ (List.mem_singleton.mpr rfl), howner⟩
    have hoff := (offered_iff hcalls).mp ⟨before, call, after, hsplit, rfl, hmem⟩
    cases d with
    | ingress =>
      obtain ⟨-, hport, selected, hselected, hin⟩ := hoff
      have hpod : owner ∈ c.pods :=
        List.mem_of_mem_filter (mem_podsIn_of_getPods hselected hin)
      exact ⟨List.mem_map_of_mem hpod, hport, selected, hselected, hin⟩
    | egress =>
      obtain ⟨hr, r', hport, hpos⟩ := hoff
      have hr' : r' ∈ (c.pods.map Resource.pod).filter Resource.hasSpec := by
        rcases hpos with rfl | hpos
        · exact hr
        · exact hpos.subset List.mem_cons_self
      -- all peers are pods, and the ports of a pod are its own
      obtain ⟨p, hp, rfl⟩ := List.mem_map.mp (List.mem_of_mem_filter hr')
      obtain rfl := (mem_getContainerPorts.mp hport).1
      exact ⟨hr', .pod owner, hport, .inl rfl⟩
  · intro h
    obtain ⟨before, call, after, rfl, -, howner⟩ := (offered_iff hcalls).mpr h
    obtain ⟨x, hx, howner⟩ := List.mem_flatMap.mp howner
    refine List.mem_flatMap.mpr ⟨x, ?_, howner⟩
    simp only [List.mem_append, List.mem_cons, List.not_mem_nil, or_false] at hx ⊢
    tauto

/-- The body of an append depends on the ports that are opened, not on their owners. -/
theorem ForResource.body {c : Cluster} {net : Net} {d : Direction} {policyNs : String}
    {o o' : Opening} {r : Resource} {a : Append} {via : Option (Service × Option Pod)}
    (hport : o'.port = o.port) (hprotocol : o'.protocol = o.protocol)
    (h : ForResource c net d policyNs o r a via) :
    ∃ a', ForResource c net d policyNs o' r a' via ∧ a'.rule.sgRule = a.rule.sgRule := by
  obtain ⟨cidr, hcidr, h⟩ := h
  cases via with
  | none =>
    refine ⟨ownAppend net d o' r cidr, ⟨cidr, hcidr, rfl⟩, ?_⟩
    rw [h]
    simp [ownAppend, createSecurityGroupRuleBody, hport, hprotocol]
  | some v =>
    obtain ⟨hd, hsvc, ip, hip, hb, h⟩ := h
    refine ⟨serviceAppend net o' r ip, ⟨cidr, hcidr, hd, hsvc, ip, hip, hb, rfl⟩, ?_⟩
    rw [h]
    simp [serviceAppend, createSecurityGroupRuleBody, hport, hprotocol]

namespace Part

variable {k : Keep} {c c' : Cluster} (hp : Part k c c') {net : Net} {d : Direction}
  {policyNs : String} {block : RuleBlock} {m m' : Memo}

include hp

theorem namedResources_restrict
    (hres : ∀ rs, BlockResources c net policyNs block rs → ∃ rs',
      BlockResources c' net policyNs block rs' ∧ (rs.filter k.resource).Sublist rs')
    {rs : List Resource} (h : NamedResources c net policyNs block rs) :
    ∃ rs', NamedResources c' net policyNs block rs' ∧ (rs.filter k.resource).Sublist rs' := by
  unfold NamedResources at h ⊢
  split at h
  · next hbare =>
    subst h
    refine ⟨c'.pods.map .pod, by rw [if_pos hbare], ?_⟩
    rw [hp.pods_resources]
  · next hbare =>
    obtain ⟨rs', hrs', hsub⟩ := hres rs h
    exact ⟨rs', by rw [if_neg hbare]; exact hrs', hsub⟩

theorem opens_restrict (hm : Alike net m m')
    (hres : ∀ rs, BlockResources c net policyNs block rs → ∃ rs',
      BlockResources c' net policyNs block rs' ∧ (rs.filter k.resource).Sublist rs')
    {r : Resource} {o : Opening} {owner : Option Pod}
    (h : Opens c net d policyNs block m r o owner) (hr : k.resource r = true)
    (howner : ∀ p, owner = some p → k.pod p = true) :
    ∃ o', Opens c' net d policyNs block m' r o' owner ∧ o'.port = o.port ∧
      o'.protocol = o.protocol := by
  cases h with
  | everything hports hrs hmem =>
    obtain ⟨rs', hrs', hsub⟩ := hres _ hrs
    exact ⟨_, .everything hports hrs' (hsub.subset (List.mem_filter.mpr ⟨hmem, hr⟩)), rfl, rfl⟩
  | number hports hport hn hbare hrs hmem =>
    obtain ⟨rs', hrs', hsub⟩ := hres _ hrs
    exact ⟨_, .number hports hport hn hbare hrs'
      (hsub.subset (List.mem_filter.mpr ⟨hmem, hr⟩)), rfl, rfl⟩
  | named hports hport hnp hrs hcalls hsplit he hmem hex =>
    obtain ⟨rs', hrs', hsub⟩ := hp.namedResources_restrict hres hrs
    have hoff := (offered_iff hcalls).mp ⟨_, _, _, hsplit, rfl, hmem⟩
    rw [← hm.podSelector] at hport
    obtain ⟨pods, hopens⟩ := Opens.of_offered hports hport hnp hrs'
      (hp.offered_restrict hsub hoff hr (howner _ rfl)) hex
    exact ⟨_, hopens, rfl, rfl⟩

theorem opensCidr_restrict (hm : Alike net m m') {o : Opening} {owner : Option Pod}
    (h : OpensCidr c d policyNs block m o owner) (howner : ∀ p, owner = some p → k.pod p = true) :
    ∃ o', OpensCidr c' d policyNs block m' o' owner ∧ o'.port = o.port ∧
      o'.protocol = o.protocol := by
  cases h with
  | everything hports => exact ⟨_, .everything hports, rfl, rfl⟩
  | number hports hport hn => exact ⟨_, .number hports hport hn, rfl, rfl⟩
  | named hports hport hnp hcalls he hmem hex =>
    have hkeep := howner _ rfl
    have hsub : ((c.pods.map Resource.pod).filter k.resource).Sublist (c'.pods.map .pod) := by
      rw [hp.pods_resources]
    have hoff := hp.offered_restrict (r := .pod _) hsub
      ((mem_portsOf_all hcalls).mp hmem) hkeep hkeep
    obtain ⟨calls', hcalls'⟩ := hoff.calls
    have hmem' := (mem_portsOf_all hcalls').mpr hoff
    obtain ⟨pods, hpods, -⟩ := has_gather.mpr ⟨_, hmem', rfl, hex⟩
    rw [← hm.podSelector] at hport
    exact ⟨_, .named (e := (_, pods)) hports hport hnp hcalls' hpods hmem' hex, rfl, rfl⟩

/-- **A reason of kept objects is a reason in the part.** -/
theorem made_restrict (hm : Alike net m m')
    (hres : ∀ rs, BlockResources c net policyNs block rs → ∃ rs',
      BlockResources c' net policyNs block rs' ∧ (rs.filter k.resource).Sublist rs')
    {a : Append} {why : Reason} (h : Made c net d policyNs block m a why) (hk : why.Kept k) :
    ∃ a', Made c' net d policyNs block m' a' why ∧ a'.rule.sgRule = a.rule.sgRule := by
  cases h with
  | @peer r o _ _ via ho ha =>
    obtain ⟨o', ho', hport, hprotocol⟩ := hp.opens_restrict hm hres ho (hk.resource _ rfl) hk.owner
    have ha' : ForResource c' net d policyNs o r a via := by
      obtain ⟨cidr, hcidr, ha⟩ := ha
      refine ⟨cidr, hcidr, ?_⟩
      cases via with
      | none => exact ha
      | some v =>
        obtain ⟨hd, hsvc, ip, hip, hb, ha⟩ := ha
        refine ⟨hd, ?_, ip, hip, hp.backs_restrict hb fun q hq => hk.backend v q rfl hq, ha⟩
        rw [hp.services]
        exact List.mem_filter.mpr ⟨hsvc, hk.service v rfl⟩
    obtain ⟨a', ha', hbody⟩ := ha'.body hport hprotocol
    exact ⟨a', .peer ho' ha', hbody⟩
  | cidr ho hc =>
    obtain ⟨o', ho', hport, hprotocol⟩ := hp.opensCidr_restrict hm ho hk.owner
    refine ⟨_, .cidr ho' (hm.mem_blockCidrs.mp hc), ?_⟩
    simp [cidrAppend, createSecurityGroupRuleBody, hport, hprotocol]
  | anywhere hbare hports hport hn => exact ⟨_, .anywhere hbare hports hport hn, rfl⟩

/-- Peers that resolve to nothing new. -/
def Resolves (k : Keep) (c c' : Cluster) (net : Net) (policyNs : String) (block : RuleBlock) :
    Prop :=
  ∀ rs', BlockResources c' net policyNs block rs' → ∃ rs, BlockResources c net policyNs block rs ∧
    rs'.Sublist rs ∧ ∀ r ∈ rs', k.resource r = true

theorem namedResources_extend (hres : Resolves k c c' net policyNs block)
    {rs' : List Resource} (h : NamedResources c' net policyNs block rs') :
    ∃ rs, NamedResources c net policyNs block rs ∧ rs'.Sublist rs ∧
      ∀ r ∈ rs', k.resource r = true := by
  unfold NamedResources at h ⊢
  split at h
  · next hbare =>
    subst h
    refine ⟨c.pods.map .pod, by rw [if_pos hbare], ?_, fun r hr => ?_⟩
    · rw [← hp.pods_resources]
      exact List.filter_sublist
    · rw [← hp.pods_resources] at hr
      exact (List.mem_filter.mp hr).2
  · next hbare =>
    obtain ⟨rs, hrs, hsub⟩ := hres rs' h
    exact ⟨rs, by rw [if_neg hbare]; exact hrs, hsub⟩

theorem opens_extend (hm : Alike net m m') (hres : Resolves k c c' net policyNs block)
    {r : Resource} {o : Opening} {owner : Option Pod}
    (h : Opens c' net d policyNs block m' r o owner) :
    (∃ o', Opens c net d policyNs block m r o' owner ∧ o'.port = o.port ∧
      o'.protocol = o.protocol) ∧ k.resource r = true ∧ ∀ p, owner = some p → k.pod p = true := by
  cases h with
  | everything hports hrs hmem =>
    obtain ⟨rs, hrs, hsub, hkept⟩ := hres _ hrs
    exact ⟨⟨_, .everything hports hrs (hsub.subset hmem), rfl, rfl⟩, hkept r hmem,
      nofun⟩
  | number hports hport hn hbare hrs hmem =>
    obtain ⟨rs, hrs, hsub, hkept⟩ := hres _ hrs
    exact ⟨⟨_, .number hports hport hn hbare hrs (hsub.subset hmem), rfl, rfl⟩, hkept r hmem,
      nofun⟩
  | named hports hport hnp hrs hcalls hsplit he hmem hex =>
    obtain ⟨rs, hrs, hsub, hkept⟩ := hp.namedResources_extend hres hrs
    have hoff := (offered_iff hcalls).mp ⟨_, _, _, hsplit, rfl, hmem⟩
    obtain ⟨hoff, hr, howner⟩ := hp.offered_extend hsub hkept hoff
    rw [hm.podSelector] at hport
    obtain ⟨pods, hopens⟩ := Opens.of_offered hports hport hnp hrs hoff hex
    exact ⟨⟨_, hopens, rfl, rfl⟩, hr, fun _ h => by cases h; exact howner⟩

theorem opensCidr_extend (hm : Alike net m m') {o : Opening} {owner : Option Pod}
    (h : OpensCidr c' d policyNs block m' o owner) :
    (∃ o', OpensCidr c d policyNs block m o' owner ∧ o'.port = o.port ∧
      o'.protocol = o.protocol) ∧ ∀ p, owner = some p → k.pod p = true := by
  cases h with
  | everything hports => exact ⟨⟨_, .everything hports, rfl, rfl⟩, nofun⟩
  | number hports hport hn => exact ⟨⟨_, .number hports hport hn, rfl, rfl⟩, nofun⟩
  | named hports hport hnp hcalls he hmem hex =>
    have hsub : (c'.pods.map Resource.pod).Sublist (c.pods.map .pod) := by
      rw [← hp.pods_resources]
      exact List.filter_sublist
    have hkept : ∀ r ∈ c'.pods.map Resource.pod, k.resource r = true := by
      intro r hr
      rw [← hp.pods_resources] at hr
      exact (List.mem_filter.mp hr).2
    obtain ⟨hoff, -, howner⟩ := hp.offered_extend hsub hkept ((mem_portsOf_all hcalls).mp hmem)
    obtain ⟨calls, hcalls⟩ := hoff.calls
    have hmem := (mem_portsOf_all hcalls).mpr hoff
    obtain ⟨pods, hpods, -⟩ := has_gather.mpr ⟨_, hmem, rfl, hex⟩
    rw [hm.podSelector] at hport
    exact ⟨⟨_, .named (e := (_, pods)) hports hport hnp hcalls hpods hmem hex, rfl, rfl⟩,
      fun _ h => by cases h; exact howner⟩

/-- **A reason in the part is a reason in the whole**, of kept objects. -/
theorem made_extend (hm : Alike net m m') (hres : Resolves k c c' net policyNs block)
    {a : Append} {why : Reason} (h : Made c' net d policyNs block m' a why) :
    (∃ a', Made c net d policyNs block m a' why ∧ a'.rule.sgRule = a.rule.sgRule) ∧ why.Kept k := by
  cases h with
  | @peer r o owner _ via ho ha =>
    obtain ⟨⟨o', ho', hport, hprotocol⟩, hr, howner⟩ := hp.opens_extend hm hres ho
    have hvia : ForResource c net d policyNs o r a via ∧ (∀ v, via = some v → k.svc v.1 = true) ∧
        ∀ v q, via = some v → v.2 = some q → k.pod q = true := by
      obtain ⟨cidr, hcidr, ha⟩ := ha
      cases via with
      | none => exact ⟨⟨cidr, hcidr, ha⟩, by simp, by simp⟩
      | some v =>
        obtain ⟨hd, hsvc, ip, hip, hb, ha⟩ := ha
        rw [hp.services] at hsvc
        obtain ⟨hsvc, hkeep⟩ := List.mem_filter.mp hsvc
        obtain ⟨hb, hback⟩ := hp.backs_extend hb
        refine ⟨⟨cidr, hcidr, hd, hsvc, ip, hip, hb, ha⟩, fun _ h => ?_, fun _ q h hq => ?_⟩
        · cases h
          exact hkeep
        · cases h
          exact hback q hq
    obtain ⟨a', ha', hbody⟩ := hvia.1.body hport hprotocol
    exact ⟨⟨a', .peer ho' ha', hbody⟩, fun _ h => (by cases h; exact hr), howner, hvia.2.1,
      hvia.2.2⟩
  | cidr ho hc =>
    obtain ⟨⟨o', ho', hport, hprotocol⟩, howner⟩ := hp.opensCidr_extend hm ho
    refine ⟨⟨_, .cidr ho' (hm.mem_blockCidrs.mpr hc), ?_⟩, Reason.kept_of_owner howner⟩
    simp [cidrAppend, createSecurityGroupRuleBody, hport, hprotocol]
  | anywhere hbare hports hport hn =>
    exact ⟨⟨_, .anywhere hbare hports hport hn, rfl⟩, Reason.kept_of_owner (by simp)⟩

theorem getPodsInNamespaces_eq : ∀ (nss : List Namespace) (s : LabelSelector) (matching : List Pod),
    getPodsInNamespaces c' s (matching.filter k.pod) nss =
      (getPodsInNamespaces c s matching nss).map (List.filter k.pod)
  | [], _, _ => rfl
  | n :: nss, s, matching => by
    rw [getPodsInNamespaces, getPodsInNamespaces, hp.getPods_eq]
    cases getPods c s (some n.name) with
    | error e => rfl
    | ok pods => exact getPodsInNamespaces_eq nss s.popHash pods

end Part

theorem mem_of_blockMemos {net : Net} {d : Direction} {block : RuleBlock} {m : Memo} :
    ∀ {blocks : List RuleBlock} {memo : Memo}, (block, m) ∈ blockMemos net d blocks memo →
      block ∈ blocks
  | first :: blocks, memo, h => by
    rcases List.mem_cons.mp h with h | h
    · cases h
      exact List.mem_cons_self
    · exact List.mem_cons_of_mem _ (mem_of_blockMemos h)

/-! ## Bodies -/

/-- The bodies of the rules of a direction. -/
def bodies (out : List Append × List Append) (d : Direction) : List SgRule :=
  (runAppends (appendsOf out d)).map Rule.sgRule

/-- A body is made for a reason. -/
def Produces (c : Cluster) (net : Net) (policy : NetworkPolicy) (prefixes : List String)
    (d : Direction) (b : SgRule) (why : Reason) : Prop :=
  ∃ a, PolicyMade c net policy prefixes d a why ∧ a.rule.sgRule = b

theorem mem_bodies {c : Cluster} {net : Net} {policy : NetworkPolicy} {prefixes : List String}
    {out : List Append × List Append} (h : parseNetworkPolicyRules c net policy prefixes = .ok out)
    {d : Direction} {b : SgRule} :
    b ∈ bodies out d ↔ ∃ why, Produces c net policy prefixes d b why := by
  simp only [bodies, List.mem_map, mem_runAppends, Produces]
  constructor
  · rintro ⟨_, ⟨a, ha, rfl⟩, rfl⟩
    obtain ⟨why, hwhy⟩ := (mem_parseNetworkPolicyRules h d a).mp ha
    exact ⟨why, a, hwhy, rfl⟩
  · rintro ⟨why, a, hwhy, rfl⟩
    exact ⟨_, ⟨a, (mem_parseNetworkPolicyRules h d a).mpr ⟨why, hwhy⟩, rfl⟩, rfl⟩

/-- Two compilations with the same sets of bodies. -/
def SameBodies (out out' : List Append × List Append) : Prop :=
  ∀ d b, b ∈ bodies out d ↔ b ∈ bodies out' d

namespace Part

variable {k : Keep} {c c' : Cluster} (hp : Part k c c') {net : Net} {policy : NetworkPolicy}
  {prefixes prefixes' : List String} {d : Direction} {b : SgRule} {why : Reason}

include hp

theorem produces_restrict (hpool : SamePool net prefixes prefixes')
    (hres : ∀ block ∈ policy.spec.blocks d, ∀ rs, BlockResources c net policy.ns block rs → ∃ rs',
      BlockResources c' net policy.ns block rs' ∧ (rs.filter k.resource).Sublist rs')
    (h : Produces c net policy prefixes d b why) (hk : why.Kept k) :
    Produces c' net policy prefixes' d b why := by
  obtain ⟨a, h, rfl⟩ := h
  cases h with
  | default hdef => exact ⟨a, .default hdef, rfl⟩
  | block hblock hmade =>
    obtain ⟨m', hm', hlike⟩ := (hpool.start policy d).blocks hblock
    obtain ⟨a', ha', hbody⟩ := hp.made_restrict hlike (hres _ (mem_of_blockMemos hblock)) hmade hk
    exact ⟨a', .block hm' ha', hbody⟩

theorem produces_extend (hpool : SamePool net prefixes prefixes')
    (hres : ∀ block ∈ policy.spec.blocks d, Resolves k c c' net policy.ns block)
    (h : Produces c' net policy prefixes' d b why) :
    Produces c net policy prefixes d b why ∧ why.Kept k := by
  obtain ⟨a, h, rfl⟩ := h
  cases h with
  | default hdef => exact ⟨⟨a, .default hdef, rfl⟩, Reason.kept_of_owner (by simp)⟩
  | block hblock hmade =>
    obtain ⟨m', hm', hlike⟩ := (hpool.symm.start policy d).blocks hblock
    have hlike' : Alike net m' _ := ⟨hlike.podSelector.symm, hlike.pool.symm⟩
    obtain ⟨⟨a', ha', hbody⟩, hk⟩ :=
      hp.made_extend hlike' (hres _ (mem_of_blockMemos hblock)) hmade
    exact ⟨⟨a', .block hm' ha', hbody⟩, hk⟩

end Part

end KuryrKubernetes
