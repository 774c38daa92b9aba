import KuryrKubernetes.Handlers.PolicyAttachment
import KuryrKubernetes.Pool.Conservation

/-!
# Deleting a policy

`KuryrNetworkPolicyHandler.on_finalize` takes the security group of a policy away from the
ports, deletes it and removes the finalizers. The ports it looks at are those of the pods
that `spec.podSelector` selects, and those filed in the pools under a key that names the
group. The ports that carry the group were given it by `on_present`, under whatever
selectors the policy has had.

- `detachPods`, `removeSgFromAll`, `onFinalize`: the code.
- `DetachesFirst`: nothing carries the group when it is deleted, and the finalizers go
  after it.
- `onFinalize_detachesFirst_iff`: exactly when that is so.
-/

namespace KuryrKubernetes

namespace PolicyAttachment

open Dicts Transition Results

/-! ## The code -/

/-- How Neutron answers the deletion of a group. -/
inductive Deletion where
  | done
  /-- The group is in use. -/
  | conflict
  /-- Another failure. -/
  | failed
deriving DecidableEq, Repr

/-- The outcomes of the requests of one `on_finalize`. -/
structure FinalizeRun where
  /-- The listing of the pods. -/
  listed : Bool
  /-- The NetworkPolicy; it may be gone already. -/
  policy : Call
  /-- The listing of the policies, for each pod. -/
  policiesListed : Nat → Bool
  /-- `update_vif_sgs`, for each pod. -/
  updated : Nat → Call
  /-- The KuryrNetwork of the namespace; it may be gone already. -/
  network : Call
  netId : String
  /-- `update_port` for the ports of the pools. -/
  poolUpdated : PortId → Bool
  deleted : Deletion
  /-- `get_referenced_object` finds the NetworkPolicy. -/
  referenced : Bool
  /-- The services could be updated, as far as they have to be. -/
  services : Bool

/-- What `on_finalize` leaves. -/
structure Finalized where
  sgs : PortId → List String
  pools : List Pool
  /-- `delete_np_sg` was reached. -/
  reached : Bool
  /-- The group has been deleted. -/
  sgGone : Bool
  /-- The finalizers were reached. -/
  finalizing : Bool

/-- The loop over the pods (kuryrnetworkpolicy.py:255–275); `false` when it raises. -/
def detachPods (d : Deployment) (policy : PolicyState) (sgId : String) (out : FinalizeRun) :
    Nat → List Pod → (PortId → List String) → Bool × (PortId → List String)
  | _, [], sgs => (true, sgs)
  | i, pod :: pods, sgs =>
    if pod.hostNetwork ∨ ¬ d.scheduled pod then detachPods d policy sgId out (i + 1) pods sgs
    else if ¬ out.policiesListed i then (false, sgs)
    else
      match getPodSgs d policy pod >>= fun groups => orDefaults d (groups.erase sgId) with
      | .error _ => (false, sgs)
      | .ok groups =>
        match out.updated i with
        | .done => detachPods d policy sgId out (i + 1) pods (updateVifSgs d sgs pod groups)
        | .gone => detachPods d policy sgId out (i + 1) pods sgs
        | .failed => (false, sgs)

/-- `remove_sg_from_pools` of the multi pool driver (vif_pool.py:1232–1236): one pool after
the other. -/
def removeSgFromAll (updated : PortId → Bool) (sgId netId : String) :
    List Pool → (PortId → List String) → Bool × List Pool × (PortId → List String)
  | [], sgs => (true, [], sgs)
  | p :: ps, sgs =>
    match removeSgOrRaise updated p sgId netId with
    | (true, p, cleared) =>
      let (ok, ps, sgs) := removeSgFromAll updated sgId netId ps (setSgs sgs cleared [])
      (ok, p :: ps, sgs)
    | (false, p, cleared) => (false, p :: ps, setSgs sgs cleared [])

/-- From `delete_np_sg` on (kuryrnetworkpolicy.py:284–319, network_policy.py:91–102). A
conflict is raised as `ResourceNotReady`; another failure is raised only when there is an
object to attach an event to. -/
def deleteGroup (out : FinalizeRun) (sgs : PortId → List String) (pools : List Pool) : Finalized :=
  match out.deleted with
  | .done => ⟨sgs, pools, true, true, out.services⟩
  | .conflict => ⟨sgs, pools, true, false, false⟩
  | .failed => ⟨sgs, pools, true, false, !out.referenced && out.services⟩

/-- `on_finalize` (kuryrnetworkpolicy.py:240–319). -/
def onFinalize (d : Deployment) (out : FinalizeRun) (s : Attachment) (pools : List Pool) :
    Finalized :=
  match out.listed, affectedPods d s.policy.podSelector with
  | true, .ok pods =>
    if out.policy = .failed then ⟨s.sgs, pools, false, false, false⟩
    else
      match s.policy.securityGroupId with
      | none => ⟨s.sgs, pools, false, false, true⟩
      | some sgId =>
        match detachPods d s.policy sgId out 0 pods s.sgs with
        | (false, sgs) => ⟨sgs, pools, false, false, false⟩
        | (true, sgs) =>
          match out.network with
          | .failed => ⟨sgs, pools, false, false, false⟩
          | .gone => deleteGroup out sgs pools
          | .done =>
            match removeSgFromAll out.poolUpdated sgId out.netId pools sgs with
            | (false, pools, sgs) => ⟨sgs, pools, false, false, false⟩
            | (true, pools, sgs) => deleteGroup out sgs pools
  | _, _ => ⟨s.sgs, pools, false, false, false⟩

/-! ## What is asked of it -/

/-- Every request before the deletion is answered; the policy may be gone. -/
structure FinalizeRun.Answered (out : FinalizeRun) : Prop where
  updated : ∀ i, out.updated i = .done
  network : out.network = .done
  poolUpdated : ∀ port, out.poolUpdated port = true

/-- **The group is detached everywhere before it is deleted**: from the ports of the pods
of the namespace and from those in the pools of its network; so no port uses it and the
deletion cannot be refused, and the finalizers are removed only when it is gone. -/
structure DetachesFirst (d : Deployment) (sgId netId : String) (r : Finalized) : Prop where
  pods : ∀ pod ∈ d.pods, ∀ port ∈ d.vifs pod, sgId ∉ r.sgs port
  pools : ∀ p ∈ r.pools, ∀ key sg port, (key, sg, port) ∈ entries p.available → key.net = netId →
    sgId ∉ r.sgs port
  unused : ∀ port, sgId ∉ r.sgs port
  finalizers : r.finalizing = true → r.sgGone = true

/-- The default port of a pod that the spec selects. -/
def SelectedPort (d : Deployment) (policy : PolicyState) (port : PortId) : Prop :=
  ∃ pods, affectedPods d policy.podSelector = .ok pods ∧
    ∃ pod ∈ pods, pod.hostNetwork = false ∧ d.scheduled pod = true ∧ d.port pod = some port

/-- A port filed for a network under a key that names the group. -/
def FiledUnder (pools : List Pool) (sgId netId : String) (port : PortId) : Prop :=
  ∃ p ∈ pools, ∃ key sgs, (key, some sgs, port) ∈ entries p.available ∧ key.net = netId ∧ sgId ∈ sgs

/-- Every port that carries the group is found by `on_finalize`, and a deletion that fails
is not passed over. -/
def FindsGroup (d : Deployment) (out : FinalizeRun) (s : Attachment) (pools : List Pool)
    (sgId : String) : Prop :=
  (∀ port, sgId ∈ s.sgs port →
    SelectedPort d s.policy port ∨ FiledUnder pools sgId out.netId port) ∧
  (out.deleted = .failed → out.referenced = true ∨ out.services = false)

/-! ## The ports of the pods -/

/-- Without the group of the policy, a pod has the groups of the others or the defaults. -/
theorem not_mem_detached {d : Deployment} {sgId : String} (hnew : d.NewGroup sgId)
    {policy : PolicyState} (hid : policy.securityGroupId = some sgId) {pod : Pod}
    {groups : List String}
    (h : (getPodSgs d policy pod >>= fun groups => orDefaults d (groups.erase sgId)) = .ok groups) :
    sgId ∉ groups := by
  obtain ⟨all, hall, h⟩ := bind_eq_ok.mp h
  rw [getPodSgs_eq hid] at hall
  -- the group occurs at most once
  have hcount : all.count sgId ≤ 1 := by
    have hmem := mem_sgsWhen hnew hall
    obtain ⟨first, last, hfirst, hlast, hor⟩ := sgsWhen_cases hall
    have hno : ∀ {crds : List OtherPolicy} {l : List String}, matchedSgs pod crds = .ok l →
        (∀ crd ∈ crds, crd ∈ d.before ++ d.after) → l.count sgId = 0 := by
      intro crds l hl hsub
      refine List.count_eq_zero.mpr fun hin => ?_
      obtain ⟨crd, hcrd, hc⟩ := mem_matchedSgs hl sgId hin
      exact hnew.2 crd (hsub crd hcrd) hc
    have h₁ := hno hfirst fun crd => List.mem_append_left _
    have h₂ := hno hlast fun crd => List.mem_append_right _
    rcases orDefaults_cases hor with ⟨-, rfl⟩ | ⟨-, rfl⟩
    · rw [List.count_eq_zero.mpr hnew.1]
      omega
    · rw [List.count_append, List.count_append, h₁, h₂]
      split
      · simp
      · simp
  have herase : sgId ∉ all.erase sgId := by
    rw [← List.count_eq_zero, List.count_erase_self]
    omega
  rcases orDefaults_cases h with ⟨-, rfl⟩ | ⟨-, rfl⟩
  · exact hnew.1
  · exact herase

/-- After the loop the group is on the ports it was on, but for those of the pods. -/
theorem detachPods_carries {d : Deployment} {sgId : String} (hnew : d.NewGroup sgId)
    {policy : PolicyState} (hid : policy.securityGroupId = some sgId) {out : FinalizeRun}
    (hout : ∀ i, out.updated i = .done) (port : PortId) :
    ∀ (pods : List Pod) (i : Nat) (sgs : PortId → List String),
      (detachPods d policy sgId out i pods sgs).1 = true →
      (sgId ∈ (detachPods d policy sgId out i pods sgs).2 port ↔
        sgId ∈ sgs port ∧ ¬ ∃ pod ∈ pods, pod.hostNetwork = false ∧ d.scheduled pod = true ∧
          d.port pod = some port)
  | [], _, _, _ => by simp [detachPods]
  | pod :: pods, i, sgs, hok => by
    rw [detachPods] at hok ⊢
    by_cases hskip : pod.hostNetwork = true ∨ ¬ d.scheduled pod = true
    · rw [if_pos hskip] at hok ⊢
      rw [detachPods_carries hnew hid hout port pods (i + 1) sgs hok]
      have hno : ¬ (pod.hostNetwork = false ∧ d.scheduled pod = true ∧ d.port pod = some port) := by
        rintro ⟨hhost, hsched, -⟩
        rcases hskip with h | h
        · rw [hhost] at h
          cases h
        · exact h hsched
      simp only [List.mem_cons, exists_eq_or_imp, hno, false_or]
    · rw [if_neg hskip] at hok ⊢
      rw [not_or, not_not, Bool.not_eq_true] at hskip
      split at hok
      · cases hok
      · next hlisted =>
        rw [if_neg hlisted]
        split at hok
        · cases hok
        · next groups hgroups =>
          rw [hout i] at hok ⊢
          have ih := detachPods_carries hnew hid hout port pods (i + 1) _ hok
          simp only [hskip.1, hskip.2, List.mem_cons, exists_eq_or_imp, true_and]
          refine ih.trans ?_
          by_cases hport : d.port pod = some port
          · rw [updateVifSgs_self hport]
            simp [not_mem_detached hnew hid hgroups, hport]
          · rw [updateVifSgs_other hport]
            simp [hport]

/-! ## The ports of the pools -/

/-- The ports that leave their group: those under a key that names the security group. -/
theorem mem_clearGroups {sgId : String} {key : PoolKey} {port : PortId} :
    ∀ {es : List (SgKey × List PortId)} {b b' : Filed} {cleared : List PortId},
      clearGroups sgId key es b = (true, b', cleared) →
      (port ∈ cleared ↔ ∃ sgs ports, (some sgs, ports) ∈ es ∧ sgId ∈ sgs ∧ port ∈ ports)
  | [], b, b', cleared, h => by
    cases h
    simp
  | (none, _) :: _, b, b', cleared, h => by cases h
  | (some sgs, ports) :: es, b, b', cleared, h => by
    rw [clearGroups] at h
    by_cases hin : sgId ∉ sgs
    · rw [if_pos hin] at h
      rw [mem_clearGroups h]
      constructor
      · rintro ⟨sgs', ports', hmem, hrest⟩
        exact ⟨sgs', ports', List.mem_cons_of_mem _ hmem, hrest⟩
      · rintro ⟨sgs', ports', hmem, hsg, hport⟩
        rcases List.mem_cons.mp hmem with heq | hmem
        · cases heq
          exact absurd hsg hin
        · exact ⟨sgs', ports', hmem, hsg, hport⟩
    · rw [if_neg hin] at h
      rcases hg : clearGroup b key (some sgs) ports with ⟨_ | b₁, b₂⟩
      · rw [hg] at h
        cases h
      · rw [hg] at h
        simp only at h
        rcases hrec : clearGroups sgId key es b₁ with ⟨ok, b₃, more⟩
        rw [hrec] at h
        cases h
        rw [List.mem_append, mem_clearGroups hrec]
        constructor
        · rintro (hport | ⟨sgs', ports', hmem, hrest⟩)
          · exact ⟨sgs, ports, List.mem_cons_self, not_not.mp hin, hport⟩
          · exact ⟨sgs', ports', List.mem_cons_of_mem _ hmem, hrest⟩
        · rintro ⟨sgs', ports', hmem, hsg, hport⟩
          rcases List.mem_cons.mp hmem with heq | hmem
          · cases heq
            exact .inl hport
          · exact .inr ⟨sgs', ports', hmem, hsg, hport⟩

theorem mem_clearPoolsOrRaise {updated : PortId → Bool} (hupd : ∀ port, updated port = true)
    {sgId netId : String} {port : PortId} :
    ∀ {es : List (PoolKey × Dict SgKey (List PortId))} {b b' : Filed} {cleared : List PortId},
      clearPoolsOrRaise updated sgId netId es b = (true, b', cleared) →
      (port ∈ cleared ↔ ∃ key groups, (key, groups) ∈ es ∧ key.net = netId ∧
        ∃ sgs ports, (some sgs, ports) ∈ groups.items ∧ sgId ∈ sgs ∧ port ∈ ports)
  | [], b, b', cleared, h => by
    cases h
    simp
  | (key, groups) :: es, b, b', cleared, h => by
    rw [clearPoolsOrRaise] at h
    by_cases hnet : key.net ≠ netId
    · rw [if_pos hnet] at h
      rw [mem_clearPoolsOrRaise hupd h]
      constructor
      · rintro ⟨key', groups', hmem, hrest⟩
        exact ⟨key', groups', List.mem_cons_of_mem _ hmem, hrest⟩
      · rintro ⟨key', groups', hmem, hn, hrest⟩
        rcases List.mem_cons.mp hmem with heq | hmem
        · cases heq
          exact absurd hn hnet
        · exact ⟨key', groups', hmem, hn, hrest⟩
    · rw [if_neg hnet, clearGroupsOrRaise_eq fun _ _ _ _ _ port _ => hupd port] at h
      rcases hg : clearGroups sgId key groups.items b with ⟨ok, b₁, first⟩
      rw [hg] at h
      cases ok with
      | false => cases h
      | true =>
        simp only at h
        rcases hrec : clearPoolsOrRaise updated sgId netId es b₁ with ⟨ok, b₂, more⟩
        rw [hrec] at h
        cases h
        rw [List.mem_append, mem_clearGroups hg, mem_clearPoolsOrRaise hupd hrec]
        constructor
        · rintro (hrest | ⟨key', groups', hmem, hrest⟩)
          · exact ⟨key, groups, List.mem_cons_self, not_not.mp hnet, hrest⟩
          · exact ⟨key', groups', List.mem_cons_of_mem _ hmem, hrest⟩
        · rintro ⟨key', groups', hmem, hn, hrest⟩
          rcases List.mem_cons.mp hmem with heq | hmem
          · cases heq
            exact .inl hrest
          · exact .inr ⟨key', groups', hmem, hn, hrest⟩

/-- The ports cleared in one pool. -/
theorem mem_removeSgOrRaise {updated : PortId → Bool} (hupd : ∀ port, updated port = true)
    {sgId netId : String} {port : PortId} {p p' : Pool} {cleared : List PortId}
    (h : removeSgOrRaise updated p sgId netId = (true, p', cleared)) :
    port ∈ cleared ↔ FiledUnder [p] sgId netId port := by
  unfold removeSgOrRaise at h
  rcases hc : clearPoolsOrRaise updated sgId netId p.available.items p.available with ⟨ok, b, cl⟩
  rw [hc] at h
  cases h
  rw [mem_clearPoolsOrRaise hupd hc]
  simp only [FiledUnder, List.mem_singleton, exists_eq_left]
  constructor
  · rintro ⟨key, groups, hmem, hnet, sgs, ports, hg, hsg, hport⟩
    refine ⟨key, sgs, List.mem_flatMap.mpr
      ⟨(key, groups), hmem, List.mem_map.mpr ⟨(some sgs, port), ?_, rfl⟩⟩,
      hnet, hsg⟩
    exact List.mem_flatMap.mpr ⟨(some sgs, ports), hg, List.mem_map.mpr ⟨port, hport, rfl⟩⟩
  · rintro ⟨key, sgs, hmem, hnet, hsg⟩
    obtain ⟨⟨key', groups⟩, hk, hmem⟩ := List.mem_flatMap.mp hmem
    obtain ⟨⟨sg', port'⟩, hrow, heq⟩ := List.mem_map.mp hmem
    cases heq
    obtain ⟨⟨sg'', ports⟩, hg, hrow⟩ := List.mem_flatMap.mp hrow
    obtain ⟨port'', hport, heq⟩ := List.mem_map.mp hrow
    cases heq
    exact ⟨_, groups, hk, hnet, sgs, ports, hg, hsg, hport⟩

/-- After the pools the group is on the ports it was on, but for those filed under it. -/
theorem removeSgFromAll_carries {updated : PortId → Bool} (hupd : ∀ port, updated port = true)
    {sgId netId : String} (port : PortId) :
    ∀ (ps : List Pool) (sgs : PortId → List String),
      (removeSgFromAll updated sgId netId ps sgs).1 = true →
      (sgId ∈ (removeSgFromAll updated sgId netId ps sgs).2.2 port ↔
        sgId ∈ sgs port ∧ ¬ FiledUnder ps sgId netId port)
  | [], _, _ => by simp [removeSgFromAll, FiledUnder]
  | p :: ps, sgs, hok => by
    rw [removeSgFromAll] at hok ⊢
    rcases hp : removeSgOrRaise updated p sgId netId with ⟨ok, p', cleared⟩
    rw [hp] at hok
    cases ok with
    | false => cases hok
    | true =>
      have ih := removeSgFromAll_carries hupd port ps (setSgs sgs cleared []) hok
      refine ih.trans ?_
      have hfiled : FiledUnder (p :: ps) sgId netId port ↔
          FiledUnder [p] sgId netId port ∨ FiledUnder ps sgId netId port := by
        simp [FiledUnder]
      rw [hfiled, ← mem_removeSgOrRaise hupd hp, setSgs]
      by_cases hmem : port ∈ cleared
      · simp [hmem]
      · simp [hmem]

/-! ## The whole run -/

/-- The ports that carry the group when `delete_np_sg` is reached. -/
theorem onFinalize_carries {d : Deployment} {out : FinalizeRun} {s : Attachment} {pools : List Pool}
    {sgId : String} (hid : s.policy.securityGroupId = some sgId) (hnew : d.NewGroup sgId)
    (hout : out.Answered) (hreach : (onFinalize d out s pools).reached = true) :
    ∃ sgs pools', onFinalize d out s pools = deleteGroup out sgs pools' ∧
      ∀ port, sgId ∈ sgs port ↔ sgId ∈ s.sgs port ∧ ¬ SelectedPort d s.policy port ∧
        ¬ FiledUnder pools sgId out.netId port := by
  unfold onFinalize at hreach ⊢
  split at hreach
  · next pods hlisted hpods =>
    split at hreach
    · cases hreach
    · next hpolicy =>
      rw [if_neg hpolicy]
      rw [hid, hout.network] at hreach
      rw [hid, hout.network]
      simp only at hreach ⊢
      rcases hdet : detachPods d s.policy sgId out 0 pods s.sgs with ⟨ok, sgs⟩
      rw [hdet] at hreach
      cases ok with
      | false => cases hreach
      | true =>
        simp only at hreach ⊢
        rcases hpool : removeSgFromAll out.poolUpdated sgId out.netId pools sgs with
          ⟨ok, pools', sgs'⟩
        rw [hpool] at hreach
        cases ok with
        | false => cases hreach
        | true =>
          refine ⟨sgs', pools', rfl, fun port => ?_⟩
          have h₁ := detachPods_carries hnew hid hout.updated port pods 0 s.sgs (by rw [hdet])
          have h₂ := removeSgFromAll_carries hout.poolUpdated port pools sgs (by rw [hpool])
          rw [hdet] at h₁
          rw [hpool] at h₂
          have hselected : SelectedPort d s.policy port ↔ ∃ pod ∈ pods, pod.hostNetwork = false ∧
              d.scheduled pod = true ∧ d.port pod = some port := by
            constructor
            · rintro ⟨pods', hok, h⟩
              cases hpods.symm.trans hok
              exact h
            · exact fun h => ⟨pods, hpods, h⟩
          rw [hselected, ← and_assoc]
          exact h₂.trans (and_congr_left fun _ => h₁)
  · cases hreach

theorem deleteGroup_finalizers (out : FinalizeRun) (sgs : PortId → List String)
    (pools : List Pool) :
    ((deleteGroup out sgs pools).finalizing = true → (deleteGroup out sgs pools).sgGone = true) ↔
      (out.deleted = .failed → out.referenced = true ∨ out.services = false) := by
  unfold deleteGroup
  cases out.deleted with
  | done => simp
  | conflict => simp
  | failed => cases out.referenced <;> cases out.services <;> simp

theorem deleteGroup_sgs (out : FinalizeRun) (sgs : PortId → List String) (pools : List Pool) :
    (deleteGroup out sgs pools).sgs = sgs := by
  unfold deleteGroup
  cases out.deleted <;> rfl

/-- **Deleting a policy detaches its group first**, exactly when the current selector and
the keys of the pools lead to every port that carries it. -/
theorem onFinalize_detachesFirst_iff (d : Deployment) (out : FinalizeRun) (s : Attachment)
    (pools : List Pool) (sgId : String) (hid : s.policy.securityGroupId = some sgId)
    (hnew : d.NewGroup sgId) (hout : out.Answered)
    (hreach : (onFinalize d out s pools).reached = true) :
    DetachesFirst d sgId out.netId (onFinalize d out s pools) ↔ FindsGroup d out s pools sgId := by
  obtain ⟨sgs, pools', heq, hcarries⟩ := onFinalize_carries hid hnew hout hreach
  rw [heq]
  have hunused : (∀ port, sgId ∉ (deleteGroup out sgs pools').sgs port) ↔
      ∀ port, sgId ∈ s.sgs port →
        SelectedPort d s.policy port ∨ FiledUnder pools sgId out.netId port := by
    refine forall_congr' fun port => ?_
    rw [deleteGroup_sgs, hcarries port]
    constructor
    · intro h hmem
      by_contra hnot
      rw [not_or] at hnot
      exact h ⟨hmem, hnot⟩
    · rintro h ⟨hmem, hsel, hfiled⟩
      exact (h hmem).elim hsel hfiled
  constructor
  · intro h
    exact ⟨hunused.mp h.unused, (deleteGroup_finalizers out sgs pools').mp h.finalizers⟩
  · rintro ⟨hports, hfinal⟩
    have hno := hunused.mpr hports
    exact ⟨fun _ _ port _ => hno port, fun _ _ _ _ port _ _ => hno port, hno,
      (deleteGroup_finalizers out sgs pools').mpr hfinal⟩

/-- A run whose requests are answered. -/
def finalizeRun : FinalizeRun where
  listed := true
  policy := .done
  policiesListed := fun _ => true
  updated := fun _ => .done
  network := .done
  netId := "net"
  poolUpdated := fun _ => true
  deleted := .done
  referenced := true
  services := true

theorem finalizeRun_answered : finalizeRun.Answered := ⟨fun _ => rfl, rfl, fun _ => rfl⟩

theorem newGroup_shop : shop.NewGroup "np-sg" := ⟨by decide, by decide⟩

/-- The policy as it is applied to the web pods. -/
def appliedPolicy : Attachment :=
  ⟨⟨appSelector "web", some (appSelector "web"), some "np-sg"⟩,
    fun port => if port = "web-0" then ["np-sg"] else ["default"]⟩

/-- The policy is deleted while its selector is the one that was applied. -/
theorem onFinalize_detachesFirst_applied :
    DetachesFirst shop "np-sg" "net" (onFinalize shop finalizeRun appliedPolicy []) := by
  refine (onFinalize_detachesFirst_iff shop finalizeRun appliedPolicy [] "np-sg" rfl newGroup_shop
    finalizeRun_answered (by decide +kernel)).mpr ⟨fun port hport => .inl ?_, fun h => (nomatch h)⟩
  have hmem : "np-sg" ∈ if port = "web-0" then ["np-sg"] else ["default"] := hport
  by_cases hweb : port = "web-0"
  · subst hweb
    exact ⟨[appPod "web-0" "web"], by decide +kernel, appPod "web-0" "web",
      List.mem_singleton.mpr rfl,
      rfl, rfl, rfl⟩
  · rw [if_neg hweb] at hmem
    exact absurd hmem (by decide)

/-- The policy is applied, its selector is edited, and it is deleted before the handler has
seen the edit. -/
def editedPolicyState : Attachment :=
  let applied := (onPresent shop (presentRun .done) newPolicy).1
  ⟨{ applied.policy with podSelector := appSelector "db" }, applied.sgs⟩

/-- The web pod is no longer selected, so its port keeps the group that is to be deleted. -/
theorem onFinalize_misses_recorded_selector :
    Reach (attachmentSystem shop) (fun _ _ => True) editedPolicyState ∧
      (onFinalize shop finalizeRun editedPolicyState []).reached = true ∧
      "np-sg" ∈ (onFinalize shop finalizeRun editedPolicyState []).sgs "web-0" ∧
      ¬ DetachesFirst shop "np-sg" "net" (onFinalize shop finalizeRun editedPolicyState []) := by
  have hcarries : "np-sg" ∈ (onFinalize shop finalizeRun editedPolicyState []).sgs "web-0" := by
    decide +kernel
  refine ⟨?_, by decide +kernel, hcarries, fun h => ?_⟩
  · exact reach_edit (reach_present (newPolicy_reached _) trivial (presentRun_newGroup .done))
      trivial
      shop_agreeing_db
  · exact h.pods (appPod "web-0" "web") (by decide +kernel) "web-0"
      (List.mem_singleton.mpr rfl) hcarries

end PolicyAttachment

end KuryrKubernetes
