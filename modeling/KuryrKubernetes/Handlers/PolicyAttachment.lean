import KuryrKubernetes.Drivers.Selectors
import KuryrKubernetes.Lib.Result
import KuryrKubernetes.Lib.Transition
import KuryrKubernetes.Pool.World

/-!
# The security group of a policy and the ports of the pods

The second half of `KuryrNetworkPolicyHandler.on_present`: once the rules are in place, the
ports of the pods get the security groups of the policies that select them. Which pods are
updated is decided by two selectors, the one recorded in the status by the last run that
got through and the one of the spec.

- `affectedPods`, `getPodSgs`, `updateVifSgs`, `onPresent`: the code, with the outcome of
  every request as an argument. A run that fails keeps the updates it has made.
- `Attachment`, `attachmentSystem`: the policy and the ports, under edits of the selector
  and runs of the handler.
- `Tracked`: what a history has to respect so that the two selectors tell the handler where
  the group is. A run that fails after its updates records nothing; when the selector is
  edited again before a run gets through, the pods of the selector in between are in
  neither of the two (`onPresent_forgets_selector`).
-/

namespace KuryrKubernetes

namespace PolicyAttachment

open Dicts Transition Results

/-! ## Surroundings -/

/-- Another KuryrNetworkPolicy of the namespace. -/
structure OtherPolicy where
  podSelector : LabelSelector
  securityGroupId : Option String
deriving DecidableEq, Repr

/-- What stays fixed: the cluster with the namespace of the policy, the VIFs of the pods
(the default one first), and the other policies, listed before and after this one. -/
structure Deployment where
  cluster : Cluster
  ns : String
  /-- `is_pod_scheduled`. -/
  scheduled : Pod → Bool
  /-- The VIFs in the status of the KuryrPort of a pod. -/
  vifs : Pod → List PortId
  before : List OtherPolicy
  after : List OtherPolicy
  /-- `neutron_defaults.pod_security_groups`. -/
  podSecurityGroups : List String

/-- `namespaced_pods` (network_policy.py:128–132). -/
def Deployment.pods (d : Deployment) : List Pod := d.cluster.podsIn (some d.ns)

/-- The port of the default VIF of a pod. -/
def Deployment.port (d : Deployment) (pod : Pod) : Option PortId := (d.vifs pod).head?

/-- The KuryrNetworkPolicy: `spec.podSelector`, `status.podSelector` and
`status.securityGroupId`. -/
structure PolicyState where
  podSelector : LabelSelector
  recorded : Option LabelSelector
  securityGroupId : Option String
deriving DecidableEq, Repr

/-- The policy, and the security groups of the Neutron ports. -/
structure Attachment where
  policy : PolicyState
  sgs : PortId → List String

/-! ## The driver -/

/-- `affected_pods` (network_policy.py:43–54). -/
def affectedPods (d : Deployment) (selector : LabelSelector) : Except Error (List Pod) :=
  if selector ≠ LabelSelector.none then getPods d.cluster selector (some d.ns) else .ok d.pods

/-- The loop of `_get_pod_sgs` over the policies (network_policy_security_groups.py:261–274). -/
def matchedSgs (pod : Pod) : List OtherPolicy → Except Exc (List String)
  | [] => .ok []
  | crd :: crds =>
    if matchSelector (some crd.podSelector) pod.labels then
      match crd.securityGroupId with
      | none => .error .notReady
      | some sgId => (matchedSgs pod crds).map (sgId :: ·)
    else matchedSgs pod crds

/-- A pod that no policy selects has the default groups
(network_policy_security_groups.py:276–283). -/
def orDefaults (d : Deployment) : List String → Except Exc (List String)
  | [] => if d.podSecurityGroups = [] then .error .other else .ok d.podSecurityGroups
  | sgs => .ok sgs

/-- `_get_pod_sgs` (network_policy_security_groups.py:253–283). -/
def getPodSgs (d : Deployment) (policy : PolicyState) (pod : Pod) : Except Exc (List String) :=
  matchedSgs pod (d.before ++ ⟨policy.podSelector, policy.securityGroupId⟩ :: d.after) >>=
    orDefaults d

/-- `update_vif_sgs` (neutron_vif.py:115–122): the default VIF only. -/
def updateVifSgs (d : Deployment) (sgs : PortId → List String) (pod : Pod) (groups : List String) :
    PortId → List String :=
  setSgs sgs (d.port pod).toList groups

/-! ## The handler -/

/-- How a request ends: answered, answered with "not found", or with another failure. -/
inductive Call where
  | done | gone | failed
deriving DecidableEq, Repr

/-- The outcomes of the requests of one `on_present`. The pods are counted in the order in
which they are updated. -/
structure PresentRun where
  /-- `create_security_group`, with the new id. -/
  created : Option String
  /-- The status patch with the id. -/
  sgPatched : Bool
  /-- The rules of the group could be brought in line. -/
  rules : Bool
  /-- The listing of the pods of the recorded selector. -/
  listedPrevious : Bool
  /-- The listing of the pods of the current selector. -/
  listedCurrent : Bool
  /-- The listing of the policies, for each pod. -/
  policiesListed : Nat → Bool
  /-- `update_vif_sgs`, for each pod; `gone` is ignored. -/
  updated : Nat → Call
  /-- The policy could be read and the services updated. -/
  services : Bool
  /-- The status patch with the selector; `gone` is ignored. -/
  patched : Call

/-- The security group of the policy (kuryrnetworkpolicy.py:97–110). A patch that fails, or
finds no policy, ends the run. -/
def ensureSecurityGroup (out : PresentRun) (policy : PolicyState) : Option PolicyState :=
  match policy.securityGroupId with
  | some _ => some policy
  | none =>
    match out.created with
    | none => none
    | some sgId =>
      if out.sgPatched then some { policy with securityGroupId := some sgId } else none

/-- `pods_to_update` (kuryrnetworkpolicy.py:161–173). -/
def podsToUpdate (d : Deployment) (out : PresentRun) (policy : PolicyState) : Option (List Pod) :=
  let previous :=
    match policy.recorded with
    -- a policy that was never applied
    | none => if out.listedPrevious then some d.pods else none
    | some selector =>
      if selector ≠ policy.podSelector ∨ selector = LabelSelector.none then
        if out.listedPrevious then (affectedPods d selector).toOption else none
      else some []
  let matched := if out.listedCurrent then (affectedPods d policy.podSelector).toOption else none
  previous.bind fun previous => matched.map (previous ++ ·)

/-- The loop over the pods (kuryrnetworkpolicy.py:175–184), `i` of which are done; `false`
when it raises. -/
def updatePods (d : Deployment) (policy : PolicyState) (out : PresentRun) :
    Nat → List Pod → (PortId → List String) → Bool × (PortId → List String)
  | _, [], sgs => (true, sgs)
  | i, pod :: pods, sgs =>
    if pod.hostNetwork ∨ ¬ d.scheduled pod then updatePods d policy out (i + 1) pods sgs
    else if ¬ out.policiesListed i then (false, sgs)
    else
      match getPodSgs d policy pod with
      | .error _ => (false, sgs)
      | .ok groups =>
        match out.updated i with
        | .done => updatePods d policy out (i + 1) pods (updateVifSgs d sgs pod groups)
        -- the pod got deleted in the meanwhile
        | .gone => updatePods d policy out (i + 1) pods sgs
        | .failed => (false, sgs)

/-- `on_present` (kuryrnetworkpolicy.py:92–213); `true` when it returns. -/
def onPresent (d : Deployment) (out : PresentRun) (s : Attachment) : Attachment × Bool :=
  match ensureSecurityGroup out s.policy with
  | none => (s, false)
  | some policy =>
    if ¬ out.rules then (⟨policy, s.sgs⟩, false)
    else
      match podsToUpdate d out policy with
      | none => (⟨policy, s.sgs⟩, false)
      | some pods =>
        match updatePods d policy out 0 pods s.sgs with
        | (false, sgs) => (⟨policy, sgs⟩, false)
        | (true, sgs) =>
          if ¬ out.services then (⟨policy, sgs⟩, false)
          else
            match out.patched with
            | .done => (⟨{ policy with recorded := some policy.podSelector }, sgs⟩, true)
            | .gone => (⟨policy, sgs⟩, true)
            | .failed => (⟨policy, sgs⟩, false)

/-! ## Histories -/

/-- The pods are scheduled, not on the network of their host, and each has its own port. -/
structure Deployment.Ready (d : Deployment) : Prop where
  scheduled : ∀ pod ∈ d.pods, d.scheduled pod = true
  ownNetwork : ∀ pod ∈ d.pods, pod.hostNetwork = false
  port : ∀ pod ∈ d.pods, ∃ port, d.port pod = some port
  port_inj : ∀ pod ∈ d.pods, ∀ pod' ∈ d.pods, d.port pod = d.port pod' → pod = pod'

/-- The server selects the pods of the namespace as the client does. The empty selector is
not sent to the server. -/
def Deployment.Agreeing (d : Deployment) (selector : LabelSelector) : Prop :=
  selector ≠ LabelSelector.none → ∀ pod ∈ d.pods, Agrees d.cluster selector pod

/-- A new group is none of those that are in use. -/
def Deployment.NewGroup (d : Deployment) (sgId : String) : Prop :=
  sgId ∉ d.podSecurityGroups ∧ ∀ crd ∈ d.before ++ d.after, crd.securityGroupId ≠ some sgId

/-- What happens to a policy. -/
inductive PolicyStep where
  | edit (selector : LabelSelector)
  | present (out : PresentRun)

/-- A policy that starts without a status, its edits and the runs of the handler. -/
def attachmentSystem (d : Deployment) : System Attachment PolicyStep where
  init := fun s => s.policy.recorded = none ∧ s.policy.securityGroupId = none ∧
    d.Agreeing s.policy.podSelector
  step := fun s a s' =>
    match a with
    | .edit selector => d.Agreeing selector ∧
        s' = ⟨{ s.policy with podSelector := selector }, s.sgs⟩
    | .present out => (∀ sgId, out.created = some sgId → d.NewGroup sgId) ∧
        s' = (onPresent d out s).1

/-- **The group follows the selector**: the ports of the selected pods carry it and no
others, and a pod no policy selects has the default groups. -/
def Follows (d : Deployment) (s : Attachment) : Prop :=
  ∃ sgId, s.policy.securityGroupId = some sgId ∧
    ∀ pod ∈ d.pods, ∀ port, d.port pod = some port →
      (sgId ∈ s.sgs port ↔ matchSelector (some s.policy.podSelector) pod.labels = true) ∧
      (matchSelector (some s.policy.podSelector) pod.labels = false →
        (∀ crd ∈ d.before ++ d.after, matchSelector (some crd.podSelector) pod.labels = false) →
        s.sgs port = d.podSecurityGroups)

/-- The histories in which the recorded and the current selector cover the ports that carry
the group: an edit leaves none of them out, and no update is answered with "not found". -/
def Tracked (d : Deployment) (s : Attachment) : PolicyStep → Prop
  | .edit selector =>
    ∀ sgId recorded, s.policy.securityGroupId = some sgId → s.policy.recorded = some recorded →
      ∀ pod ∈ d.pods, ∀ port, d.port pod = some port → sgId ∈ s.sgs port →
        matchSelector (some recorded) pod.labels = true ∨
          matchSelector (some selector) pod.labels = true
  | .present out => ∀ i, out.updated i ≠ .gone

/-! ## The groups of a pod -/

/-- The groups of a pod, by whether the policy selects it. -/
def sgsWhen (d : Deployment) (sgId : String) (selected : Bool) (pod : Pod) :
    Except Exc (List String) := do
  let first ← matchedSgs pod d.before
  let last ← matchedSgs pod d.after
  orDefaults d (first ++ (if selected then [sgId] else []) ++ last)

theorem matchedSgs_append (pod : Pod) : ∀ (crds crds' : List OtherPolicy),
    matchedSgs pod (crds ++ crds') = do
      let first ← matchedSgs pod crds
      let last ← matchedSgs pod crds'
      return first ++ last
  | [], crds' => by
    show matchedSgs pod crds' = (matchedSgs pod crds').bind fun last => .ok ([] ++ last)
    cases matchedSgs pod crds' <;> rfl
  | crd :: crds, crds' => by
    rw [List.cons_append, matchedSgs, matchedSgs, matchedSgs_append pod crds crds']
    cases matchSelector (some crd.podSelector) pod.labels with
    | false => rfl
    | true =>
      cases crd.securityGroupId with
      | none => rfl
      | some sgId =>
        show Except.map _ _ = Except.bind (Except.map _ _) _
        cases matchedSgs pod crds with
        | error e => rfl
        | ok first => cases matchedSgs pod crds' <;> rfl

theorem getPodSgs_eq {d : Deployment} {policy : PolicyState} {sgId : String}
    (h : policy.securityGroupId = some sgId) (pod : Pod) :
    getPodSgs d policy pod
      = sgsWhen d sgId (matchSelector (some policy.podSelector) pod.labels) pod := by
  rw [getPodSgs, sgsWhen, matchedSgs_append, matchedSgs, h]
  cases matchedSgs pod d.before with
  | error e => rfl
  | ok first =>
    cases matchSelector (some policy.podSelector) pod.labels with
    | false =>
      cases matchedSgs pod d.after with
      | error e => rfl
      | ok last =>
        show orDefaults d (first ++ last) = orDefaults d (first ++ [] ++ last)
        rw [List.append_nil]
    | true =>
      cases matchedSgs pod d.after with
      | error e => rfl
      | ok last =>
        show orDefaults d (first ++ sgId :: last) = orDefaults d (first ++ [sgId] ++ last)
        rw [List.append_assoc, List.singleton_append]

/-- The groups of the policies are those of policies in the list. -/
theorem mem_matchedSgs {pod : Pod} : ∀ {crds : List OtherPolicy} {groups : List String},
    matchedSgs pod crds = .ok groups →
      ∀ sgId ∈ groups, ∃ crd ∈ crds, crd.securityGroupId = some sgId
  | [], groups, h, sgId, hmem => by
    cases h
    cases hmem
  | crd :: crds, groups, h, sgId, hmem => by
    rw [matchedSgs] at h
    split at h
    · split at h
      · cases h
      · next own hown =>
        cases hrest : matchedSgs pod crds with
        | error e =>
          rw [hrest] at h
          cases h
        | ok rest =>
          rw [hrest] at h
          cases h
          rcases List.mem_cons.mp hmem with rfl | hmem
          · exact ⟨crd, List.mem_cons_self, hown⟩
          · obtain ⟨c, hc, hid⟩ := mem_matchedSgs hrest sgId hmem
            exact ⟨c, List.mem_cons_of_mem _ hc, hid⟩
    · obtain ⟨c, hc, hid⟩ := mem_matchedSgs h sgId hmem
      exact ⟨c, List.mem_cons_of_mem _ hc, hid⟩

theorem matchedSgs_unmatched {pod : Pod} : ∀ {crds : List OtherPolicy},
    (∀ crd ∈ crds, matchSelector (some crd.podSelector) pod.labels = false) →
      matchedSgs pod crds = .ok []
  | [], _ => rfl
  | crd :: crds, h => by
    rw [matchedSgs, h crd List.mem_cons_self]
    exact matchedSgs_unmatched fun c hc => h c (List.mem_cons_of_mem _ hc)

theorem orDefaults_cases {d : Deployment} {sgs groups : List String}
    (h : orDefaults d sgs = .ok groups) :
    (sgs = [] ∧ groups = d.podSecurityGroups) ∨ (sgs ≠ [] ∧ groups = sgs) := by
  cases sgs with
  | nil =>
    rw [orDefaults] at h
    split at h
    · cases h
    · cases h
      exact .inl ⟨rfl, rfl⟩
  | cons sgId rest =>
    cases h
    exact .inr ⟨List.cons_ne_nil _ _, rfl⟩

theorem sgsWhen_cases {d : Deployment} {sgId : String} {selected : Bool} {pod : Pod}
    {groups : List String} (h : sgsWhen d sgId selected pod = .ok groups) :
    ∃ first last, matchedSgs pod d.before = .ok first ∧ matchedSgs pod d.after = .ok last ∧
      orDefaults d (first ++ (if selected then [sgId] else []) ++ last) = .ok groups := by
  obtain ⟨first, hfirst, h⟩ := bind_eq_ok.mp h
  obtain ⟨last, hlast, h⟩ := bind_eq_ok.mp h
  exact ⟨first, last, hfirst, hlast, h⟩

/-- The groups of a pod have that of the policy exactly when it selects the pod. -/
theorem mem_sgsWhen {d : Deployment} {sgId : String} (hnew : d.NewGroup sgId) {selected : Bool}
    {pod : Pod} {groups : List String} (h : sgsWhen d sgId selected pod = .ok groups) :
    sgId ∈ groups ↔ selected = true := by
  obtain ⟨first, last, hfirst, hlast, h⟩ := sgsWhen_cases h
  have hno : sgId ∉ first ++ last := by
    intro hmem
    rcases List.mem_append.mp hmem with hmem | hmem
    · obtain ⟨crd, hcrd, hid⟩ := mem_matchedSgs hfirst sgId hmem
      exact hnew.2 crd (List.mem_append_left _ hcrd) hid
    · obtain ⟨crd, hcrd, hid⟩ := mem_matchedSgs hlast sgId hmem
      exact hnew.2 crd (List.mem_append_right _ hcrd) hid
  cases selected with
  | true =>
    rcases orDefaults_cases h with ⟨hnil, -⟩ | ⟨-, rfl⟩
    · simp at hnil
    · simp
  | false =>
    rcases orDefaults_cases h with ⟨-, rfl⟩ | ⟨-, rfl⟩
    · exact ⟨fun hmem => absurd hmem hnew.1, fun h => (nomatch h)⟩
    · refine ⟨fun hmem => absurd ?_ hno, fun h => (nomatch h)⟩
      simpa using hmem

theorem sgsWhen_unselected {d : Deployment} {sgId : String} {pod : Pod} {groups : List String}
    (hothers : ∀ crd ∈ d.before ++ d.after, matchSelector (some crd.podSelector) pod.labels = false)
    (h : sgsWhen d sgId false pod = .ok groups) : groups = d.podSecurityGroups := by
  obtain ⟨first, last, hfirst, hlast, h⟩ := sgsWhen_cases h
  rw [matchedSgs_unmatched fun crd hc => hothers crd (List.mem_append_left _ hc)] at hfirst
  rw [matchedSgs_unmatched fun crd hc => hothers crd (List.mem_append_right _ hc)] at hlast
  cases hfirst
  cases hlast
  rcases orDefaults_cases h with ⟨-, hg⟩ | ⟨hne, -⟩
  · exact hg
  · exact absurd rfl hne

/-! ## Which pods are updated -/

theorem affectedPods_subset {d : Deployment} {selector : LabelSelector} {pods : List Pod}
    (h : affectedPods d selector = .ok pods) : ∀ pod ∈ pods, pod ∈ d.pods := by
  unfold affectedPods at h
  split at h
  · exact fun pod hp => mem_podsIn_of_getPods h hp
  · cases h
    exact fun _ hp => hp

theorem ns_of_mem {d : Deployment} {pod : Pod} (h : pod ∈ d.pods) : pod.ns = d.ns := by
  have hns := (List.mem_filter.mp h).2
  simpa using hns

/-- Where the two sides agree, the affected pods are those the client matches. -/
theorem mem_affectedPods {d : Deployment} {selector : LabelSelector} (hagree : d.Agreeing selector)
    {pods : List Pod} (h : affectedPods d selector = .ok pods) {pod : Pod} (hp : pod ∈ d.pods) :
    pod ∈ pods ↔ matchSelector (some selector) pod.labels = true := by
  unfold affectedPods at h
  split at h
  · next hne =>
    obtain ⟨pods', hok, hiff⟩ := hagree hne pod hp
    rw [ns_of_mem hp, h] at hok
    cases hok
    exact hiff.symm
  · next hnone =>
    cases h
    rw [not_not.mp hnone]
    exact ⟨fun _ => rfl, fun _ => hp⟩

/-- A listing that got through. -/
theorem affectedPods_of_listed {d : Deployment} {selector : LabelSelector} {listed : Bool}
    {pods : List Pod}
    (h : (if listed then (affectedPods d selector).toOption else none) = some pods) :
    affectedPods d selector = .ok pods := by
  split at h
  · cases hok : affectedPods d selector with
    | error e =>
      rw [hok] at h
      cases h
    | ok l =>
      rw [hok] at h
      cases h
      rfl
  · cases h

theorem podsToUpdate_subset {d : Deployment} {out : PresentRun} {policy : PolicyState}
    {pods : List Pod} (h : podsToUpdate d out policy = some pods) : ∀ pod ∈ pods, pod ∈ d.pods := by
  unfold podsToUpdate at h
  obtain ⟨previous, hprev, h⟩ := Option.bind_eq_some_iff.mp h
  obtain ⟨matched, hmatched, rfl⟩ := Option.map_eq_some_iff.mp h
  intro pod hp
  rcases List.mem_append.mp hp with hp | hp
  · split at hprev
    · split at hprev
      · cases hprev
        exact hp
      · cases hprev
    · split at hprev
      · exact affectedPods_subset (affectedPods_of_listed hprev) pod hp
      · cases hprev
        cases hp
  · exact affectedPods_subset (affectedPods_of_listed hmatched) pod hp

/-- A run that gets through updates the selected pods, and unless it finds the recorded
selector in the spec, the pods of that one, all of them for a new policy. -/
theorem mem_podsToUpdate {d : Deployment} {out : PresentRun} {policy : PolicyState}
    {pods : List Pod} (h : podsToUpdate d out policy = some pods)
    (hagree : d.Agreeing policy.podSelector)
    (hrec : ∀ selector, policy.recorded = some selector → d.Agreeing selector) {pod : Pod}
    (hp : pod ∈ d.pods)
    (hcovered : ∀ selector, policy.recorded = some selector →
      matchSelector (some selector) pod.labels = true ∨
        matchSelector (some policy.podSelector) pod.labels = true) : pod ∈ pods := by
  unfold podsToUpdate at h
  obtain ⟨previous, hprev, h⟩ := Option.bind_eq_some_iff.mp h
  obtain ⟨matched, hmatched, rfl⟩ := Option.map_eq_some_iff.mp h
  have hselected : matchSelector (some policy.podSelector) pod.labels = true → pod ∈ matched :=
    (mem_affectedPods hagree (affectedPods_of_listed hmatched) hp).mpr
  rw [List.mem_append]
  cases hr : policy.recorded with
  | none =>
    rw [hr] at hprev
    simp only at hprev
    split at hprev
    · cases hprev
      exact .inl hp
    · cases hprev
  | some selector =>
    rw [hr] at hprev
    simp only at hprev
    rcases hcovered selector hr with hmatch | hmatch
    · split at hprev
      · exact .inl ((mem_affectedPods (hrec selector hr) (affectedPods_of_listed hprev) hp).mpr
          hmatch)
      · next hsame =>
        rw [not_or, not_not] at hsame
        exact .inr (hselected (hsame.1 ▸ hmatch))
    · exact .inr (hselected hmatch)

/-! ## The loop over the pods -/

theorem updateVifSgs_self {d : Deployment} {sgs : PortId → List String} {pod : Pod} {port : PortId}
    (h : d.port pod = some port) (groups : List String) :
      updateVifSgs d sgs pod groups port = groups := by
  rw [updateVifSgs, h]
  exact if_pos (List.mem_singleton.mpr rfl)

theorem updateVifSgs_other {d : Deployment} {sgs : PortId → List String} {pod : Pod} {port : PortId}
    (h : d.port pod ≠ some port) (groups : List String) :
    updateVifSgs d sgs pod groups port = sgs port := by
  rw [updateVifSgs]
  exact if_neg fun hmem => h (Option.mem_toList.mp hmem)

/-- A run changes ports only to what `_get_pod_sgs` says of a pod it updates. -/
theorem updatePods_only (d : Deployment) (policy : PolicyState) (out : PresentRun) (port : PortId) :
    ∀ (pods : List Pod) (i : Nat) (sgs : PortId → List String),
      (updatePods d policy out i pods sgs).2 port = sgs port ∨
        ∃ pod ∈ pods, d.port pod = some port ∧
          getPodSgs d policy pod = .ok ((updatePods d policy out i pods sgs).2 port)
  | [], _, _ => .inl rfl
  | pod :: pods, i, sgs => by
    have hlater : ∀ sgs',
        (updatePods d policy out (i + 1) pods sgs').2 port = sgs' port ∨
          ∃ pod' ∈ pod :: pods, d.port pod' = some port ∧
            getPodSgs d policy pod' = .ok ((updatePods d policy out (i + 1) pods sgs').2 port) := by
      intro sgs'
      refine (updatePods_only d policy out port pods (i + 1) sgs').imp id ?_
      rintro ⟨pod', hmem, h⟩
      exact ⟨pod', List.mem_cons_of_mem _ hmem, h⟩
    rw [updatePods]
    split
    · exact hlater sgs
    · split
      · exact .inl rfl
      · split
        · exact .inl rfl
        · next groups hgroups =>
          split
          · rcases hlater (updateVifSgs d sgs pod groups) with h | h
            · by_cases hport : d.port pod = some port
              · refine .inr ⟨pod, List.mem_cons_self, hport, ?_⟩
                rw [h, updateVifSgs_self hport]
                exact hgroups
              · exact .inl (h.trans (updateVifSgs_other hport groups))
            · exact .inr h
          · exact hlater sgs
          · exact .inl rfl

/-- A loop that gets through gives every pod of its list the groups it should have. -/
theorem updatePods_all {d : Deployment} (hd : d.Ready) (policy : PolicyState) {out : PresentRun}
    (hout : ∀ i, out.updated i ≠ .gone) {pod : Pod} (hpod : pod ∈ d.pods) {port : PortId}
    (hport : d.port pod = some port) :
    ∀ (pods : List Pod) (i : Nat) (sgs : PortId → List String), (∀ p ∈ pods, p ∈ d.pods) →
      (updatePods d policy out i pods sgs).1 = true →
      pod ∈ pods ∨ getPodSgs d policy pod = .ok (sgs port) →
        getPodSgs d policy pod = .ok ((updatePods d policy out i pods sgs).2 port)
  | [], _, _, _, _, h => h.resolve_left List.not_mem_nil
  | p :: pods, i, sgs, hsub, hok, h => by
    have hp := hsub p List.mem_cons_self
    have hrest : ∀ q ∈ pods, q ∈ d.pods := fun q hq => hsub q (List.mem_cons_of_mem _ hq)
    have hskip : ¬ (p.hostNetwork = true ∨ ¬ d.scheduled p = true) := by
      rintro (hhost | hsched)
      · rw [hd.ownNetwork p hp] at hhost
        cases hhost
      · exact hsched (hd.scheduled p hp)
    rw [updatePods, if_neg hskip] at hok ⊢
    split at hok
    · cases hok
    · next hlisted =>
      rw [if_neg hlisted]
      split at hok
      · cases hok
      · next groups hgroups =>
        split at hok
        · next hdone =>
          refine updatePods_all hd policy hout hpod hport pods (i + 1) _ hrest hok ?_
          by_cases hsame : p = pod
          · subst hsame
            refine .inr ?_
            rw [updateVifSgs_self hport]
            exact hgroups
          · have hne : d.port p ≠ some port := fun heq =>
              hsame (hd.port_inj p hp pod hpod (heq.trans hport.symm))
            rw [updateVifSgs_other hne]
            exact h.imp (fun hmem => (List.mem_cons.mp hmem).resolve_left (Ne.symm hsame)) id
        · next hgone => exact absurd hgone (hout i)
        · cases hok

/-! ## Whole runs of the handler -/

/-- What a run does. -/
theorem onPresent_cases (d : Deployment) (out : PresentRun) (s : Attachment) :
    onPresent d out s = (s, false) ∨
    ∃ policy, ensureSecurityGroup out s.policy = some policy ∧
      (onPresent d out s = (⟨policy, s.sgs⟩, false) ∨
      ∃ pods, podsToUpdate d out policy = some pods ∧
        (onPresent d out s = (⟨policy, (updatePods d policy out 0 pods s.sgs).2⟩, false) ∨
        (updatePods d policy out 0 pods s.sgs).1 = true ∧
          ∃ recorded, (recorded = some policy.podSelector ∨ recorded = policy.recorded) ∧
            onPresent d out s = (⟨{ policy with recorded := recorded },
              (updatePods d policy out 0 pods s.sgs).2⟩, true))) := by
  unfold onPresent
  cases hsg : ensureSecurityGroup out s.policy with
  | none => exact .inl rfl
  | some policy =>
    refine .inr ⟨policy, rfl, ?_⟩
    simp only
    split
    · exact .inl rfl
    · cases hpods : podsToUpdate d out policy with
      | none => exact .inl rfl
      | some pods =>
        refine .inr ⟨pods, rfl, ?_⟩
        simp only
        rcases hup : updatePods d policy out 0 pods s.sgs with ⟨ok, sgs⟩
        cases ok with
        | false => exact .inl rfl
        | true =>
          simp only
          split
          · exact .inl rfl
          · split
            · exact .inr ⟨trivial, _, .inl rfl, rfl⟩
            · exact .inr ⟨trivial, _, .inr rfl, rfl⟩
            · exact .inl rfl

/-- The invariant. Once a selector is recorded, every port has the groups of its pod with
or without the policy, and those that carry its group are selected by the recorded or the
current selector. -/
structure Consistent (d : Deployment) (s : Attachment) : Prop where
  agreeing : d.Agreeing s.policy.podSelector
  recorded_agreeing : ∀ recorded, s.policy.recorded = some recorded → d.Agreeing recorded
  newGroup : ∀ sgId, s.policy.securityGroupId = some sgId → d.NewGroup sgId
  ports : ∀ sgId recorded, s.policy.securityGroupId = some sgId →
    s.policy.recorded = some recorded →
    ∀ pod ∈ d.pods, ∀ port, d.port pod = some port →
      ∃ selected, sgsWhen d sgId selected pod = .ok (s.sgs port) ∧
        (selected = true → matchSelector (some recorded) pod.labels = true ∨
          matchSelector (some s.policy.podSelector) pod.labels = true)
  /-- A selector is recorded only with a group. -/
  grouped : s.policy.securityGroupId = none → s.policy.recorded = none

variable {d : Deployment} {out : PresentRun} {s : Attachment}

theorem ensureSecurityGroup_spec {policy : PolicyState} (hs : Consistent d s)
    (hcreated : ∀ sgId, out.created = some sgId → d.NewGroup sgId)
    (h : ensureSecurityGroup out s.policy = some policy) :
    policy.podSelector = s.policy.podSelector ∧ policy.recorded = s.policy.recorded ∧
      ∃ sgId, policy.securityGroupId = some sgId ∧ d.NewGroup sgId ∧
        (s.policy.recorded ≠ none → s.policy.securityGroupId = some sgId) := by
  unfold ensureSecurityGroup at h
  split at h
  · next sgId hsg =>
    cases h
    exact ⟨rfl, rfl, sgId, hsg, hs.newGroup sgId hsg, fun _ => hsg⟩
  · next hsg =>
    split at h
    · cases h
    · next sgId hnew =>
      split at h
      · cases h
        exact ⟨rfl, rfl, sgId, rfl, hcreated sgId hnew, fun hrec => absurd (hs.grouped hsg) hrec⟩
      · cases h

/-- After a run that got through its pods, every port has the groups its pod should have. -/
theorem updated_exact (hd : d.Ready) (hs : Consistent d s) (hout : ∀ i, out.updated i ≠ .gone)
    (hcreated : ∀ sgId, out.created = some sgId → d.NewGroup sgId) {policy : PolicyState}
    (hsg : ensureSecurityGroup out s.policy = some policy) {pods : List Pod}
    (hpods : podsToUpdate d out policy = some pods)
    (hok : (updatePods d policy out 0 pods s.sgs).1 = true) {sgId : String}
    (hid : policy.securityGroupId = some sgId) {pod : Pod} (hp : pod ∈ d.pods) {port : PortId}
    (hport : d.port pod = some port) :
    sgsWhen d sgId (matchSelector (some policy.podSelector) pod.labels) pod
      = .ok ((updatePods d policy out 0 pods s.sgs).2 port) := by
  obtain ⟨hsel, hrecd, sgId', hid', -, hgroup⟩ := ensureSecurityGroup_spec hs hcreated hsg
  cases hid.symm.trans hid'
  have hsub := podsToUpdate_subset hpods
  rw [← getPodSgs_eq hid]
  by_cases hmem : pod ∈ pods
  · exact updatePods_all hd policy hout hp hport pods 0 s.sgs hsub hok (.inl hmem)
  · -- the pod is not updated: neither selector has it, and its port is right as it is
    have hnot : ¬ ∀ selector, policy.recorded = some selector →
        matchSelector (some selector) pod.labels = true ∨
          matchSelector (some policy.podSelector) pod.labels = true := by
      intro hcovered
      refine hmem (mem_podsToUpdate hpods (hsel ▸ hs.agreeing) (fun selector hr => ?_) hp hcovered)
      exact hs.recorded_agreeing selector (hrecd ▸ hr)
    obtain ⟨recorded, hrec, hcov⟩ : ∃ recorded, policy.recorded = some recorded ∧
        ¬ (matchSelector (some recorded) pod.labels = true ∨
          matchSelector (some policy.podSelector) pod.labels = true) := by
      by_contra hno
      refine hnot fun selector hr => ?_
      by_contra hc
      exact hno ⟨selector, hr, hc⟩
    rw [hrecd] at hrec
    have hid₀ : s.policy.securityGroupId = some sgId := hgroup (by rw [hrec]; simp)
    obtain ⟨selected, hgroups, hcarry⟩ := hs.ports sgId recorded hid₀ hrec pod hp port hport
    rw [← hsel] at hcarry
    have hselected : selected = false := by
      cases selected with
      | false => rfl
      | true => exact absurd (hcarry rfl) hcov
    have hmatch : matchSelector (some policy.podSelector) pod.labels = false := by
      cases hm : matchSelector (some policy.podSelector) pod.labels with
      | false => rfl
      | true => exact absurd (.inr hm) hcov
    have hkept : getPodSgs d policy pod = .ok (s.sgs port) := by
      rw [getPodSgs_eq hid, hmatch, ← hselected]
      exact hgroups
    exact updatePods_all hd policy hout hp hport pods 0 s.sgs hsub hok (.inr hkept)

/-- **Every step of a tracked history keeps the invariant.** -/
theorem step_consistent (hd : d.Ready) (hs : Consistent d s) {a : PolicyStep} {s' : Attachment}
    (hok : Tracked d s a) (h : (attachmentSystem d).step s a s') : Consistent d s' := by
  cases a with
  | edit selector =>
    obtain ⟨hagree, rfl⟩ := h
    refine ⟨hagree, hs.recorded_agreeing, hs.newGroup,
      fun sgId recorded hid hrec pod hp port hport => ?_,
      hs.grouped⟩
    obtain ⟨selected, hgroups, -⟩ := hs.ports sgId recorded hid hrec pod hp port hport
    refine ⟨selected, hgroups, fun hsel => ?_⟩
    refine hok sgId recorded hid hrec pod hp port hport ?_
    exact (mem_sgsWhen (hs.newGroup sgId hid) hgroups).mpr hsel
  | present out =>
    obtain ⟨hcreated, rfl⟩ := h
    rcases onPresent_cases d out s with heq | ⟨policy, hsg, heq⟩
    · rw [heq]
      exact hs
    obtain ⟨hsel, hrecd, sgId, hid, hnew, hgroup⟩ := ensureSecurityGroup_spec hs hcreated hsg
    have hagree : d.Agreeing policy.podSelector := hsel ▸ hs.agreeing
    have hrecagree : ∀ r, policy.recorded = some r → d.Agreeing r := fun r hr =>
      hs.recorded_agreeing r (hrecd ▸ hr)
    have hnewG : ∀ g, policy.securityGroupId = some g → d.NewGroup g := by
      intro g hg
      cases hid.symm.trans hg
      exact hnew
    have hsome : ∀ {r : Option LabelSelector}, policy.securityGroupId = none → r = none := by
      intro r hnone
      rw [hid] at hnone
      cases hnone
    -- a port as it was before the run
    have hold : ∀ r, policy.recorded = some r → ∀ pod ∈ d.pods, ∀ port, d.port pod = some port →
        ∃ selected, sgsWhen d sgId selected pod = .ok (s.sgs port) ∧
          (selected = true → matchSelector (some r) pod.labels = true ∨
            matchSelector (some policy.podSelector) pod.labels = true) := by
      intro r hr pod hp port hport
      rw [hsel]
      rw [hrecd] at hr
      exact hs.ports sgId r (hgroup (by rw [hr]; simp)) hr pod hp port hport
    rcases heq with heq | ⟨pods, hpods, heq | ⟨hdone, recorded, hrecorded, heq⟩⟩
    · rw [heq]
      refine ⟨hagree, hrecagree, hnewG, fun g r hg hr pod hp port hport => ?_, hsome⟩
      cases hid.symm.trans hg
      exact hold r hr pod hp port hport
    · rw [heq]
      refine ⟨hagree, hrecagree, hnewG, fun g r hg hr pod hp port hport => ?_, hsome⟩
      cases hid.symm.trans hg
      rcases updatePods_only d policy out port pods 0 s.sgs with
        hsame | ⟨pod', hmem, hport', hgroups⟩
      · show ∃ selected, sgsWhen d sgId selected pod =
          .ok ((updatePods d policy out 0 pods s.sgs).2 port) ∧ _
        rw [hsame]
        exact hold r hr pod hp port hport
      · obtain rfl := hd.port_inj pod' (podsToUpdate_subset hpods pod' hmem) pod hp
          (hport'.trans hport.symm)
        rw [getPodSgs_eq hid] at hgroups
        exact ⟨_, hgroups, .inr⟩
    · rw [heq]
      refine ⟨hagree, fun r hr => ?_, hnewG, fun g r hg hr pod hp port hport => ?_, hsome⟩
      · rcases hrecorded with rfl | rfl
        · cases hr
          exact hagree
        · exact hrecagree r hr
      · cases hid.symm.trans hg
        exact ⟨_, updated_exact hd hs hok hcreated hsg hpods hdone hid hp hport, .inr⟩

/-- **The group of a policy follows its selector**: after every run that returns, in every
tracked history. -/
theorem onPresent_follows (d : Deployment) (hd : d.Ready) (s : Attachment)
    (h : Reach (attachmentSystem d) (Tracked d) s) (out : PresentRun)
    (hok : Tracked d s (.present out))
    (hcreated : ∀ sgId, out.created = some sgId → d.NewGroup sgId)
    (hreturns : (onPresent d out s).2 = true) : Follows d (onPresent d out s).1 := by
  have hs : Consistent d s := by
    refine h.invariant (fun s₀ hinit => ?_) fun s₀ a s₁ hI hok hstep =>
      step_consistent hd hI hok hstep
    obtain ⟨hrec, hid, hagree⟩ := hinit
    refine ⟨hagree, fun r hr => ?_, fun g hg => ?_, fun g r hg => ?_, fun _ => hrec⟩
    · rw [hrec] at hr
      cases hr
    · rw [hid] at hg
      cases hg
    · rw [hid] at hg
      cases hg
  rcases onPresent_cases d out s with
    heq | ⟨policy, hsg, heq | ⟨pods, hpods, heq | ⟨hdone, recorded, -, heq⟩⟩⟩
  · rw [heq] at hreturns
    cases hreturns
  · rw [heq] at hreturns
    cases hreturns
  · rw [heq] at hreturns
    cases hreturns
  · rw [heq]
    obtain ⟨-, -, sgId, hid, hnew, -⟩ := ensureSecurityGroup_spec hs hcreated hsg
    refine ⟨sgId, hid, fun pod hp port hport => ?_⟩
    have hgroups := updated_exact hd hs hok hcreated hsg hpods hdone hid hp hport
    refine ⟨mem_sgsWhen hnew hgroups, fun hmatch hothers => ?_⟩
    replace hgroups : sgsWhen d sgId (matchSelector (some policy.podSelector) pod.labels) pod
      = .ok ((updatePods d policy out 0 pods s.sgs).2 port) := hgroups
    rw [show matchSelector (some policy.podSelector) pod.labels = false from hmatch] at hgroups
    exact sgsWhen_unselected hothers hgroups

/-! ## A history -/

/-- A pod with the label `app`. -/
def appPod (name app : String) : Pod where
  name := name
  ns := "shop"
  labels := some ⟨[("app", app)], by simp⟩
  podIP := some "10.0.0.5"
  kuryrPortIP := some "10.0.0.5"
  hostNetwork := false
  containers := [[]]
  containers_ne := by decide

/-- The selector of that label. -/
def appSelector (app : String) : LabelSelector := ⟨some ⟨[("app", app)], by simp⟩, none⟩

/-- A namespace with two pods, and no other policy. -/
def shop : Deployment where
  cluster :=
    { namespaces := [⟨"shop", none, [], none⟩]
      pods := [appPod "web-0" "web", appPod "db-0" "db"]
      services := []
      namespaces_nodup := by decide
      pods_nodup := by decide
      pods_namespaced := by decide
      services_namespaced := by decide }
  ns := "shop"
  scheduled := fun _ => true
  vifs := fun pod => [pod.name]
  before := []
  after := []
  podSecurityGroups := ["default"]

theorem shop_pods {P : Pod → Prop} (hweb : P (appPod "web-0" "web"))
    (hdb : P (appPod "db-0" "db")) :
    ∀ pod ∈ shop.pods, P pod := by
  intro pod hp
  have hmem : pod ∈ [appPod "web-0" "web", appPod "db-0" "db"] := (List.mem_filter.mp hp).1
  rcases List.mem_cons.mp hmem with rfl | hmem
  · exact hweb
  · rw [List.mem_singleton.mp hmem]
    exact hdb

theorem shop_ready : shop.Ready where
  scheduled := fun _ _ => rfl
  ownNetwork := shop_pods rfl rfl
  port := fun pod _ => ⟨pod.name, rfl⟩
  port_inj := shop_pods (shop_pods (fun _ => rfl) fun h => absurd h (by decide))
    (shop_pods (fun h => absurd h (by decide)) fun _ => rfl)

theorem shop_agreeing_web : shop.Agreeing (appSelector "web") := fun _ =>
  shop_pods ⟨[appPod "web-0" "web"], by decide +kernel, by decide +kernel⟩
    ⟨[appPod "web-0" "web"], by decide +kernel, by decide +kernel⟩

theorem shop_agreeing_db : shop.Agreeing (appSelector "db") := fun _ =>
  shop_pods ⟨[appPod "db-0" "db"], by decide +kernel, by decide +kernel⟩
    ⟨[appPod "db-0" "db"], by decide +kernel, by decide +kernel⟩

/-- A run whose requests are answered, but for the last patch. -/
def presentRun (patched : Call) : PresentRun where
  created := some "np-sg"
  sgPatched := true
  rules := true
  listedPrevious := true
  listedCurrent := true
  policiesListed := fun _ => true
  updated := fun _ => .done
  services := true
  patched := patched

theorem presentRun_newGroup (patched : Call) :
    ∀ sgId, (presentRun patched).created = some sgId → shop.NewGroup sgId := by
  intro sgId h
  cases h
  exact ⟨by decide, by decide⟩

/-- A new policy for the web pods. -/
def newPolicy : Attachment := ⟨⟨appSelector "web", none, none⟩, fun _ => ["default"]⟩

theorem newPolicy_reached (ok : Attachment → PolicyStep → Prop) :
    Reach (attachmentSystem shop) ok newPolicy :=
  Reach.init ⟨rfl, rfl, shop_agreeing_web⟩

/-- The first run. -/
theorem onPresent_follows_first :
    Follows shop (onPresent shop (presentRun .done) newPolicy).1 :=
  onPresent_follows shop shop_ready newPolicy (newPolicy_reached _) (presentRun .done)
    (fun _ h => (nomatch h)) (presentRun_newGroup .done) (by decide +kernel)

/-- The policy is applied to the web pods, then edited to select the database; that run
fails at its last request, and the selector is edited back. -/
def editedBack : Attachment :=
  let applied := (onPresent shop (presentRun .done) newPolicy).1
  let edited : Attachment := ⟨{ applied.policy with podSelector := appSelector "db" }, applied.sgs⟩
  let failed := (onPresent shop (presentRun .failed) edited).1
  ⟨{ failed.policy with podSelector := appSelector "web" }, failed.sgs⟩

theorem reach_edit {ok : Attachment → PolicyStep → Prop} {selector : LabelSelector}
    (h : Reach (attachmentSystem d) ok s) (hok : ok s (.edit selector))
    (hagree : d.Agreeing selector) :
    Reach (attachmentSystem d) ok ⟨{ s.policy with podSelector := selector }, s.sgs⟩ :=
  Reach.step h hok (show (attachmentSystem d).step s (.edit selector) _ from ⟨hagree, rfl⟩)

theorem reach_present {ok : Attachment → PolicyStep → Prop} (h : Reach (attachmentSystem d) ok s)
    (hok : ok s (.present out)) (hcreated : ∀ sgId, out.created = some sgId → d.NewGroup sgId) :
    Reach (attachmentSystem d) ok (onPresent d out s).1 :=
  Reach.step h hok (show (attachmentSystem d).step s (.present out) _ from ⟨hcreated, rfl⟩)

theorem editedBack_reached :
    Reach (attachmentSystem shop) (fun _ _ => True) editedBack := by
  have hfirst := reach_present (newPolicy_reached fun _ _ => True) trivial
    (presentRun_newGroup .done)
  have hedit := reach_edit hfirst trivial shop_agreeing_db
  have hfailed := reach_present hedit trivial (presentRun_newGroup .failed)
  exact reach_edit hfailed trivial shop_agreeing_web

/-- The recorded selector is the current one again, so the next run returns without a look
at the pods of the selector in between: the database keeps the group. -/
theorem onPresent_forgets_selector :
    ∃ s, Reach (attachmentSystem shop) (fun _ _ => True) s ∧
      (onPresent shop (presentRun .done) s).2 = true ∧
      "np-sg" ∈ (onPresent shop (presentRun .done) s).1.sgs "db-0" ∧
      ¬ Follows shop (onPresent shop (presentRun .done) s).1 := by
  have hcarries : "np-sg" ∈ (onPresent shop (presentRun .done) editedBack).1.sgs "db-0" := by
    decide +kernel
  refine ⟨editedBack, editedBack_reached, by decide +kernel, hcarries, ?_⟩
  rintro ⟨sgId, hid, hfollows⟩
  have hgroup : (onPresent shop (presentRun .done) editedBack).1.policy.securityGroupId
      = some "np-sg" := by decide +kernel
  cases hid.symm.trans hgroup
  have hdb := (hfollows (appPod "db-0" "db") (by decide +kernel) "db-0" rfl).1.mp hcarries
  exact absurd hdb (by decide +kernel)

end PolicyAttachment

end KuryrKubernetes
