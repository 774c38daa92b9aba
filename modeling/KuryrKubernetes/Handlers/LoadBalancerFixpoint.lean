import KuryrKubernetes.Handlers.LoadBalancerBuild

/-!
# The fixed point of the reconciliation

A pass of an obliging world ends with `_add_new_members`, whose loops record exactly
the entries of the slices that `attempt` says (`MemberRun`). So the first pass leaves
the listeners and pools of the spec, with members that are all wanted or, after a
change of address, all of pools that are gone (`Standing`); the second one leaves a
reconciled status (`Reconciled`); and from then on passes only read, and write the
security groups of the load balancer again.
-/

namespace KuryrKubernetes

namespace LoadBalancer

open Effect

variable {α : Type} {env : Env} {c c' : Crd} {base : Status} {log : List Entry}

/-! ## The loops of `_add_new_members` -/

/-- The endpoint is passed over: its reference has no namespace. -/
def Endpoint.skipped (ep : Endpoint) : Bool :=
  ep.targetRef.any fun ref => ref.targetNamespace.isNone

instance lawfulBEq_target : LawfulBEq (String × Nat × String) := inferInstance

/-- The identity of the member made for an entry, if one is. -/
def attempt (c : Crd) (e : Endpoint × SlicePort) : Option (String × String × Nat × Option String) :=
  if e.1.skipped then
    none
  else
    match (directory c).pools.lookup e.2.name with
    | none => none
    | some pool =>
      if (e.1.address, e.2.port, pool.id) ∈ (directory c).currentTargets then
        none
      else
        some (e.1.address, podName c.name e.1, e.2.port, some pool.id)

/-- Since `log` there were only reads, and patches of the security groups. -/
def Quiet (log log' : List Entry) : Prop :=
  ∃ calls, log' = log ++ calls ∧
    ∀ x ∈ calls, x.call = .read ∨ x.call = .patchSecurityGroups true

theorem Quiet.refl (log : List Entry) : Quiet log log :=
  ⟨[], (List.append_nil log).symm, fun x hx => by cases hx⟩

theorem Quiet.concat {log' : List Entry} (h : Quiet log log') {x : Entry}
    (hx : x.call = .read ∨ x.call = .patchSecurityGroups true) : Quiet log (log' ++ [x]) := by
  obtain ⟨calls, rfl, hcalls⟩ := h
  refine ⟨calls ++ [x], List.append_assoc _ _ _, fun y hy => ?_⟩
  rcases List.mem_append.mp hy with hy | hy
  · exact hcalls y hy
  · rw [List.mem_singleton.mp hy]
    exact hx

/-- The loops of `_add_new_members`, started with `c`, before the entries in `rest`. -/
structure MemberRun (c : Crd) (base : Status) (log : List Entry)
    (rest : List (Endpoint × SlicePort))
    (changed : Bool) (w : World) : Prop where
  frame : w.crd = { c with status := { c.status with members := w.crd.status.members } }
  overlaid : Over base w
  recorded : ∃ done, c.spec.entries = done ++ rest ∧
    w.crd.status.memberList.map Member.identity =
      c.status.memberList.map Member.identity ++ done.filterMap (attempt c)
  quiet : (∀ e ∈ c.spec.entries, attempt c e = none) →
    changed = false ∧ w.crd = c ∧ Quiet log w.log

section MemberRun

variable {e : Endpoint × SlicePort} {es rest : List (Endpoint × SlicePort)} {changed : Bool}
  {w : World}

theorem MemberRun.mem (h : MemberRun c base log (e :: rest) changed w) : e ∈ c.spec.entries := by
  obtain ⟨done, hdone, _⟩ := h.recorded
  rw [hdone]
  exact List.mem_append_right _ List.mem_cons_self

theorem MemberRun.read (h : MemberRun c base log rest changed w) :
    MemberRun c base log rest changed (w.record .read w.stored) where
  frame := h.frame
  overlaid := h.overlaid
  recorded := h.recorded
  quiet := fun hnone =>
    ⟨(h.quiet hnone).1, (h.quiet hnone).2.1, (h.quiet hnone).2.2.concat (.inl rfl)⟩

/-- Entries no member is made for. -/
theorem MemberRun.skip (h : MemberRun c base log (es ++ rest) changed w)
    (hes : ∀ e ∈ es, attempt c e = none) : MemberRun c base log rest changed w where
  frame := h.frame
  overlaid := h.overlaid
  recorded := by
    obtain ⟨done, hdone, hmembers⟩ := h.recorded
    refine ⟨done ++ es, by rw [hdone, List.append_assoc], ?_⟩
    rw [hmembers, List.filterMap_append, List.filterMap_eq_nil_iff.mpr hes, List.append_nil]
  quiet := h.quiet

/-- A member for the entry at hand. -/
theorem MemberRun.add (h : MemberRun c base log (e :: rest) changed w) {m : Member}
    (hm : attempt c e = some m.identity) {w' : World} (hover : Over base w')
    (hw' : w'.crd = { w.crd with status := { w.crd.status with
      members := some (w.crd.status.memberList ++ [m]) } }) :
    MemberRun c base log rest true w' where
  frame := by rw [hw', h.frame]
  overlaid := hover
  recorded := by
    obtain ⟨done, hdone, hmembers⟩ := h.recorded
    refine ⟨done ++ [e], by rw [hdone, List.append_assoc, List.singleton_append], ?_⟩
    rw [hw', List.filterMap_append, ← List.append_assoc, ← hmembers, List.filterMap_cons_some hm]
    exact List.map_append
  quiet := by
    intro hnone
    rw [hnone e h.mem] at hm
    cases hm

/-- A read that succeeds. -/
theorem total_read {reply : World → Reply α} {P : α → Prop} (h : ∀ w, (reply w).Succeeds P) :
    Total (MemberRun c base log rest changed) (call .read reply) fun a w =>
      MemberRun c base log rest changed w ∧ P a := by
  intro w hw
  obtain ⟨hcleaned, a, hout, hP⟩ := h w
  have hstored : storedAfter w (reply w) = w.stored := by
    rw [storedAfter, hcleaned]
    rfl
  rw [call_of_some hout, hstored]
  exact ⟨hw.read, hP⟩

/-- Without a pod the address is that of a node. -/
def NodeAddress (env : Env) (ip : String) (pod : Option String) : Prop :=
  pod = none → env.l2MemberMode = true → ∀ w, (env.nodesSubnet w ip).Succeeds fun r => r.isSome

theorem nodeAddress_of_reply (henv : Obliging env) {w : World} {ip : String} {ns : Option String}
    {pod : Option String} (h : (env.getPodByIp w ip ns).outcome = some pod) :
    NodeAddress env ip pod := by
  rintro rfl hmode w'
  exact henv.nodeSubnet hmode w w' ip ns h

theorem total_targetPod (henv : Obliging env) {ep : Endpoint} :
    Total (MemberRun c base log rest changed) (targetPod env ep) fun pod w =>
      MemberRun c base log rest changed w ∧ NodeAddress env ep.address pod := by
  have hpod : ∀ ns, Total (MemberRun c base log rest changed)
      (call .read fun w => env.getPodByIp w ep.address ns) fun pod w =>
        MemberRun c base log rest changed w ∧ NodeAddress env ep.address pod := by
    refine fun ns => total_read fun w => ?_
    obtain ⟨hcleaned, pod, hout, _⟩ := henv.pod w ep.address ns
    exact ⟨hcleaned, pod, hout, nodeAddress_of_reply henv hout⟩
  unfold targetPod
  split
  · exact hpod _
  · have hnode : Total (MemberRun c base log rest changed)
        (call .read fun w => env.nodesSubnet w ep.address) fun r w =>
          MemberRun c base log rest changed w ∧
            (r.isSome → ∀ w', (env.nodesSubnet w' ep.address).Succeeds fun r => r.isSome) := by
      refine total_read fun w => ?_
      obtain ⟨hcleaned, r, hout, _⟩ := henv.node w ep.address
      refine ⟨hcleaned, r, hout, fun hsome w' => ?_⟩
      obtain ⟨subnet, rfl⟩ := Option.isSome_iff_exists.mp hsome
      exact henv.nodeStable w w' ep.address subnet hout
    refine Triple.keep hnode fun r hr => ?_
    cases r with
    | some subnet => exact Triple.pure fun w hw => ⟨hw, fun _ _ => hr rfl⟩
    | none => exact hpod none

/-- The subnet of a member can be determined: outside of layer 2 mode it is that of
the load balancer. -/
def Subnetted (env : Env) (lb : Option Balancer) : Prop :=
  env.l2MemberMode = false → ∀ b, lb = some b → b.subnetId.isSome

theorem total_getSubnetByOctaviaMode (henv : Obliging env) (hlb : c.status.loadbalancer.isSome)
    (hsubnet : Subnetted env c.status.loadbalancer) {pod : Option String} {ip : String}
    (hpod : NodeAddress env ip pod) :
    Total (MemberRun c base log rest changed) (getSubnetByOctaviaMode env pod ip) fun r w =>
      MemberRun c base log rest changed w ∧ r.isSome := by
  unfold getSubnetByOctaviaMode
  split
  · rename_i hmode
    cases pod with
    | some pod => exact total_read fun w => henv.podSubnet w pod ip
    | none => exact total_read fun w => hpod rfl hmode w
  · rename_i hmode
    intro w hw
    obtain ⟨lb, hsome⟩ := Option.isSome_iff_exists.mp hlb
    have hw' : w.crd.status.loadbalancer = some lb := by
      rw [hw.frame]
      exact hsome
    have hrun : theBalancer w = .ok lb w := by
      rw [theBalancer, run_bind_ok (show getStatus w = .ok w.crd.status w from rfl), hw']
      rfl
    rw [run_bind_ok hrun]
    exact ⟨hw, hsubnet (Bool.eq_false_iff.mpr hmode) lb hsome⟩

/-- References that have a namespace have a name, too. -/
def Endpoint.Complete (ep : Endpoint) : Prop :=
  ∀ ref, ep.targetRef = some ref → ref.targetNamespace.isSome → ref.name.isSome

theorem total_getTargetInfo (hskipped : e.1.skipped = false)
    (hcomplete : ∀ e ∈ c.spec.entries, e.1.Complete) :
    Total (MemberRun c base log (e :: rest) changed) (getTargetInfo e.1.targetRef) fun info w =>
      MemberRun c base log (e :: rest) changed w ∧ info.2 = podName c.name e.1 := by
  intro w hw
  unfold podName getTargetInfo
  cases href : e.1.targetRef with
  | none =>
    refine ⟨hw, ?_⟩
    show w.crd.name = c.name
    rw [hw.frame]
  | some ref =>
    obtain ⟨ns, name⟩ := ref
    cases ns with
    | none =>
      rw [Endpoint.skipped, href] at hskipped
      cases hskipped
    | some ns =>
      obtain ⟨n, hn⟩ := Option.isSome_iff_exists.mp (hcomplete e hw.mem _ href rfl)
      have hname : name = some n := hn
      rw [hname]
      exact ⟨hw, rfl⟩

theorem total_ensureMember (henv : Obliging env) (hlb : c.status.loadbalancer.isSome) {pool : Pool}
    {name : MemberName} {ip subnet : String}
    (hattempt : attempt c e = some (ip, name.targetName, name.port, some pool.id)) :
    Total (MemberRun c base log (e :: rest) changed) (ensureMember env pool name ip subnet changed)
      (Exit (fun _ => False) (MemberRun c base log rest)) := by
  intro w hw
  obtain ⟨lb, hsome⟩ := Option.isSome_iff_exists.mp hlb
  have hw' : w.crd.status.loadbalancer = some lb := by
    rw [hw.frame]
    exact hsome
  refine Triple.keep (total_theBalancer hw') (fun b _ => ?_) w ⟨rfl, hw.overlaid⟩
  refine Triple.bind (total_call fun t _ => henv.member t b pool name ip subnet) fun r t ht => ?_
  obtain ⟨ht, hr⟩ := ht
  obtain ⟨id, rfl⟩ := Option.isSome_iff_exists.mp hr
  refine Triple.bind total_updateStatus (fun _ => ?_) t ht
  refine Triple.bind (total_patchStatus_over henv ⟨fun h => h, fun h => h, fun h => h,
    fun _ => rfl, fun h => h⟩ ?_) fun b u hu => ?_
  · intro hempty
    have hmembers := congrArg Status.members hempty
    cases hmembers
  · obtain ⟨rfl, hcrd, hover⟩ := hu
    exact hw.add (m := ⟨id, name, ip, name.port, pool.id⟩) hattempt hover hcrd

/-- One entry. -/
theorem total_addNewMember (henv : Obliging env) (hlb : c.status.loadbalancer.isSome)
    (hsubnet : Subnetted env c.status.loadbalancer) {pod : Option String}
    (hpod : NodeAddress env e.1.address pod) (hskipped : e.1.skipped = false)
    (hcomplete : ∀ e ∈ c.spec.entries, e.1.Complete) :
    Total (MemberRun c base log (e :: rest) changed)
      (addNewMember env (directory c) e.1 pod e.2 changed)
      (Exit (fun _ => False) (MemberRun c base log rest)) := by
  have hskip : attempt c e = none → ∀ w, MemberRun c base log (e :: rest) changed w →
      MemberRun c base log rest changed w := by
    intro hnone w hw
    have hw' : MemberRun c base log ([e] ++ rest) changed w := hw
    refine hw'.skip fun x hx => ?_
    rw [List.mem_singleton.mp hx, hnone]
  unfold addNewMember
  cases hpool : (directory c).pools.lookup e.2.name with
  | none =>
    refine Triple.pure (hskip ?_)
    simp only [attempt, hskipped, hpool, Bool.false_eq_true, if_false]
  | some pool =>
    simp only
    split
    · rename_i hcurrent
      refine Triple.pure (hskip ?_)
      simp only [attempt, hskipped, hpool, Bool.false_eq_true, if_false, if_pos hcurrent]
    · rename_i hcurrent
      refine Triple.keep (total_getSubnetByOctaviaMode henv hlb hsubnet hpod) fun r hr => ?_
      obtain ⟨subnet, rfl⟩ := Option.isSome_iff_exists.mp hr
      refine Triple.keep (total_getTargetInfo hskipped hcomplete) fun info hinfo => ?_
      have hattempt : attempt c e = some (e.1.address, info.2, e.2.port, some pool.id) := by
        simp only [attempt, hskipped, hpool, Bool.false_eq_true, if_false, if_neg hcurrent, hinfo]
      have hstatus : Total (MemberRun c base log (e :: rest) changed) getStatus fun _ w =>
          MemberRun c base log (e :: rest) changed w ∧ True :=
        fun w hw => ⟨hw, trivial⟩
      refine Triple.keep hstatus fun st _ => ?_
      split
      · -- the pool was found through its listener
        rename_i hlookup
        obtain ⟨_, l, hl, _⟩ := lookup_directory hpool
        exact absurd (hl.symm.trans hlookup.2) (by simp)
      · exact total_ensureMember henv hlb hattempt

/-- One endpoint, with the ports of its slice. -/
theorem total_addEndpoint (henv : Obliging env) (hlb : c.status.loadbalancer.isSome)
    (hsubnet : Subnetted env c.status.loadbalancer) (hcomplete : ∀ e ∈ c.spec.entries, e.1.Complete)
    {ports : List SlicePort} {ep : Endpoint} :
    Total (MemberRun c base log (ports.map (fun p => (ep, p)) ++ rest) changed)
      (addEndpoint env (directory c) ports ep changed)
      (Exit (fun _ => False) (MemberRun c base log rest)) := by
  unfold addEndpoint
  split
  · rename_i hskipped
    refine Triple.pure fun w hw => hw.skip fun e he => ?_
    obtain ⟨p, _, rfl⟩ := List.mem_map.mp he
    rw [attempt, Endpoint.skipped, if_pos hskipped]
  · rename_i hskipped
    refine Triple.keep (total_targetPod henv) fun pod hpod => ?_
    split
    · rename_i hnil
      refine Triple.pure fun w hw => hw.skip fun e he => ?_
      rw [attempt, hnil]
      split
      · rfl
      · rfl
    · exact Triple.sweep
        (I := fun ports => MemberRun c base log (ports.map (fun p => (ep, p)) ++ rest))
        (fun p ps changed => total_addNewMember (e := (ep, p)) henv hlb hsubnet hpod
          (Bool.eq_false_iff.mpr hskipped) hcomplete) ports changed

/-- One slice. -/
theorem total_addSlice (henv : Obliging env) (hlb : c.status.loadbalancer.isSome)
    (hsubnet : Subnetted env c.status.loadbalancer) (hcomplete : ∀ e ∈ c.spec.entries, e.1.Complete)
    {s : Slice} :
    Total (MemberRun c base log
        (s.endpoints.flatMap (fun ep => s.ports.map fun p => (ep, p)) ++ rest) changed)
      (addSlice env (directory c) s changed)
      (Exit (fun _ => False) (MemberRun c base log rest)) := by
  refine Triple.sweep (I := fun eps =>
    MemberRun c base log (eps.flatMap (fun ep => s.ports.map fun p => (ep, p)) ++ rest))
    (fun ep eps changed => ?_) s.endpoints changed
  rw [List.flatMap_cons, List.append_assoc]
  exact total_addEndpoint henv hlb hsubnet hcomplete

end MemberRun

theorem Built.linked (h : Built c) : c.status.Linked :=
  fun p hp => lsnrById_ne_none (h.poolListener p hp)

/-- The world before the loops. -/
def Ready (c : Crd) (base : Status) (log : List Entry) (w : World) : Prop :=
  w.crd = c ∧ Over base w ∧ Quiet log w.log

theorem Ready.run {w : World} (h : Ready c base log w) :
    MemberRun c base log c.spec.entries false w where
  frame := by rw [h.1]
  overlaid := h.2.1
  recorded := ⟨[], rfl, by rw [h.1, List.filterMap_nil, List.append_nil]⟩
  quiet := fun _ => ⟨rfl, h.1, h.2.2⟩

/-- **The loops record what `attempt` says.** -/
theorem total_addMembersOfSlices (henv : Obliging env) (hbuilt : Built c)
    (hsubnet : Subnetted env c.status.loadbalancer)
    (hcomplete : ∀ e ∈ c.spec.entries, e.1.Complete) :
    Total (Ready c base log) (addMembersOfSlices env) (MemberRun c base log []) := by
  refine Triple.get_bind fun w hw => ?_
  obtain rfl := hw.1
  obtain ⟨lb, hlb, _⟩ := hbuilt.balancer
  have hsome : w.crd.status.loadbalancer.isSome := by
    rw [hlb]
    rfl
  have hloop : Total (MemberRun w.crd base log w.crd.spec.entries false)
      (sweep (addSlice env (directory w.crd)) w.crd.spec.endpointSlices false)
      (Exit (fun _ => False) (MemberRun w.crd base log [])) :=
    Triple.sweep (I := fun slices => MemberRun w.crd base log (entriesOf slices))
      (fun s ss changed => total_addSlice henv hsome hsubnet hcomplete) _ _
  simp only
  rw [if_pos hbuilt.linked]
  refine Triple.bind (hloop.pre ?_) fun r => ?_
  · rintro t rfl
    exact hw.run
  · cases r with
    | none => exact fun _ hs => hs.elim
    | some changed => exact Triple.pure fun t ht => ht

/-- Only the load balancer's security groups differ. -/
def Regrouped (c c' : Crd) : Prop :=
  ∃ lb, c' = { c with status := { c.status with loadbalancer := lb } } ∧
    lb.map Balancer.place = c.status.loadbalancer.map Balancer.place

theorem Regrouped.built (h : Regrouped c c') (hbuilt : Built c) : Built c' := by
  obtain ⟨lb, rfl, hplace⟩ := h
  refine hbuilt.congr rfl rfl ?_ rfl rfl
  have hip := congrArg (Option.map Prod.fst) hplace
  rw [Option.map_map, Option.map_map] at hip
  exact hip

theorem Regrouped.subnetted (h : Regrouped c c') (hsubnet : Subnetted env c.status.loadbalancer) :
    Subnetted env c'.status.loadbalancer := by
  obtain ⟨lb, rfl, hplace⟩ := h
  intro hmode b hb
  have hb : lb = some b := hb
  rw [hb] at hplace
  obtain ⟨b', hb', hsame⟩ := Option.map_eq_some_iff.mp hplace.symm
  have hid : b'.subnetId = b.subnetId := congrArg Prod.snd hsame
  rw [← hid]
  exact hsubnet hmode b' hb'

/-- `_sync_lbaas_sgs`. -/
theorem total_syncLbaasSgs (henv : Obliging env) (hlb : c.status.loadbalancer.isSome) :
    Total (Ready c base log) (syncLbaasSgs env) fun b w =>
      b = true ∧ ∃ c', Regrouped c c' ∧ Ready c' base log w := by
  rintro w ⟨rfl, hover, hquiet⟩
  obtain ⟨hcleaned, r, hout, hr⟩ := henv.securityGroups w
  obtain ⟨sgs, rfl⟩ := Option.isSome_iff_exists.mp hr
  have hstored : storedAfter w (env.serviceSecurityGroups w) = w.stored := by
    rw [storedAfter, hcleaned]
    rfl
  have hcall : call .read env.serviceSecurityGroups w
      = .ok (some sgs) (w.record .read w.stored) := by
    rw [call_of_some hout, hstored]
  have hstoredLb : w.stored.loadbalancer.isSome := by
    obtain ⟨lb, hsome⟩ := Option.isSome_iff_exists.mp hlb
    rw [hover, Status.overlay, hsome]
    rfl
  set t := (w.record .read w.stored).withStatus (w.crd.status.setSecurityGroups sgs)
  have hpatch : patchSecurityGroups env sgs t
      = .ok true (t.record (.patchSecurityGroups true) (w.stored.setSecurityGroups sgs)) := by
    have hlbt : t.stored.loadbalancer.isSome := hstoredLb
    simp only [patchSecurityGroups, henv.patch, hlbt, if_true]
    rfl
  have hrun : syncLbaasSgs env w
      = .ok true (t.record (.patchSecurityGroups true) (w.stored.setSecurityGroups sgs)) := by
    rw [syncLbaasSgs, run_bind_ok hcall]
    exact hpatch
  rw [hrun]
  refine ⟨rfl, { w.crd with status := w.crd.status.setSecurityGroups sgs }, ⟨_, rfl, ?_⟩, rfl, ?_,
    ?_⟩
  · rw [Option.map_map]
    rfl
  · show w.stored.setSecurityGroups sgs = base.overlay (w.crd.status.setSecurityGroups sgs)
    obtain ⟨lb, hsome⟩ := Option.isSome_iff_exists.mp hlb
    rw [hover]
    simp only [Status.setSecurityGroups, Status.overlay, hsome, Option.some_or, Option.map_some]
  · exact (hquiet.concat (.inl rfl)).concat (.inr rfl)

/-- The end of a pass. -/
theorem total_addNewMembers (henv : Obliging env) (hbuilt : Built c)
    (hsubnet : Subnetted env c.status.loadbalancer)
    (hcomplete : ∀ e ∈ c.spec.entries, e.1.Complete) :
    Total (Ready c base log) (addNewMembers env) fun changed w =>
      ∃ c', Regrouped c c' ∧ MemberRun c' base log [] changed w := by
  obtain ⟨lb, hlb, _⟩ := hbuilt.balancer
  have hsome : c.status.loadbalancer.isSome := by
    rw [hlb]
    rfl
  have hstatus : Total (Ready c base log) getStatus fun st w =>
    Ready c base log w ∧ st = c.status :=
    fun w hw => ⟨hw, by rw [← hw.1]⟩
  refine Triple.keep hstatus fun st hst => ?_
  subst hst
  rw [if_pos hsome]
  refine Triple.bind (total_syncLbaasSgs henv hsome) fun b w hw => ?_
  obtain ⟨rfl, c', hregrouped, hready⟩ := hw
  have hslices : Total (Ready c' base log) (addMembersOfSlices env) (MemberRun c' base log []) := by
    refine total_addMembersOfSlices henv (hregrouped.built hbuilt) (hregrouped.subnetted hsubnet) ?_
    obtain ⟨lb, rfl, _⟩ := hregrouped
    exact hcomplete
  exact hslices.post (fun changed t ht => ⟨c', hregrouped, ht⟩) w hready

/-- The last step of a pass, which counts as a change if it is one. -/
theorem total_lastStep (henv : Obliging env) (hbuilt : Built c)
    (hsubnet : Subnetted env c.status.loadbalancer)
    (hcomplete : ∀ e ∈ c.spec.entries, e.1.Complete) (before : Bool) :
    Total (Ready c base log) (do
        let crd := (← get).crd
        let added ← if hasEndpoints crd then addNewMembers env else pure false
        return before || added) fun b w =>
      ∃ c' changed, Regrouped c c' ∧ MemberRun c' base log [] changed w ∧
        b = (before || changed) := by
  refine Triple.get_bind fun w hw => ?_
  obtain rfl := hw.1
  have hready : ∀ t, t = w → Ready w.crd base log t := by
    rintro t rfl
    exact hw
  simp only [pure_bind]
  split
  · refine Triple.bind ((total_addNewMembers henv hbuilt hsubnet hcomplete).pre hready)
      fun changed => ?_
    refine Triple.pure fun t ht => ?_
    obtain ⟨c', hregrouped, hrun⟩ := ht
    exact ⟨c', changed, hregrouped, hrun, rfl⟩
  · rename_i hnone
    have hentries : w.crd.spec.entries = [] := by
      have hslices : w.crd.spec.endpointSlices = [] := by simpa [hasEndpoints] using hnone
      rw [Spec.entries, hslices]
      rfl
    refine Triple.pure fun t ht => ?_
    have hrun := (hready t ht).run
    rw [hentries] at hrun
    exact ⟨w.crd, false, ⟨_, rfl, rfl⟩, hrun, rfl⟩

/-! ## What the members are -/

/-- The objects differ in the names of ports that have none, and in what no lookup
reads. -/
structure Alike (c c' : Crd) : Prop where
  name : c'.name = c.name
  slices : c'.spec.endpointSlices = c.spec.endpointSlices
  keys : c'.spec.ports.map SpecPort.key = c.spec.ports.map SpecPort.key
  listeners : c'.status.listenerList = c.status.listenerList
  pools : c'.status.poolList = c.status.poolList

theorem Alike.assigned (h : Alike c c') {name : Option PortName} {pool : Pool} :
    Assigned c'.spec.ports c'.status.listenerList c'.status.poolList name pool ↔
      Assigned c.spec.ports c.status.listenerList c.status.poolList name pool := by
  rw [h.listeners, h.pools]
  exact assigned_congr h.keys

theorem Alike.entries (h : Alike c c') : c'.spec.entries = c.spec.entries := by
  rw [Spec.entries, Spec.entries, h.slices]

theorem Alike.wanted (h : Alike c c') {m : Member} : Wanted c' m ↔ Wanted c m := by
  unfold Wanted
  rw [h.entries, h.name]
  simp only [h.assigned]

theorem Alike.trans {c'' : Crd} (h : Alike c c') (h' : Alike c' c'') : Alike c c'' where
  name := h'.name.trans h.name
  slices := h'.slices.trans h.slices
  keys := h'.keys.trans h.keys
  listeners := h'.listeners.trans h.listeners
  pools := h'.pools.trans h.pools

theorem Regrouped.alike (h : Regrouped c c') : Alike c c' := by
  obtain ⟨lb, rfl, _⟩ := h
  exact ⟨rfl, rfl, rfl, rfl, rfl⟩

/-- Wanted members are known by their identity. -/
theorem Wanted.of_identity {m m' : Member} (h : Wanted c m) (hid : m'.identity = m.identity) :
    Wanted c m' := by
  obtain ⟨e, he, pool, hassigned, hm⟩ := h
  exact ⟨e, he, pool, hassigned, hid.trans hm⟩

theorem attempt_eq_some {e : Endpoint × SlicePort} {x : String × String × Nat × Option String}
    (h : attempt c e = some x) : ∃ pool, (directory c).pools.lookup e.2.name = some pool ∧
      (e.1.address, e.2.port, pool.id) ∉ (directory c).currentTargets ∧
      x = (e.1.address, podName c.name e.1, e.2.port, some pool.id) := by
  unfold attempt at h
  split at h
  · cases h
  · split at h
    · cases h
    · rename_i pool hpool
      split at h
      · cases h
      · rename_i hcurrent
        exact ⟨pool, hpool, hcurrent, (Option.some.inj h).symm⟩

section Members

variable {changed : Bool} {w : World}

theorem MemberRun.wanted (h : MemberRun c base log [] changed w) (hbuilt : Built c)
    (hwanted : ∀ m ∈ c.status.memberList, Wanted c m) :
    ∀ m ∈ w.crd.status.memberList, Wanted c m := by
  intro m hm
  obtain ⟨done, hdone, hmembers⟩ := h.recorded
  rw [List.append_nil] at hdone
  have hmem : m.identity ∈ w.crd.status.memberList.map Member.identity := List.mem_map_of_mem hm
  rw [hmembers, ← hdone] at hmem
  rcases List.mem_append.mp hmem with hold | hnew
  · obtain ⟨m', hm', hid⟩ := List.mem_map.mp hold
    exact (hwanted m' hm').of_identity hid.symm
  · obtain ⟨e, he, hattempt⟩ := List.mem_filterMap.mp hnew
    obtain ⟨pool, hpool, _, hid⟩ := attempt_eq_some hattempt
    exact ⟨e, he, pool, assigned_of_lookup hbuilt.unambiguous hpool, hid⟩

/-- The target of an identity. -/
def placeOf (x : String × String × Nat × Option String) : String × Nat × Option String :=
  (x.1, x.2.2.1, x.2.2.2)

theorem nodup_target_iff {members : List Member} :
    (members.map Member.target).Nodup ↔ ((members.map Member.identity).map placeOf).Nodup := by
  have hmap : (members.map Member.identity).map placeOf =
      (members.map Member.target).map fun t => (t.1, t.2.1, some t.2.2) := by
    rw [List.map_map, List.map_map]
    rfl
  have hinj : Function.Injective fun t : String × Nat × String => (t.1, t.2.1, some t.2.2) := by
    rintro ⟨a, b, d⟩ ⟨a', b', d'⟩ h
    simp only [Prod.mk.injEq, Option.some.injEq] at h ⊢
    exact h
  rw [hmap]
  exact (List.nodup_map_iff hinj).symm

/-- Where no two entries clash, no target is recorded twice. -/
theorem MemberRun.nodup (h : MemberRun c base log [] changed w) (hbuilt : Built c)
    (hdistinct : c.spec.TargetsDistinct) (hnodup : (c.status.memberList.map Member.target).Nodup) :
    (w.crd.status.memberList.map Member.target).Nodup := by
  obtain ⟨done, hdone, hmembers⟩ := h.recorded
  rw [List.append_nil] at hdone
  rw [nodup_target_iff, hmembers, ← hdone, List.map_append, List.nodup_append]
  refine ⟨nodup_target_iff.mp hnodup, ?_, ?_⟩
  · rw [List.Nodup, List.pairwise_map, List.pairwise_filterMap]
    refine List.Pairwise.imp (fun {e e'} hclash x hx y hy hsame => hclash ?_) hdistinct
    obtain ⟨pool, hpool, _, rfl⟩ := attempt_eq_some hx
    obtain ⟨pool', hpool', _, rfl⟩ := attempt_eq_some hy
    simp only [placeOf, Prod.mk.injEq, Option.some.injEq] at hsame
    obtain rfl := List.inj_on_of_nodup_map hbuilt.poolIds (lookup_directory hpool).1
      (lookup_directory hpool').1 hsame.2.2
    exact clash_of_lookup hpool hpool' hsame.1 hsame.2.1
  · rintro x hx y hy rfl
    obtain ⟨i, hi, rfl⟩ := List.mem_map.mp hx
    obtain ⟨m, hm, rfl⟩ := List.mem_map.mp hi
    obtain ⟨j, hj, hsame⟩ := List.mem_map.mp hy
    obtain ⟨e, _, hattempt⟩ := List.mem_filterMap.mp hj
    obtain ⟨pool, _, hcurrent, rfl⟩ := attempt_eq_some hattempt
    simp only [placeOf, Member.identity, Prod.mk.injEq, Option.some.injEq] at hsame
    refine hcurrent ?_
    rw [hsame.1, hsame.2.1, hsame.2.2]
    exact List.mem_map_of_mem hm

end Members

/-! ## The first pass -/

/-- What members need besides an obliging world. -/
structure Supported (env : Env) (c : Crd) : Prop where
  complete : ∀ e ∈ c.spec.entries, e.1.Complete
  recorded : Subnetted env c.status.loadbalancer
  asked : env.l2MemberMode = false → c.spec.subnetId.isSome

/-- Listeners and pools are those of the spec. Of the members either all are wanted,
and distinct if `once`, or all belong to pools that are gone. -/
structure Standing (env : Env) (once : Prop) (c : Crd) : Prop where
  built : Built c
  subnetted : Subnetted env c.status.loadbalancer
  members : ((∀ m ∈ c.status.memberList, Wanted c m) ∧
      (once → (c.status.memberList.map Member.target).Nodup)) ∨
    ∀ m ∈ c.status.memberList, m.poolId ∉ c.status.poolList.map Pool.id

/-- No two entries are for one target, and no target is recorded twice. -/
def Crd.Once (c : Crd) : Prop :=
  c.spec.TargetsDistinct ∧ (c.status.memberList.map Member.target).Nodup

theorem Rebuilt.subnetted (h : Rebuilt c base c') (hsupported : Supported env c) :
    Subnetted env c'.status.loadbalancer := by
  intro hmode b hb
  obtain ⟨lb, hlb, hor⟩ := h.subnet
  obtain rfl : lb = b := Option.some.inj (hlb.symm.trans hb)
  rcases hor with hold | hasked
  · obtain ⟨lb', hlb', hid⟩ := Option.map_eq_some_iff.mp hold
    rw [← hid]
    exact hsupported.recorded hmode lb' hlb'
  · rw [hasked]
    exact hsupported.asked hmode

/-- The members a pass starts to add to are wanted, and distinct if they were. -/
theorem Rebuilt.wanted (h : Rebuilt c base c') (htidy : Tidy c) :
    (∀ m ∈ c'.status.memberList, Wanted c' m) ∧
      (c.Once → (c'.status.memberList.map Member.target).Nodup) := by
  by_cases hmoved : c.Moved
  · have hnil : c'.status.memberList = [] := by
      rw [Status.memberList, (h.moved hmoved).1]
      rfl
    rw [hnil]
    exact ⟨fun m hm => absurd hm List.not_mem_nil, fun _ => List.nodup_nil⟩
  · obtain ⟨_, hmembers, hserving⟩ := h.kept hmoved
    rw [hmembers]
    refine ⟨fun m hm => ?_, fun honce => honce.2.sublist (List.filter_sublist.map _)⟩
    have hwanted := (identity_mem_removalTargets htidy.unambiguous).mp
      (of_decide_eq_true (List.mem_filter.mp hm).2)
    obtain ⟨e, he, pool, ⟨p, hp, hname, hserv⟩, hid⟩ := hwanted
    refine ⟨e, ?_, pool, ?_, ?_⟩
    · rw [h.spec]
      exact he
    · rw [h.spec]
      exact (assigned_congr (named_keys c)).mpr ⟨p, hp, hname, hserving p hp pool hserv⟩
    · rw [h.name]
      exact hid

/-! ### The end of a pass -/

/-- The end of a pass over `c`: its last step starts from `d` and leaves `w`. -/
structure Closing (env : Env) (c d : Crd) (base : Status) (c' : Crd) (w : World) : Prop where
  ns : d.ns = c.ns
  name : d.name = c.name
  spec : d.spec = c.named.spec
  built : Built d
  subnetted : Subnetted env d.status.loadbalancer
  listeners : (base.overlay d.status).listenerList = d.status.listenerList
  pools : (base.overlay d.status).poolList = d.status.poolList
  regrouped : Regrouped d c'
  run : ∃ log changed, MemberRun c' base log [] changed w

section Closing

variable {d : Crd} {w : World}

theorem Closing.built_last (h : Closing env c d base c' w) : Built c' := h.regrouped.built h.built

theorem Closing.spec_last (h : Closing env c d base c' w) : c'.spec = c.named.spec := by
  obtain ⟨lb, rfl, _⟩ := h.regrouped
  exact h.spec

theorem Closing.members_last (h : Closing env c d base c' w) :
    c'.status.memberList = d.status.memberList := by
  obtain ⟨lb, rfl, _⟩ := h.regrouped
  rfl

/-- The last step changes the balancer and the members. -/
theorem Closing.frame (h : Closing env c d base c' w) :
    w.crd.ns = c.ns ∧ w.crd.name = c.name ∧ w.crd.status.loadbalancer = c'.status.loadbalancer ∧
      w.crd.status.listeners = d.status.listeners ∧ w.crd.status.pools = d.status.pools := by
  obtain ⟨log, changed, hrun⟩ := h.run
  obtain ⟨lb, rfl, _⟩ := h.regrouped
  rw [hrun.frame]
  exact ⟨h.ns, h.name, rfl, rfl, rfl⟩

theorem Closing.stored_eq (h : Closing env c d base c' w) :
    w.stored = base.overlay w.crd.status := by
  obtain ⟨log, changed, hrun⟩ := h.run
  exact hrun.overlaid

theorem Closing.loadbalancer_stored (h : Closing env c d base c' w) :
    w.stored.loadbalancer = c'.status.loadbalancer := by
  obtain ⟨lb, hlb, _⟩ := h.built_last.balancer
  rw [h.stored_eq]
  show w.crd.status.loadbalancer.or base.loadbalancer = _
  rw [h.frame.2.2.1, hlb]
  rfl

/-- The stored object, for the spec as it is stored. -/
theorem Closing.alike (h : Closing env c d base c' w) : Alike c' { c with status := w.stored } := by
  have hlast := h.regrouped.alike
  obtain ⟨_, _, _, hlisteners, hpools⟩ := h.frame
  refine ⟨?_, ?_, ?_, ?_, ?_⟩
  · rw [hlast.name, h.name]
  · rw [h.spec_last]
    rfl
  · rw [h.spec_last]
    exact (named_keys c).symm
  · rw [hlast.listeners, ← h.listeners, h.stored_eq]
    show (w.crd.status.listeners.or base.listeners).getD [] = _
    rw [hlisteners]
    rfl
  · rw [hlast.pools, ← h.pools, h.stored_eq]
    show (w.crd.status.pools.or base.pools).getD [] = _
    rw [hpools]
    rfl

theorem Closing.built_stored (h : Closing env c d base c' w) :
    Built { c with status := w.stored } := by
  refine h.built_last.congr h.alike.keys ?_ ?_ h.alike.listeners h.alike.pools
  · rw [h.spec_last]
    rfl
  · exact congrArg (Option.map Balancer.ip) h.loadbalancer_stored

theorem Closing.subnetted_stored (h : Closing env c d base c' w) :
    Subnetted env w.stored.loadbalancer := by
  rw [h.loadbalancer_stored]
  exact h.regrouped.subnetted h.subnetted

theorem Closing.wanted (h : Closing env c d base c' w)
    (hwanted : ∀ m ∈ d.status.memberList, Wanted d m) :
    ∀ m ∈ w.crd.status.memberList, Wanted { c with status := w.stored } m := by
  intro m hm
  obtain ⟨log, changed, hrun⟩ := h.run
  have hlast := h.regrouped.alike
  refine h.alike.wanted.mpr (hrun.wanted h.built_last (fun m hm => hlast.wanted.mpr ?_) m hm)
  exact hwanted m (h.members_last ▸ hm)

theorem Closing.nodup (h : Closing env c d base c' w) (hdistinct : c.spec.TargetsDistinct)
    (hnodup : (d.status.memberList.map Member.target).Nodup) :
    (w.crd.status.memberList.map Member.target).Nodup := by
  obtain ⟨log, changed, hrun⟩ := h.run
  refine hrun.nodup h.built_last ?_ ?_
  · rw [h.spec_last]
    exact targetsDistinct_of_keys (named_keys c) hdistinct
  · rw [h.members_last]
    exact hnodup

end Closing

/-! ### The whole pass -/

/-- **The first pass.** -/
theorem total_firstPass (henv : Obliging env) (htidy : Tidy c) (hname : c.name ≠ "kubernetes")
    (hip : c.spec.ip.isSome) (hsupported : Supported env c) :
    Total (InSync c) (syncLbaasMembers env) fun _ w => w.crd.ns = c.ns ∧ w.crd.name = c.name ∧
      Standing env c.Once { c with status := w.stored } := by
  refine Triple.bind (total_removeUnusedMembers henv hname htidy.listeners_ne_none fun h =>
    htidy.balancer_ne_none (htidy.listeners_of_pools (htidy.pools_of_members h))) fun removed => ?_
  refine Triple.bind (total_syncLbaasPools henv htidy hip) fun synced w hw => ?_
  obtain ⟨base, hover, hrebuilt⟩ := hw
  have hsubnetted := hrebuilt.subnetted hsupported
  have hcomplete : ∀ e ∈ w.crd.spec.entries, e.1.Complete := by
    rw [hrebuilt.spec]
    exact hsupported.complete
  refine (total_lastStep henv hrebuilt.built hsubnetted hcomplete (removed || synced)).post
    (fun b t ht => ?_) w ⟨rfl, hover, .refl w.log⟩
  obtain ⟨c', changed, hregrouped, hrun, _⟩ := ht
  have hclosing : Closing env c w.crd base c' t :=
    ⟨hrebuilt.ns, hrebuilt.name, hrebuilt.spec, hrebuilt.built, hsubnetted, hrebuilt.listeners,
      hrebuilt.pools, hregrouped, _, changed, hrun⟩
  obtain ⟨hwanted, hnodup⟩ := hrebuilt.wanted htidy
  have hwanted' := hclosing.wanted hwanted
  have hnodup' : c.Once → (t.crd.status.memberList.map Member.target).Nodup :=
    fun honce => hclosing.nodup honce.1 (hnodup honce)
  refine ⟨hclosing.frame.1, hclosing.frame.2.1, hclosing.built_stored, hclosing.subnetted_stored,
    ?_⟩
  by_cases hmoved : c.Moved
  · -- what the pass did not write is still stored
    obtain ⟨_, hgone⟩ := hrebuilt.moved hmoved
    cases hnone : t.crd.status.members with
    | none =>
      right
      have hbase : t.stored.memberList = base.memberList := by
        rw [hrun.overlaid, Status.memberList, Status.overlay, hnone]
        rfl
      show ∀ m ∈ t.stored.memberList, m.poolId ∉ t.stored.poolList.map Pool.id
      rw [hbase, hclosing.alike.pools, hregrouped.alike.pools]
      exact hgone
    | some ms =>
      left
      have hnew : t.stored.memberList = t.crd.status.memberList := by
        rw [hrun.overlaid, Status.memberList, Status.overlay, hnone, Status.memberList, hnone]
        rfl
      refine ⟨fun m hm => hwanted' m (hnew ▸ hm), fun honce => ?_⟩
      show (t.stored.memberList.map Member.target).Nodup
      rw [hnew]
      exact hnodup' honce
  · left
    have hnew : t.stored = t.crd.status := by
      rw [hrun.overlaid, (hrebuilt.kept hmoved).1, Status.empty_overlay]
    refine ⟨fun m hm => hwanted' m (hnew ▸ hm), fun honce => ?_⟩
    show (t.stored.memberList.map Member.target).Nodup
    rw [hnew]
    exact hnodup' honce

/-! ## The passes after it -/

/-- Every port has its pool, so the removal of members names them all. -/
theorem Built.named (h : Built c) : ∀ p ∈ c.named.spec.ports, p.name = some p.name.join := by
  intro q hq
  have hkeys := named_keys c
  have hmem : q.key ∈ c.spec.ports.map SpecPort.key := hkeys ▸ List.mem_map_of_mem hq
  obtain ⟨p, hp, hkey⟩ := List.mem_map.mp hmem
  obtain ⟨l, hl, hslot, _⟩ := h.served p.slot (List.mem_map_of_mem hp)
  obtain ⟨pool, hpool, hid⟩ := List.mem_map.mp (h.pooled l hl)
  obtain ⟨p', hp', hkey', _, hnamed⟩ :=
    @named_of_serving _ h.listenerIds _ _ _ [] (fun _ hx => hx) h.slots p hp
  have hname := hnamed ⟨pool, hpool, hpool, l, hl, hid.symm, hslot⟩
  have hsame : p'.key = q.key := hkey'.trans hkey
  have hslots : (c.named.spec.ports.map SpecPort.slot).Nodup := by
    rw [slots_of_keys hkeys]
    exact h.slots
  obtain rfl : p' = q := List.inj_on_of_nodup_map hslots hp' hq (congrArg Prod.snd hsame)
  have hjoin : p'.name.join = p.name.join := congrArg Prod.fst hkey'
  rw [hjoin]
  exact hname

/-- With all ports named, addition finds the pools that removal finds. -/
theorem Built.lookup (h : Built c) (hnames : ∀ p ∈ c.spec.ports, p.name = some p.name.join)
    {name : Option PortName} {pool : Pool}
    (hassigned : Assigned c.spec.ports c.status.listenerList c.status.poolList name pool) :
    (directory c).pools.lookup name = some pool := by
  obtain ⟨p, hp, hname, hserving⟩ := hassigned
  exact (lookup_directory_iff h.unambiguous).mpr ⟨p, hp, by rw [hnames p hp, hname], hserving⟩

theorem target_mem_of_identity {members : List Member} {a n id : String} {port : Nat}
    (h : (a, n, port, some id) ∈ members.map Member.identity) :
    (a, port, id) ∈ members.map Member.target := by
  obtain ⟨m, hm, hid⟩ := List.mem_map.mp h
  simp only [Member.identity, Prod.mk.injEq, Option.some.injEq] at hid
  refine List.mem_map.mpr ⟨m, hm, ?_⟩
  rw [Member.target, hid.1, hid.2.2.1, hid.2.2.2]

/-- An entry whose pool is found is recorded at the end of the loops. -/
theorem MemberRun.recorded_target {changed : Bool} {w : World}
    (h : MemberRun c base log [] changed w) {e : Endpoint × SlicePort} (he : e ∈ c.spec.entries)
    (hskipped : e.1.skipped = false) {pool : Pool}
    (hpool : (directory c).pools.lookup e.2.name = some pool) :
    (e.1.address, e.2.port, pool.id) ∈ w.crd.status.memberList.map Member.target := by
  obtain ⟨done, hdone, hmembers⟩ := h.recorded
  rw [List.append_nil] at hdone
  by_cases hcurrent : (e.1.address, e.2.port, pool.id) ∈ (directory c).currentTargets
  · obtain ⟨m, hm, htarget⟩ := List.mem_map.mp hcurrent
    have hmem : m.identity ∈ w.crd.status.memberList.map Member.identity := by
      rw [hmembers]
      exact List.mem_append_left _ (List.mem_map_of_mem hm)
    rw [← htarget]
    exact target_mem_of_identity hmem
  · have hattempt : attempt c e =
      some (e.1.address, podName c.name e.1, e.2.port, some pool.id) := by
      simp only [attempt, hskipped, hpool, Bool.false_eq_true, if_false, if_neg hcurrent]
    refine target_mem_of_identity (n := podName c.name e.1) ?_
    rw [hmembers, ← hdone]
    exact List.mem_append_right _ (List.mem_filterMap.mpr ⟨e, he, hattempt⟩)

/-- The status is that of the spec. -/
structure AtRest (env : Env) (once : Prop) (c : Crd) : Prop where
  built : Built c
  subnetted : Subnetted env c.status.loadbalancer
  wanted : ∀ m ∈ c.status.memberList, Wanted c m
  nodup : once → (c.status.memberList.map Member.target).Nodup
  recorded : ∀ e ∈ c.spec.entries, e.1.skipped = false → ∀ pool,
    Assigned c.spec.ports c.status.listenerList c.status.poolList e.2.name pool →
    (e.1.address, e.2.port, pool.id) ∈ c.status.memberList.map Member.target

theorem alike_named (c : Crd) : Alike c c.named := ⟨rfl, rfl, named_keys c, rfl, rfl⟩

theorem Built.of_named (h : Built c) : Built c.named := h.congr (named_keys c) rfl rfl rfl rfl

/-- Members of pools that are gone are not wanted. -/
theorem not_wanted {m : Member} (h : m.poolId ∉ c.status.poolList.map Pool.id) : ¬ Wanted c m := by
  rintro ⟨e, _, pool, ⟨p, _, _, hserving⟩, hid⟩
  simp only [Member.identity, Prod.mk.injEq, Option.some.injEq] at hid
  rw [hid.2.2.2] at h
  exact h (List.mem_map_of_mem hserving.1)

/-- The object after the removal of members from a standing status. -/
theorem Standing.pruned {once : Prop} (h : Standing env once c) :
    c.prunedMembers = { c.named with status := c.prunedMembers.status } ∧
      c.prunedMembers.status.loadbalancer = c.status.loadbalancer ∧
      c.prunedMembers.status.listenerList = c.status.listenerList ∧
      c.prunedMembers.status.poolList = c.status.poolList ∧
      (∀ m ∈ c.prunedMembers.status.memberList, Wanted c m) ∧
      (once → (c.prunedMembers.status.memberList.map Member.target).Nodup) := by
  have hunambiguous := h.built.unambiguous
  have hdrop : c.prunedMembers.status.memberList = c.status.memberList.filter fun m =>
      m.id ∉ c.removedMembers :=
    dropped_filter (g := Status.memberList) rfl
  refine ⟨?_, dropped_same (g := Status.loadbalancer) rfl,
    dropped_same (g := Status.listenerList) rfl,
    dropped_same (g := Status.poolList) rfl, ?_⟩
  · obtain ⟨hns, hname, hspec⟩ := dropped_frame c.named c.removedMembers fun st =>
      { st with members := some (st.memberList.filter fun m => m.id ∉ c.removedMembers) }
    show c.prunedMembers = ⟨c.named.ns, c.named.name, c.named.spec, c.prunedMembers.status⟩
    rw [← hns, ← hname, ← hspec]
    rfl
  · rw [hdrop]
    rcases h.members with ⟨hwanted, hnodup⟩ | hgone
    · exact ⟨fun m hm => hwanted m (List.mem_filter.mp hm).1,
        fun honce => (hnodup honce).sublist (List.filter_sublist.map _)⟩
    · have hnil : (c.status.memberList.filter fun m => m.id ∉ c.removedMembers) = [] := by
        rw [List.filter_eq_nil_iff]
        intro m hm
        rw [decide_eq_true_iff, not_not, removedMembers_eq, mem_released]
        refine ⟨m, hm, fun hin => ?_, rfl⟩
        exact not_wanted (hgone m hm) ((identity_mem_removalTargets hunambiguous).mp hin)
      rw [hnil]
      exact ⟨fun m hm => absurd hm List.not_mem_nil, fun _ => List.nodup_nil⟩

/-- A pass over listeners and pools that are those of the spec, after the removal of
members. -/
theorem total_members (henv : Obliging env) (hbuilt : Built c)
    (hsubnet : Subnetted env c.status.loadbalancer)
    (hcomplete : ∀ e ∈ c.spec.entries, e.1.Complete) (removed : Bool) :
    Total (Ready c base log) (do
        let synced ← syncLbaasPools env
        let crd := (← get).crd
        let added ← if hasEndpoints crd then addNewMembers env else pure false
        return removed || synced || added) fun b w =>
      ∃ c' changed, Regrouped c c' ∧ MemberRun c' base log [] changed w ∧
        b = (removed || changed) := by
  intro w hw
  have hpools : syncLbaasPools env w = .ok false w := by
    refine syncLbaasPools_of_built ?_
    rw [hw.1]
    exact hbuilt
  rw [run_bind_ok hpools, Bool.or_false]
  exact total_lastStep henv hbuilt hsubnet hcomplete removed w hw

/-- **The second pass.** -/
theorem total_nextPass (henv : Obliging env) {once : Prop} (h : Standing env once c)
    (hname : c.name ≠ "kubernetes") (hcomplete : ∀ e ∈ c.spec.entries, e.1.Complete)
    (honce : once → c.spec.TargetsDistinct) :
    Total (InSync c) (syncLbaasMembers env) fun _ w => w.crd.ns = c.ns ∧ w.crd.name = c.name ∧
      AtRest env once { c with status := w.stored } := by
  obtain ⟨lb, hlb, _⟩ := h.built.balancer
  obtain ⟨hframe, hlbs, hlisteners, hpools, hwanted, hnodup⟩ := h.pruned
  have halike : Alike c c.prunedMembers := by
    rw [hframe]
    exact ⟨rfl, rfl, named_keys c, hlisteners, hpools⟩
  have hbuilt : Built c.prunedMembers := by
    refine h.built.congr halike.keys ?_ (congrArg (Option.map Balancer.ip) hlbs) hlisteners hpools
    rw [hframe]
    rfl
  have hports : ∀ p ∈ c.prunedMembers.spec.ports, p.name = some p.name.join := by
    rw [hframe]
    exact h.built.named
  refine Triple.bind (total_removeUnusedMembers henv hname h.built.listeners_ne_none fun _ => ?_)
    fun removed w hw => ?_
  · rw [hlb]
    exact Option.some_ne_none lb
  · have hready : Ready c.prunedMembers {} w.log w := by
      refine ⟨hw.1, ?_, .refl w.log⟩
      rw [Over, Status.empty_overlay, hw.1]
      exact hw.2
    have hcomplete' : ∀ e ∈ c.prunedMembers.spec.entries, e.1.Complete := by
      rw [halike.entries]
      exact hcomplete
    refine (total_members henv hbuilt (hlbs ▸ h.subnetted) hcomplete' removed).post
      (fun b t ht => ?_) w hready
    obtain ⟨c', changed, hregrouped, hrun, _⟩ := ht
    have hclosing : Closing env c c.prunedMembers {} c' t := by
      refine ⟨?_, halike.name, ?_, hbuilt, hlbs ▸ h.subnetted, ?_, ?_, hregrouped, _, changed, hrun⟩
      · rw [hframe]
        rfl
      · rw [hframe]
      · rw [Status.empty_overlay]
      · rw [Status.empty_overlay]
    have hstored : t.stored = t.crd.status := by
      rw [hrun.overlaid, Status.empty_overlay]
    refine ⟨hclosing.frame.1, hclosing.frame.2.1, hclosing.built_stored, hclosing.subnetted_stored,
      ?_, ?_, ?_⟩
    · intro m hm
      refine hclosing.wanted (fun m hm => halike.wanted.mpr (hwanted m hm)) m ?_
      rw [← hstored]
      exact hm
    · intro ho
      show (t.stored.memberList.map Member.target).Nodup
      rw [hstored]
      exact hclosing.nodup (honce ho) (hnodup ho)
    · intro e he hskipped pool hassigned
      show _ ∈ t.stored.memberList.map Member.target
      rw [hstored]
      have halike' := halike.trans hregrouped.alike
      refine hrun.recorded_target (halike'.entries.symm ▸ he) hskipped ?_
      refine hclosing.built_last.lookup ?_ (hclosing.alike.assigned.mp hassigned)
      obtain ⟨lb, rfl, _⟩ := hregrouped
      exact hports

theorem removeUnusedMembers_of_wanted {w : World} (hbuilt : Built w.crd)
    (h : ∀ m ∈ w.crd.status.memberList, Wanted w.crd m) :
    removeUnusedMembers env w = .ok false { w with crd := w.crd.named } := by
  have hgather : gather (releaseUnusedMember env (removalTargets w.crd)) w.crd.status.memberList
      { w with crd := w.crd.named } = .ok [] { w with crd := w.crd.named } := by
    refine gather_of_none fun m hm => ?_
    rw [releaseUnusedMember,
      if_pos ((identity_mem_removalTargets hbuilt.unambiguous).mpr (h m hm))]
    rfl
  rw [removeUnusedMembers, run_bind_ok (requireListeners_run hbuilt.listeners_ne_none),
    run_bind_ok (show (get : Handler World) w = .ok w w from rfl)]
  refine Eq.trans (run_bind_ok (a := ()) (t := { w with crd := w.crd.named }) rfl) ?_
  exact (run_bind_ok hgather).trans dropRemoved_nil

/-- At rest there is nothing to attempt. -/
theorem AtRest.attempt_eq_none {once : Prop} (h : AtRest env once c) {c' : Crd}
    (halike : Alike c c') (hmembers : c'.status.memberList = c.status.memberList)
    (hbuilt : Built c') :
    ∀ e ∈ c'.spec.entries, attempt c' e = none := by
  intro e he
  unfold attempt
  split
  · rfl
  · rename_i hskipped
    split
    · rfl
    · rename_i pool hpool
      have hassigned := halike.assigned.mp (assigned_of_lookup hbuilt.unambiguous hpool)
      have hrecorded := h.recorded e (halike.entries ▸ he)
        (Bool.eq_false_iff.mpr hskipped) pool hassigned
      rw [← hmembers] at hrecorded
      exact if_pos hrecorded

/-- **From then on.** -/
theorem AtRest.pass (henv : Obliging env) {once : Prop} (h : AtRest env once c)
    (hcomplete : ∀ e ∈ c.spec.entries, e.1.Complete) {w : World} (hw : InSync c w) :
    ∃ w', syncLbaasMembers env w = .ok false w' ∧ Quiet w.log w'.log := by
  obtain ⟨rfl, hstored⟩ := hw
  have hremoved : removeUnusedMembers env w = .ok false { w with crd := w.crd.named } :=
    removeUnusedMembers_of_wanted h.built h.wanted
  have hready : Ready w.crd.named {} w.log { w with crd := w.crd.named } := by
    refine ⟨rfl, ?_, .refl w.log⟩
    rw [Over, Status.empty_overlay]
    exact hstored
  obtain ⟨b, w', hrest, c', changed, hregrouped, hrun, rfl⟩ :=
    (total_members henv h.built.of_named h.subnetted hcomplete false).returns hready
  have hmembers : c'.status.memberList = w.crd.status.memberList := by
    obtain ⟨lb, rfl, _⟩ := hregrouped
    rfl
  obtain ⟨hchanged, _, hquiet⟩ := hrun.quiet (h.attempt_eq_none
    ((alike_named w.crd).trans hregrouped.alike) hmembers (hregrouped.built h.built.of_named))
  have hpass : syncLbaasMembers env w = (do
      let synced ← syncLbaasPools env
      let crd := (← get).crd
      let added ← if hasEndpoints crd then addNewMembers env else pure false
      return false || synced || added : Handler Bool) { w with crd := w.crd.named } :=
    run_bind_ok hremoved
  refine ⟨w', ?_, hquiet⟩
  rw [hpass, hrest, hchanged]

/-! ## The fixed point -/

/-- The stored object is handed to the next pass; passes do not write the spec. -/
def World.reload (w : World) (spec : Spec) : World :=
  { w with crd := { w.crd with spec := spec, status := w.stored } }

/-- Listeners are one to one with the ports, pools with the listeners, and members are
the targets of the slices. -/
structure Reconciled (c : Crd) : Prop where
  listeners : (c.status.listenerList.map Listener.slot).Perm (c.spec.ports.map SpecPort.slot)
  pools : (c.status.poolList.map Pool.listenerId).Perm (c.status.listenerList.map Listener.id)
  recorded : ∀ e ∈ c.spec.entries, e.1.skipped = false → ∀ pool,
    Assigned c.spec.ports c.status.listenerList c.status.poolList e.2.name pool →
    (e.1.address, e.2.port, pool.id) ∈ c.status.memberList.map Member.target
  nothingElse : ∀ m ∈ c.status.memberList, ∃ e ∈ c.spec.entries, ∃ pool,
    Assigned c.spec.ports c.status.listenerList c.status.poolList e.2.name pool ∧
      m.target = (e.1.address, e.2.port, pool.id)

theorem AtRest.reconciled {once : Prop} (h : AtRest env once c) : Reconciled c where
  listeners := by
    refine (List.perm_ext_iff_of_nodup h.built.listenerSlots h.built.slots).mpr fun slot => ?_
    constructor
    · intro hslot
      obtain ⟨l, hl, rfl⟩ := List.mem_map.mp hslot
      exact h.built.inSpec l hl
    · intro hslot
      obtain ⟨l, hl, hl', _⟩ := h.built.served slot hslot
      exact List.mem_map.mpr ⟨l, hl, hl'⟩
  pools := by
    refine (List.perm_ext_iff_of_nodup h.built.poolListeners h.built.listenerIds).mpr fun id => ?_
    constructor
    · intro hid
      obtain ⟨p, hp, rfl⟩ := List.mem_map.mp hid
      exact h.built.poolListener p hp
    · intro hid
      obtain ⟨l, hl, rfl⟩ := List.mem_map.mp hid
      exact h.built.pooled l hl
  recorded := h.recorded
  nothingElse := by
    intro m hm
    obtain ⟨e, he, pool, hassigned, hid⟩ := h.wanted m hm
    refine ⟨e, he, pool, hassigned, ?_⟩
    simp only [Member.identity, Prod.mk.injEq, Option.some.injEq] at hid
    rw [Member.target, hid.1, hid.2.2.1, hid.2.2.2]

/-- **Two passes reconcile the status**, whatever it was, and the third one only
reads, and writes the security groups of the load balancer as every pass does. -/
theorem two_passes_reconcile (henv : Obliging env) (htidy : Tidy c) (hname : c.name ≠ "kubernetes")
    (hip : c.spec.ip.isSome) (hsupported : Supported env c) {w : World} (hw : InSync c w) :
    ∃ b₁ w₁ b₂ w₂ w₃, syncLbaasMembers env w = .ok b₁ w₁ ∧
      syncLbaasMembers env (w₁.reload c.spec) = .ok b₂ w₂ ∧
      Reconciled (w₂.reload c.spec).crd ∧
      (c.Once → ((w₂.reload c.spec).crd.status.memberList.map Member.target).Nodup) ∧
      syncLbaasMembers env (w₂.reload c.spec) = .ok false w₃ ∧ Quiet w₂.log w₃.log := by
  have hreload : ∀ {t : World}, t.crd.ns = c.ns → t.crd.name = c.name →
      (t.reload c.spec).crd = { c with status := t.stored } := by
    intro t hns hn
    show (⟨t.crd.ns, t.crd.name, c.spec, t.stored⟩ : Crd) = _
    rw [hns, hn]
  obtain ⟨b₁, w₁, hrun₁, hns₁, hname₁, hstanding⟩ :=
    (total_firstPass henv htidy hname hip hsupported).returns hw
  have hnext : Total (InSync { c with status := w₁.stored }) (syncLbaasMembers env) fun _ t =>
      t.crd.ns = c.ns ∧ t.crd.name = c.name ∧ AtRest env c.Once { c with status := t.stored } :=
    total_nextPass henv hstanding hname hsupported.complete fun honce => honce.1
  obtain ⟨b₂, w₂, hrun₂, hns₂, hname₂, hrest⟩ :=
    hnext.returns (s := w₁.reload c.spec) ⟨hreload hns₁ hname₁, rfl⟩
  obtain ⟨w₃, hrun₃, hquiet⟩ :=
    hrest.pass henv hsupported.complete (w := w₂.reload c.spec) ⟨hreload hns₂ hname₂, rfl⟩
  refine ⟨b₁, w₁, b₂, w₂, w₃, hrun₁, hrun₂, ?_, hrest.nodup, hrun₃, hquiet⟩
  rw [hreload hns₂ hname₂]
  exact hrest.reconciled

/-- An id that is longer than all of these. -/
def unusedId (used : List String) : String := used.foldr (fun s t => s ++ t) "x"

theorem length_lt_unusedId (used : List String) :
    0 < (unusedId used).length ∧ ∀ s ∈ used, s.length < (unusedId used).length := by
  induction used with
  | nil => exact ⟨by decide, fun s hs => absurd hs List.not_mem_nil⟩
  | cons t used ih =>
    obtain ⟨hpos, hlt⟩ := ih
    show 0 < (t ++ unusedId used).length ∧ ∀ s ∈ t :: used, s.length < (t ++ unusedId used).length
    rw [String.length_append]
    refine ⟨by omega, fun s hs => ?_⟩
    rcases List.mem_cons.mp hs with rfl | hs
    · omega
    · have := hlt s hs
      omega

theorem unusedId_notMem (used : List String) : unusedId used ∉ used :=
  fun h => Nat.lt_irrefl _ ((length_lt_unusedId used).2 _ h)

/-- A world that is obliging whatever is recorded. -/
def helpful : Env :=
  { calm with
    ensureListener := fun w _ p => ⟨false, some (some
      ⟨((w.crd.status.listenerList.find? fun l => l.slot = p.slot).map Listener.id).getD
        (unusedId (w.crd.status.listenerList.map Listener.id)),
      w.crd.spec.timeoutClientData, w.crd.spec.timeoutMemberData, false⟩)⟩
    ensurePool := fun w _ _ => ⟨false, some (some (unusedId
      (w.crd.status.poolList.map Pool.id ++ w.stored.memberList.map Member.poolId)))⟩
    ensureMember := fun _ _ _ _ _ _ => ⟨false, some (some "member")⟩
    podSubnet := fun _ _ _ => ⟨false, some (some "subnet")⟩ }

theorem helpful_obliging : Obliging helpful where
  doubleListeners := rfl
  sctp := rfl
  patch := fun _ => rfl
  balancer := fun _ => ⟨rfl, _, rfl, trivial⟩
  listener := by
    intro w lb p hids hslots
    refine ⟨rfl, _, rfl, _, rfl, rfl, rfl, fun l' hl' => ?_⟩
    show l'.id = ((w.crd.status.listenerList.find? fun l => l.slot = p.slot).map Listener.id).getD
      (unusedId (w.crd.status.listenerList.map Listener.id)) ↔ _
    cases hfind : w.crd.status.listenerList.find? fun l => l.slot = p.slot with
    | none =>
      rw [List.find?_eq_none] at hfind
      constructor
      · intro hid
        have hmem : l'.id ∈ w.crd.status.listenerList.map Listener.id := List.mem_map_of_mem hl'
        rw [hid] at hmem
        exact absurd hmem (unusedId_notMem _)
      · intro hslot
        exact absurd (decide_eq_true hslot) (hfind l' hl')
    | some l =>
      have hl := List.mem_of_find?_eq_some hfind
      have hslot : l.slot = p.slot := by simpa using List.find?_some hfind
      constructor
      · intro hid
        rw [List.inj_on_of_nodup_map hids hl' hl hid, hslot]
      · intro hslot'
        rw [List.inj_on_of_nodup_map hslots hl' hl (hslot'.trans hslot.symm)]
        rfl
  pool := by
    intro w lb l _
    refine ⟨rfl, _, rfl, _, rfl, ?_, ?_⟩
    · exact fun h => unusedId_notMem _ (List.mem_append_left _ h)
    · exact fun h => unusedId_notMem _ (List.mem_append_right _ h)
  member := fun _ _ _ _ _ _ => ⟨rfl, _, rfl, rfl⟩
  releaseBalancer := fun _ _ => ⟨rfl, _, rfl, trivial⟩
  releaseListener := fun _ _ _ => ⟨rfl, _, rfl, trivial⟩
  releasePool := fun _ _ _ => ⟨rfl, _, rfl, trivial⟩
  releaseMember := fun _ _ _ => ⟨rfl, _, rfl, trivial⟩
  disassociatePubIp := fun _ _ => ⟨rfl, _, rfl, trivial⟩
  releasePubIp := fun _ _ => ⟨rfl, _, rfl, trivial⟩
  securityGroups := fun _ => ⟨rfl, _, rfl, rfl⟩
  pod := fun _ _ _ => ⟨rfl, _, rfl, trivial⟩
  node := fun _ _ => ⟨rfl, _, rfl, trivial⟩
  podSubnet := fun _ _ _ => ⟨rfl, _, rfl, rfl⟩
  nodeSubnet := fun h => by cases h
  nodeStable := fun _ _ _ _ h => by cases h

/-- A new Service with one endpoint. -/
def webCrd : Crd := ⟨"default", "web", webSpec "10.0.0.1" [⟨none, 8080⟩], {}⟩

theorem webCrd_tidy : Tidy webCrd where
  listenerIds := List.nodup_nil
  poolIds := List.nodup_nil
  memberIds := List.nodup_nil
  poolListener := fun _ hp => absurd hp List.not_mem_nil
  memberPool := fun _ hm => absurd hm List.not_mem_nil
  slots := List.nodup_singleton _
  names := List.nodup_singleton _
  listenerSlots := List.nodup_nil
  poolListeners := List.nodup_nil
  balancer := fun _ => rfl

theorem webCrd_supported : Supported helpful webCrd where
  complete := by
    intro e he ref href
    rw [List.mem_singleton.mp he] at href
    cases href
  recorded := fun _ b hb => by cases hb
  asked := fun _ => rfl

theorem two_passes_reconcile_web :
    ∃ b₁ w₁ b₂ w₂ w₃, syncLbaasMembers helpful ⟨webCrd, {}, []⟩ = .ok b₁ w₁ ∧
      syncLbaasMembers helpful (w₁.reload webCrd.spec) = .ok b₂ w₂ ∧
      Reconciled (w₂.reload webCrd.spec).crd ∧
      (webCrd.Once → ((w₂.reload webCrd.spec).crd.status.memberList.map Member.target).Nodup) ∧
      syncLbaasMembers helpful (w₂.reload webCrd.spec) = .ok false w₃ ∧ Quiet w₂.log w₃.log :=
  two_passes_reconcile helpful_obliging webCrd_tidy (by decide) rfl webCrd_supported ⟨rfl, rfl⟩

/-- The third pass over that Service patches the status, with the security groups it
already holds. -/
theorem third_pass_patches_status :
    let w₁ := after (syncLbaasMembers helpful) ⟨webCrd, {}, []⟩
    let w₂ := after (syncLbaasMembers helpful) (w₁.reload webCrd.spec)
    let w₃ := after (syncLbaasMembers helpful) (w₂.reload webCrd.spec)
    Obliging helpful ∧ Tidy webCrd ∧ webCrd.name ≠ "kubernetes" ∧ webCrd.Once ∧
      (w₃.log.drop w₂.log.length).map Entry.call =
        [.read, .patchSecurityGroups true, .read, .read] ∧
      w₃.stored = w₂.stored :=
  ⟨helpful_obliging, webCrd_tidy, by decide, ⟨by decide +kernel, List.nodup_nil⟩, by decide +kernel,
    by decide +kernel⟩

end LoadBalancer

end KuryrKubernetes
