import KuryrKubernetes.Pool.Exclusive

/-!
# The labels of the pools

The key a port is filed under is a copy of its security groups in Neutron, taken
when it was created, recycled, recovered or stripped of its groups.
`update_vif_sgs` changes the groups of the default port of a pod as long as its
KuryrPort exists, also when the port has been recycled already
(`pool_label_stale`). `poolSystem_labelsTruthful` is the invariant for the runs in
which a handler does not give a filed port other groups than its label says, and no
KuryrPort is finalized whose ports are filed.
-/

namespace KuryrKubernetes

open Dicts Transition

/-- **Labels are truthful**, and a port served from the group asked for has these
security groups. -/
structure LabelsTruthful (w : World) : Prop where
  label : ∀ key sgs port, (key, some sgs, port) ∈ entries w.pool.available →
    sorted (w.sgs port) = sgs
  served : ∀ key sgs port b, takePort w.pool.available key (sorted sgs) = some (port, false, b) →
    sorted (w.sgs port) = sorted sgs

/-- The steps that respect the labels. -/
def KeepsLabels (w : World) : Action → Prop
  | .updateVifSgs pod sgs => ∀ kp, w.kuryrPorts.get? pod = some kp → ∀ v ∈ kp.vifs.head?,
      ∀ key label, (key, some label, v.id) ∈ entries w.pool.available → label = sorted sgs
  | a => NotFiled w a

theorem KeepsLabels.notFiled {w : World} {a : Action} (h : KeepsLabels w a) : NotFiled w a := by
  cases a with
  | updateVifSgs pod sgs => trivial
  | _ => exact h

theorem sorted_sorted (l : List String) : sorted (sorted l) = sorted l :=
  (List.pairwise_insertionSort (· ≤ ·) l).insertionSort_eq

/-- The invariant. -/
structure Labelled (w : World) : Prop extends Sound w where
  label : ∀ key sgs port, (key, some sgs, port) ∈ entries w.pool.available →
    sorted (w.sgs port) = sgs

/-- A port is filed in one place. -/
theorem Sound.place {w : World} (h : Sound w) {e e' : PoolKey × SgKey × PortId}
    (he : e ∈ entries w.pool.available) (he' : e' ∈ entries w.pool.available)
    (hport : e.2.2 = e'.2.2) : e = e' :=
  List.inj_on_of_nodup_map h.nodup he he' hport

theorem mem_ports {w : World} {e : PoolKey × SgKey × PortId} (he : e ∈ entries w.pool.available) :
    e.2.2 ∈ w.pool.ports :=
  List.mem_map_of_mem he

/-- Entries and security groups as before. -/
theorem Labelled.of_subset {w w' : World} (hl : Labelled w) (hs : Sound w')
    (hsub : ∀ e ∈ entries w'.pool.available, e ∈ entries w.pool.available)
    (hsgs : ∀ port ∈ w'.pool.ports, w'.sgs port = w.sgs port) : Labelled w' where
  toSound := hs
  label := by
    intro key sgs port hmem
    rw [hsgs port (mem_ports hmem)]
    exact hl.label key sgs port (hsub _ hmem)

variable {cfg : PoolConfig} {w w' : World}

theorem Labelled.trigger (hl : Labelled w) {out : Outcome} {listed : PortId → Bool}
    (hpool : w'.pool = (triggerReturnToPool cfg out listed w.sgs w.pool).pool)
    (hkp : w'.kuryrPorts = w.kuryrPorts) (hknown : w'.known = w.known) (hsgs : w'.sgs = w.sgs) :
    Labelled w' := by
  obtain ⟨moved, sgCurrent, -, -, hcur, hfiled, -⟩ := trigger_entries cfg out listed w.sgs w.pool
  refine ⟨hl.toSound.trigger hpool hkp hknown, fun key sgs port hmem => ?_⟩
  rw [hpool] at hmem
  rw [hsgs]
  rcases List.mem_append.mp (hfiled.mem_iff.mp hmem) with h | h
  · obtain ⟨e, -, heq⟩ := List.mem_map.mp h
    obtain ⟨-, hsg, rfl⟩ : e.2 = key ∧ sgCurrent e.1 = some sgs ∧ e.1 = port := by simpa using heq
    exact (hcur e.1 sgs hsg).symm
  · exact hl.label key sgs port h

/-- A request for a port. -/
theorem Labelled.get (hl : Labelled w) (hs : Sound w') {pod : String} {key : PoolKey}
    {sgs : List String} {extra : List Vif} {updated : Bool}
    (h : w.step cfg (.get pod key sgs extra updated) = some w') : Labelled w' := by
  obtain ⟨-, -, hrecy, hknown, heff⟩ := step_get h
  -- a port whose groups are changed is no longer filed
  have htaken : ∀ sg port,
      (entries w.pool.available).Perm ((key, sg, port) :: entries w'.pool.available) →
      (w'.sgs = w.sgs ∨ w'.sgs = setSgs w.sgs [port] (sorted sgs)) → Labelled w' := by
    intro sg port hfiled hsgs
    have hnd := (List.nodup_cons.mp ((ports_perm_cons hfiled).nodup_iff.mp hl.nodup)).1
    refine hl.of_subset hs (fun e he => hfiled.mem_iff.mpr (List.mem_cons_of_mem _ he)) ?_
    intro q hq
    rcases hsgs with hsgs | hsgs
    · rw [hsgs]
    · have hne : q ∉ [port] := fun h => hnd (List.mem_singleton.mp h ▸ hq)
      rw [hsgs, setSgs, if_neg hne]
  cases heff with
  | none hfiled hkp hsgs =>
    exact hl.of_subset hs (fun e he => hfiled.mem_iff.mp he) fun _ _ => by rw [hsgs]
  | lost sg port hfiled hkp hsgs => exact htaken sg port hfiled hsgs
  | delivered sg port hfiled hdel =>
    exact htaken sg port hfiled (hdel.sgs.imp And.right id)

/-- Fresh ports are filed under the groups they are created with. -/
theorem Labelled.populate (hl : Labelled w) (hs : Sound w') {key : PoolKey} {sgs : List String}
    {vifs : List Vif} (h : w.step cfg (.populate key sgs vifs) = some w') : Labelled w' := by
  obtain ⟨hfresh, rfl⟩ := step_populate h
  obtain ⟨hfiled, -⟩ := populatePool_entries w.pool key (sorted sgs) vifs
  refine ⟨hs, fun key' sgs' port hmem => ?_⟩
  show sorted (setSgs w.sgs (ids vifs) (sorted sgs) port) = _
  rcases List.mem_append.mp (hfiled.mem_iff.mp hmem) with h | h
  · obtain ⟨q, hq, heq⟩ := List.mem_map.mp h
    cases heq
    rw [setSgs, if_pos hq, sorted_sorted]
  · have hold : port ∉ ids vifs := by
      intro hq
      obtain ⟨v, hv, rfl⟩ := List.mem_map.mp hq
      exact hfresh.2 v hv (hl.ports_known _ (mem_ports h))
    rw [setSgs, if_neg hold]
    exact hl.label key' sgs' port h

/-- The ports of a group that is removed. -/
theorem Labelled.removeSg (hl : Labelled w) (hs : Sound w') {sgId : String} {netId : String}
    (h : w.step cfg (.removeSg sgId netId) = some w') : Labelled w' := by
  obtain ⟨hcl, -⟩ := removeSgFromPools_cleared w.pool sgId netId
  cases h
  refine ⟨hs, fun key sgs port hmem => ?_⟩
  show sorted (setSgs w.sgs (removeSgFromPools w.pool sgId netId).2 [] port) = sgs
  by_cases hp : port ∈ (removeSgFromPools w.pool sgId netId).2
  · -- a cleared port is filed in one place: the group without security groups
    obtain ⟨key', hkey'⟩ := hcl.cleared_mem port hp
    have heq := hs.place hmem hkey' rfl
    cases heq
    rw [setSgs, if_pos hp]
    rfl
  · rw [setSgs, if_neg hp]
    rcases hcl.moved _ hmem with h | ⟨-, h⟩
    · exact hl.label key sgs port h
    · exact absurd h hp

/-- **Every step that respects the labels keeps them truthful.** -/
theorem step_labelled (hl : Labelled w) {a : Action} (hok : KeepsLabels w a)
    (h : w.step cfg a = some w') : Labelled w' := by
  have hs := step_sound hl.toSound hok.notFiled h
  cases a with
  | get pod key sgs extra updated => exact hl.get hs h
  | populate key sgs vifs => exact hl.populate hs h
  | finalize pod removed =>
    obtain ⟨kp, -, rfl⟩ := step_finalize h
    obtain ⟨havail, -⟩ := foldl_release kp.host kp.project kp.vifs w.pool
    refine hl.of_subset hs (fun e he => ?_) fun _ _ => rfl
    simpa only [havail] using he
  | trigger out listed =>
    cases h
    exact hl.trigger rfl rfl rfl rfl
  | removeSg sgId netId => exact hl.removeSg hs h
  | deleteNetwork netId out listed removed =>
    cases h
    obtain ⟨hsub, -⟩ := deleteNetworkPools_spec cfg out listed removed w.sgs netId w.pool
    have hmid : Labelled
        { w with pool := (triggerReturnToPool cfg out listed w.sgs w.pool).pool } :=
      hl.trigger rfl rfl rfl rfl
    exact hmid.of_subset hs (fun e he => hsub.subset he) fun _ _ => rfl
  | updateVifSgs pod sgs =>
    -- the guard is needed here only: a finalized port may be filed again
    obtain ⟨kp, hkp, rfl⟩ := step_updateVifSgs h
    refine ⟨hs, fun key label port hmem => ?_⟩
    show sorted (setSgs w.sgs (kp.vifs.head?.map Vif.id).toList sgs port) = label
    by_cases hp : port ∈ (kp.vifs.head?.map Vif.id).toList
    · obtain ⟨v, hv, rfl⟩ := Option.map_eq_some_iff.mp (Option.mem_toList.mp hp)
      rw [setSgs, if_pos hp]
      exact (hok kp hkp v hv key label hmem).symm
    · rw [setSgs, if_neg hp]
      exact hl.label key label port hmem

theorem synced_labelled {n : NeutronPorts} (h : Synced cfg n w) : Labelled w := by
  refine ⟨synced_sound h, fun key sgs port hmem => ?_⟩
  rw [h.pool] at hmem
  obtain ⟨e, he, heq⟩ := List.mem_map.mp ((syncPools_entries cfg n w.inUse).1.mem_iff.mp hmem)
  cases heq
  rw [h.sgs e.2 (mem_recovered he).1]

theorem Labelled.truthful (hl : Labelled w) : LabelsTruthful w where
  label := hl.label
  served := by
    intro key sgs port b h
    obtain ⟨sg, hfiled, hgroup⟩ := takePort_entries h
    obtain rfl := hgroup rfl
    exact hl.label key (sorted sgs) port (hfiled.mem_iff.mpr List.mem_cons_self)

/-- **Pool labels are truthful**, in every run whose steps respect them. -/
theorem poolSystem_labelsTruthful (cfg : PoolConfig) (w : World)
    (h : Reach (poolSystem cfg) KeepsLabels w) : LabelsTruthful w := by
  refine Labelled.truthful (h.invariant (fun s hs => ?_) fun s a s' hI hok hstep => ?_)
  · obtain ⟨n, hn⟩ := hs
    exact synced_labelled hn
  · exact step_labelled hI hok hstep

/-- A pod gets a port from a populated pool. -/
theorem poolSystem_labelsTruthful_served :
    ∃ w, execute (World.step bareMetal) emptyWorld (replayedFinalize.take 2) = some w ∧
      LabelsTruthful w :=
  ⟨_, rfl, poolSystem_labelsTruthful bareMetal _
    (Reach.step (a := .get "pod-1" poolKey ["sg"] [] true)
      (Reach.step (a := .populate poolKey ["sg"] [⟨"port-1", "net"⟩])
        (emptyWorld_reached KeepsLabels) trivial rfl) trivial rfl)⟩

/-- The KuryrPort is finalized and its port recycled, then a handler updates the
pod. -/
def lateUpdate : List Action :=
  replayedFinalize.take 4 ++ [.updateVifSgs "pod-1" ["other-sg"]]

/-- The filed port has other security groups than its label says. -/
theorem pool_label_stale :
    ∃ w, Reach (poolSystem bareMetal) (fun _ _ => True) w ∧ ¬ LabelsTruthful w := by
  obtain ⟨w, hw⟩ : ∃ w, execute (World.step bareMetal) emptyWorld lateUpdate = some w :=
    ⟨_, rfl⟩
  have hentries : (poolKey, some ["sg"], "port-1") ∈ entries w.pool.available := by
    obtain rfl := Option.some.inj hw
    exact List.mem_singleton.mpr rfl
  have hsgs : sorted (w.sgs "port-1") = ["other-sg"] := by
    obtain rfl := Option.some.inj hw
    decide +kernel
  refine ⟨w, Reach.execute (fun _ _ _ h => ⟨trivial, h⟩) (emptyWorld_reached _) hw, fun h => ?_⟩
  have hlabel := h.label poolKey ["sg"] "port-1" hentries
  rw [hsgs] at hlabel
  exact absurd hlabel (by decide)

end KuryrKubernetes
