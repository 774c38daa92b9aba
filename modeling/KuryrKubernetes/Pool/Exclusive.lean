import KuryrKubernetes.Pool.World

/-!
# Port pool exclusivity

No port is filed twice, and no port a live pod holds is filed, so two live pods
never get the same port.

`on_finalize` releases the ports of a KuryrPort every time it is executed, and it is
executed again as long as the finalizers are there. When the ports have been
recycled in between, the second release puts them in line again
(`pool_files_port_twice`). `poolSystem_exclusive` is the invariant for the runs in
which every finalized KuryrPort still owns its ports (`FinalizesOwn`); a first
`on_finalize` always does.
-/

namespace KuryrKubernetes

open Dicts Transition

/-- The ports of the live KuryrPorts. -/
def heldBy (kps : Dict String KuryrPort) : List PortId :=
  kps.items.flatMap fun e => if e.2.live then ids e.2.vifs else []

theorem mem_heldBy {kps : Dict String KuryrPort} {port : PortId} :
    port ∈ heldBy kps ↔
      ∃ pod kp, kps.get? pod = some kp ∧ kp.live = true ∧ port ∈ ids kp.vifs := by
  simp only [heldBy, List.mem_flatMap, Prod.exists, Dict.get?_eq_some]
  refine exists_congr fun pod => exists_congr fun kp => and_congr_right fun _ => ?_
  cases kp.live <;> simp

theorem heldBy_set (kps : Dict String KuryrPort) (pod : String) (kp : KuryrPort) :
    (heldBy (kps.set pod kp)).Perm
      ((if kp.live then ids kp.vifs else []) ++ heldBy (kps.erase pod)) := by
  have h := (kps.upsert_perm pod fun _ => kp).flatMap_right fun e =>
    if e.2.live then ids e.2.vifs else []
  rwa [List.flatMap_cons] at h

theorem heldBy_erase_sublist (kps : Dict String KuryrPort) (pod : String) :
    (heldBy (kps.erase pod)).Sublist (heldBy kps) :=
  List.filter_sublist.flatMap _

/-- **Exclusivity.** -/
structure PoolExclusive (w : World) : Prop where
  filed_once : w.pool.ports.Nodup
  held_not_filed : ∀ port ∈ w.held, port ∉ w.pool.ports
  not_shared : ∀ pod pod' kp kp', pod ≠ pod' → w.kuryrPorts.get? pod = some kp →
    w.kuryrPorts.get? pod' = some kp' → kp.live = true → kp'.live = true →
    ∀ port ∈ ids kp.vifs, port ∉ ids kp'.vifs

/-- The ports of a finalized KuryrPort are not filed, and no other live pod holds
them. -/
def FinalizesOwn (w : World) : Action → Prop
  | .finalize pod _ => ∀ kp, w.kuryrPorts.get? pod = some kp → ∀ port ∈ ids kp.vifs,
      port ∉ w.pool.ports ∧
        ∀ pod' kp', pod' ≠ pod → w.kuryrPorts.get? pod' = some kp' → kp'.live = true →
          port ∉ ids kp'.vifs
  | _ => True

theorem FinalizesOwn.notFiled {w : World} {a : Action} (h : FinalizesOwn w a) : NotFiled w a := by
  cases a with
  | finalize pod removed => exact fun kp hkp port hp => (h kp hkp port hp).1
  | _ => trivial

/-- The invariant: held ports are held once, not filed and not waiting. -/
structure Exclusive (w : World) : Prop extends Sound w where
  held_nodup : w.held.Nodup
  held_filed : ∀ port ∈ w.held, port ∉ w.pool.ports
  held_waiting : ∀ port ∈ w.held, port ∉ w.pool.recyclable.keys

theorem held_known {w : World} (h : Sound w) {port : PortId} (hp : port ∈ w.held) :
    port ∈ w.known := by
  obtain ⟨pod, kp, hget, -, hp⟩ := mem_heldBy.mp hp
  exact h.inUse_known port (mem_inUse.mpr ⟨pod, kp, hget, hp⟩)

/-- Steps that leave the pods alone and file only ports that no pod holds. -/
theorem Exclusive.of_held_eq {w w' : World} (he : Exclusive w) (hs : Sound w')
    (hheld : w'.held = w.held)
    (hports : ∀ port ∈ w'.pool.ports, port ∈ w.pool.ports ∨ port ∉ w.held)
    (hrecy : ∀ port ∈ w'.pool.recyclable.keys, port ∈ w.pool.recyclable.keys) : Exclusive w' where
  toSound := hs
  held_nodup := by rw [hheld]; exact he.held_nodup
  held_filed := by
    intro port hp hfiled
    rw [hheld] at hp
    rcases hports port hfiled with h | h
    · exact he.held_filed port hp h
    · exact h hp
  held_waiting := by
    intro port hp hw
    rw [hheld] at hp
    exact he.held_waiting port hp (hrecy port hw)

variable {cfg : PoolConfig} {w w' : World}

theorem Exclusive.trigger (he : Exclusive w) {out : Outcome} {listed : PortId → Bool}
    (hpool : w'.pool = (triggerReturnToPool cfg out listed w.sgs w.pool).pool)
    (hkp : w'.kuryrPorts = w.kuryrPorts) (hknown : w'.known = w.known) : Exclusive w' := by
  obtain ⟨moved, sgCurrent, -, hwait, -, hfiled, hrecy⟩ :=
    trigger_entries cfg out listed w.sgs w.pool
  refine he.of_held_eq (he.toSound.trigger hpool hkp hknown) ?_ ?_ ?_
  · rw [World.held, World.held, hkp]
  · intro port hp
    rw [hpool] at hp
    rcases List.mem_append.mp ((ports_perm hfiled).mem_iff.mp hp) with h | h
    · obtain ⟨e, he', rfl⟩ := List.mem_map.mp h
      obtain ⟨m, hm, rfl⟩ := List.mem_map.mp he'
      exact .inr fun hh => he.held_waiting _ hh (hwait m hm)
    · exact .inl h
  · rw [hpool]
    exact fun port hp => (hrecy port hp).1

/-- A pod that gets a port and further fresh ones. -/
theorem Exclusive.deliver (he : Exclusive w) {pod : String} {key : PoolKey} {sgs : List String}
    {extra : List Vif} {sg : SgKey} {port : PortId} (hnew : w.kuryrPorts.get? pod = none)
    (hfresh : Fresh w.known extra) (hs : Sound w')
    (hfiled : (entries w.pool.available).Perm ((key, sg, port) :: entries w'.pool.available))
    (hrecy : w'.pool.recyclable = w.pool.recyclable)
    (hdel : Delivered w w' pod key sgs extra sg port) : Exclusive w' := by
  have hperm := ports_perm_cons hfiled
  have hnd := List.nodup_cons.mp (hperm.nodup_iff.mp he.nodup)
  have hport : port ∈ w.pool.ports := hperm.mem_iff.mpr List.mem_cons_self
  obtain ⟨v, rfl, hkp⟩ := hdel.kuryrPorts
  have hheld : w'.held.Perm ((v.id :: ids extra) ++ w.held) := by
    have h := heldBy_set w.kuryrPorts pod ⟨key.host, key.project, v :: extra, true⟩
    rw [Dict.erase_of_get?_none hnew, ← hkp] at h
    exact h
  have hextra : ∀ q ∈ ids extra, q ∉ w.known := by
    intro q hq
    obtain ⟨x, hx, rfl⟩ := List.mem_map.mp hq
    exact hfresh.2 x hx
  -- the ports of the new pod are the taken one and unknown ones
  have hmem : ∀ q ∈ w'.held, q = v.id ∨ q ∈ ids extra ∨ q ∈ w.held := by
    intro q hq
    rcases List.mem_append.mp (hheld.mem_iff.mp hq) with h | h
    · exact (List.mem_cons.mp h).imp_right .inl
    · exact .inr (.inr h)
  refine ⟨hs, hheld.nodup_iff.mpr ?_, fun q hq hf => ?_, fun q hq hw => ?_⟩
  · refine List.nodup_append'.mpr ⟨List.nodup_cons.mpr ⟨fun h => ?_, hfresh.1⟩, he.held_nodup,
      fun q hq hh => ?_⟩
    · exact hextra _ h (he.ports_known _ hport)
    · rcases List.mem_cons.mp hq with rfl | hq
      · exact he.held_filed _ hh hport
      · exact hextra q hq (held_known he.toSound hh)
  · rcases hmem q hq with rfl | hq | hq
    · exact hnd.1 hf
    · exact hextra q hq (he.ports_known q (hperm.mem_iff.mpr (List.mem_cons_of_mem _ hf)))
    · exact he.held_filed q hq (hperm.mem_iff.mpr (List.mem_cons_of_mem _ hf))
  · rw [hrecy] at hw
    rcases hmem q hq with rfl | hq | hq
    · exact he.waiting _ hport hw
    · exact hextra q hq (he.waiting_known q hw)
    · exact he.held_waiting q hq hw

/-- A KuryrPort that still owns its ports is finalized. -/
theorem Exclusive.finalize (he : Exclusive w) {pod : String} {removed : Bool}
    (hok : FinalizesOwn w (.finalize pod removed))
    (h : w.step cfg (.finalize pod removed) = some w') : Exclusive w' := by
  have hs := step_sound he.toSound hok.notFiled h
  obtain ⟨kp, hkp, rfl⟩ := step_finalize h
  obtain ⟨havail, hrecy⟩ := foldl_release kp.host kp.project kp.vifs w.pool
  have hports : Pool.ports (kp.vifs.foldl (fun p v => releaseVif p kp.host kp.project v) w.pool)
      = w.pool.ports := by rw [Pool.ports, havail]; rfl
  -- whether or not the KuryrPort is removed, its pod holds nothing any more
  have hheld : (heldBy (if removed then w.kuryrPorts.erase pod
      else w.kuryrPorts.set pod { kp with live := false })).Perm
        (heldBy (w.kuryrPorts.erase pod)) := by
    cases removed with
    | true => exact List.Perm.refl _
    | false => exact heldBy_set w.kuryrPorts pod { kp with live := false }
  have hsub := heldBy_erase_sublist w.kuryrPorts pod
  refine ⟨hs, hheld.nodup_iff.mpr (he.held_nodup.sublist hsub), fun q hq hf => ?_,
    fun q hq hw => ?_⟩
  · rw [hports] at hf
    exact he.held_filed q (hsub.subset (hheld.mem_iff.mp hq)) hf
  · have hq' := hheld.mem_iff.mp hq
    rcases (hrecy q).mp hw with hw | hw
    · obtain ⟨pod', kp', hget, hlive, hq⟩ := mem_heldBy.mp hq'
      obtain ⟨hmem, hne⟩ := Dict.mem_items_erase.mp (Dict.get?_eq_some.mp hget)
      exact (hok kp hkp q hw).2 pod' kp' hne (Dict.get?_eq_some.mpr hmem) hlive hq
    · exact he.held_waiting q (hsub.subset hq') hw

/-- **Every step in which a finalized KuryrPort still owns its ports keeps the
invariant.** -/
theorem step_exclusive (he : Exclusive w) {a : Action} (hok : FinalizesOwn w a)
    (h : w.step cfg a = some w') : Exclusive w' := by
  have hs := step_sound he.toSound hok.notFiled h
  cases a with
  | get pod key sgs extra updated =>
    obtain ⟨hnew, hfresh, hrecy, -, heff⟩ := step_get h
    have hkeys : ∀ port ∈ w'.pool.recyclable.keys, port ∈ w.pool.recyclable.keys := by
      rw [hrecy]
      exact fun _ hp => hp
    cases heff with
    | none hfiled hkp hsgs =>
      have hnil : (entries w'.pool.available).Perm ([] ++ entries w.pool.available) := hfiled
      refine he.of_held_eq hs ?_ (fun port hp => .inl ((ports_perm hnil).mem_iff.mp hp)) hkeys
      rw [World.held, World.held, hkp]
    | lost sg port hfiled hkp hsgs =>
      refine he.of_held_eq hs ?_ (fun q hq => .inl ?_) hkeys
      · rw [World.held, World.held, hkp]
      · exact (ports_perm_cons hfiled).mem_iff.mpr (List.mem_cons_of_mem _ hq)
    | delivered sg port hfiled hdel => exact he.deliver hnew hfresh hs hfiled hrecy hdel
  | populate key sgs vifs =>
    obtain ⟨hfresh, rfl⟩ := step_populate h
    obtain ⟨hfiled, hrecy⟩ := populatePool_entries w.pool key (sorted sgs) vifs
    -- a fresh port is held by nobody
    refine he.of_held_eq hs rfl (fun port hp => ?_) ?_
    · rcases List.mem_append.mp ((ports_perm hfiled).mem_iff.mp hp) with h | h
      · obtain ⟨e, he', rfl⟩ := List.mem_map.mp h
        obtain ⟨q, hq, rfl⟩ := List.mem_map.mp he'
        obtain ⟨v, hv, rfl⟩ := List.mem_map.mp hq
        exact .inr fun hh => hfresh.2 v hv (held_known he.toSound hh)
      · exact .inl h
    · rw [hrecy]
      exact fun _ hp => hp
  | finalize pod removed => exact he.finalize hok h
  | trigger out listed =>
    cases h
    exact he.trigger rfl rfl rfl
  | removeSg sgId netId =>
    obtain ⟨hcl, -⟩ := removeSgFromPools_cleared w.pool sgId netId
    cases h
    exact he.of_held_eq hs rfl (fun port hp => .inl (hcl.ports.mem_iff.mp hp)) fun _ hp => hp
  | deleteNetwork netId out listed removed =>
    cases h
    obtain ⟨hsub, hrecy⟩ := deleteNetworkPools_spec cfg out listed removed w.sgs netId w.pool
    have hmid : Exclusive
        { w with pool := (triggerReturnToPool cfg out listed w.sgs w.pool).pool } :=
      he.trigger rfl rfl rfl
    have hports := hsub.map fun e : PoolKey × SgKey × PortId => e.2.2
    refine hmid.of_held_eq hs rfl (fun port hp => .inl (hports.subset hp)) ?_
    rw [hrecy]
    exact fun _ hp => hp
  | updateVifSgs pod sgs =>
    obtain ⟨kp, -, rfl⟩ := step_updateVifSgs h
    exact he.of_held_eq hs rfl (fun _ hp => .inl hp) fun _ hp => hp

theorem synced_exclusive {n : NeutronPorts} (h : Synced cfg n w) : Exclusive w := by
  refine ⟨synced_sound h, h.held_nodup, fun port hp hf => ?_, fun port hp hw => ?_⟩
  · obtain ⟨e, hmem, rfl⟩ := List.mem_map.mp ((synced_ports h).mem_iff.mp hf)
    -- with `port_debug` a recovered port is told by its name, without it by not being in use
    obtain ⟨hport, ⟨hdebug, hname⟩ | huse⟩ := mem_recovered hmem
    · exact h.named hdebug e.2 hport hp hname
    · obtain ⟨pod, kp, hget, -, hp⟩ := mem_heldBy.mp hp
      exact huse (mem_inUse.mpr ⟨pod, kp, hget, hp⟩)
  · rw [h.pool, (syncPools_entries cfg n w.inUse).2] at hw
    simp [Dict.keys] at hw

theorem Exclusive.poolExclusive (he : Exclusive w) : PoolExclusive w where
  filed_once := he.nodup
  held_not_filed := he.held_filed
  not_shared := by
    intro pod pod' kp kp' hne hget hget' hlive hlive' port hp hp'
    -- split the held ports into those of `pod` and the rest
    have hsplit : w.held.Perm (ids kp.vifs ++ heldBy (w.kuryrPorts.erase pod)) := by
      have h := (Dict.perm_of_get? hget).flatMap_right fun e =>
        if e.2.live then ids e.2.vifs else []
      rw [List.flatMap_cons, if_pos hlive] at h
      exact h
    have hdisj := (List.nodup_append'.mp (hsplit.nodup_iff.mp he.held_nodup)).2.2
    refine hdisj hp (mem_heldBy.mpr ⟨pod', kp', ?_, hlive', hp'⟩)
    rw [Dict.get?_erase_of_ne _ (Ne.symm hne)]
    exact hget'

/-- **Port pool exclusivity**, in every run whose finalized KuryrPorts still own
their ports. -/
theorem poolSystem_exclusive (cfg : PoolConfig) (w : World)
    (h : Reach (poolSystem cfg) FinalizesOwn w) : PoolExclusive w := by
  refine Exclusive.poolExclusive (h.invariant (fun s hs => ?_) fun s a s' hI hok hstep => ?_)
  · obtain ⟨n, hn⟩ := hs
    exact synced_exclusive hn
  · exact step_exclusive hI hok hstep

/-! ## Runs -/

/-- Bare metal, no `port_debug`, no maximum. -/
def bareMetal : PoolConfig := ⟨.neutron, false, 0⟩

/-- No ports, no pods. -/
def emptyWorld : World := ⟨Pool.empty, Dict.empty, fun _ => [], []⟩

theorem emptyWorld_synced : Synced bareMetal ⟨[], by simp, by simp⟩ emptyWorld where
  pool := rfl
  known := fun _ h => absurd h (by simp)
  inUse_known := fun _ h => absurd h (by simp [World.inUse, emptyWorld])
  sgs := fun _ h => absurd h (by simp)
  held_nodup := by simp [World.held, emptyWorld]
  named := fun h => absurd h (by decide)

theorem emptyWorld_reached (ok : World → Action → Prop) :
    Reach (poolSystem bareMetal) ok emptyWorld := .init ⟨_, emptyWorld_synced⟩

/-- The pool of the examples. -/
def poolKey : PoolKey := ⟨"node-1", "project", "net"⟩

/-- Every request succeeds. -/
def allWell : Outcome := ⟨fun _ => true, fun _ => true, fun _ => true, fun _ => true⟩

/-- A pod gets a port, its KuryrPort is finalized, the port is recycled; the
finalizers could not be removed, so `on_finalize` and the recycling run again. -/
def replayedFinalize : List Action :=
  [.populate poolKey ["sg"] [⟨"port-1", "net"⟩],
   .get "pod-1" poolKey ["sg"] [] true,
   .finalize "pod-1" false,
   .trigger allWell fun _ => true,
   .finalize "pod-1" false,
   .trigger allWell fun _ => true]

/-- Up to the first `on_finalize` every step is as it should be. -/
theorem poolSystem_exclusive_first_finalize :
    ∃ w, execute (World.step bareMetal) emptyWorld (replayedFinalize.take 3) = some w ∧
      PoolExclusive w := by
  refine ⟨_, rfl, poolSystem_exclusive bareMetal _ (Reach.step (a := .finalize "pod-1" false)
    (Reach.step (a := .get "pod-1" poolKey ["sg"] [] true)
      (Reach.step (a := .populate poolKey ["sg"] [⟨"port-1", "net"⟩])
        (emptyWorld_reached FinalizesOwn) trivial rfl) trivial rfl) ?_ rfl)⟩
  intro kp hkp port _
  refine ⟨?_, fun pod' kp' hne hget => ?_⟩
  · -- the only port has been taken
    show port ∉ ([] : List PortId)
    exact List.not_mem_nil
  · rcases Dict.mem_items_upsert.mp (Dict.get?_eq_some.mp hget) with heq | ⟨hmem, -⟩
    · exact absurd (congrArg Prod.fst heq) hne
    · cases hmem

/-- The port is filed twice, and two pods can get it. -/
theorem pool_files_port_twice :
    ∃ w, Reach (poolSystem bareMetal) (fun _ _ => True) w ∧ ¬ PoolExclusive w := by
  have hrun : (execute (World.step bareMetal) emptyWorld replayedFinalize).map (·.pool.ports)
      = some ["port-1", "port-1"] := by decide +kernel
  obtain ⟨w, hw, hports⟩ := Option.map_eq_some_iff.mp hrun
  refine ⟨w, Reach.execute (fun _ _ _ h => ⟨trivial, h⟩) (emptyWorld_reached _) hw, fun h => ?_⟩
  have hnd := h.filed_once
  rw [hports] at hnd
  exact absurd hnd (by decide)

end KuryrKubernetes
