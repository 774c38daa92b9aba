import KuryrKubernetes.Pool.NetworkDeletion

/-!
# Recycling up to the maximum of a pool

`_trigger_return_to_pool` (`controller/drivers/vif_pool.py`) files every port that waits
under the key of its pool, or deletes it when the pool has `ports_pool_max` ports. The size
of the pool is counted anew for every port.

- `Driver`: the dictionaries and `_recovered_pools`. Nothing waits before the recovery.
- `Recycled`: what a call is to leave of the ports that wait, and of the others.
- `Progress`: the invariant of the loop. The ports it has been at are in a list of filed
  entries or in one of deleted ports, and the others wait.
- `trigger_return_to_pool_recycles`: with requests that succeed a call leaves it so.
-/

namespace KuryrKubernetes

namespace NetworkDeletion

open Dicts Loop

/-! ## The call -/

/-- A pool driver. `release_vif`, which alone makes ports wait, raises until the pools are
recovered. -/
structure Driver where
  pool : Pool
  recovered : Bool
  nothing_waits : recovered = false → pool.recyclable.items = []

/-- `_trigger_return_to_pool` (vif_pool.py:672–721, 888–943); `false` when it raises. -/
def triggerReturn (cfg : PoolConfig) (r : Recycling) (d : Driver) : Trail × Bool :=
  if !d.recovered then (.start d.pool, true)
  else if !cfg.portDebug && !r.listing then (.start d.pool, false)
  else each (returnTurn cfg r) d.pool.recyclable.items (.start d.pool)

/-- No request fails. -/
structure Recycling.Succeeds (r : Recycling) : Prop where
  listing : r.listing = true
  renamed : ∀ port, r.out.renamed port = true
  trunk : ∀ key, r.out.trunk key = true
  detached : ∀ port, r.out.detached port = true
  deleted : ∀ port, r.out.deleted port = true

/-- The ports that wait have their VIFs and are not available. -/
def Recyclable (p : Pool) : Prop :=
  ∀ e ∈ p.recyclable.items, (p.existing.get? e.1).isSome ∧ ∀ f ∈ entries p.available, f.2.2 ≠ e.1

/-- The port is once in the pools, in a group of the key, and its VIF is known as before. -/
structure ReturnedTo (p : Pool) (t : Trail) (port : PortId) (key : PoolKey) : Prop where
  group : ∃ sg, (key, sg, port) ∈ entries t.pool.available
  once : (entries t.pool.available).countP (·.2.2 = port) = 1
  known : t.pool.existing.get? port = p.existing.get? port

/-- The port is deleted and forgotten. -/
structure DeletedPort (t : Trail) (port : PortId) : Prop where
  deleted : port ∈ t.deleted
  forgotten : t.pool.existing.get? port = none
  unavailable : ∀ f ∈ entries t.pool.available, f.2.2 ≠ port

/-- What a call leaves of the pools `p`. -/
structure Recycled (cfg : PoolConfig) (r : Recycling) (p : Pool) (t : Trail) : Prop where
  emptied : t.pool.recyclable.items = []
  settled : ∀ port key, (port, key) ∈ p.recyclable.items →
    ReturnedTo p t port key ∧ port ∉ t.deleted ∨ DeletedPort t port
  bounded : 0 < cfg.portsPoolMax → ∀ key, t.pool.size key ≤ max (p.size key) cfg.portsPoolMax
  /-- A port is deleted in an iteration that finds its pool full. -/
  reached : ∀ port ∈ t.deleted, ∃ key rest t',
    Iterates (returnTurn cfg r) p.recyclable.items (.start p) (port, key) rest t' ∧
      0 < cfg.portsPoolMax ∧ cfg.portsPoolMax ≤ t'.pool.size key
  groups : ∀ key sg ports, (row p.available key).get? sg = some ports →
    ∃ added, (row t.pool.available key).get? sg = some (ports ++ added)

/-! ## One iteration -/

section Turns

variable {cfg : PoolConfig} {r : Recycling} {p : Pool} {t : Trail} {port : PortId} {key : PoolKey}

theorem full_iff : Full cfg p key ↔ 0 < cfg.portsPoolMax ∧ cfg.portsPoolMax ≤ p.size key := by
  unfold Full
  omega

theorem returnPort_goes (hr : r.Succeeds) (sgCurrent : PortId → SgKey) :
    goes (returnPort cfg r.out sgCurrent p (port, key)) = true := by
  have htrunk := hr.trunk key
  have hdeleted := hr.deleted port
  unfold returnPort
  simp only
  split
  · split <;> rfl
  · cases cfg.driver with
    | neutron =>
      simp only
      split <;> rfl
    | nested =>
      simp only
      repeat' split
      all_goals rfl

/-- With requests that succeed a port is filed or deleted. -/
theorem returnTurn_of_succeeds (hr : r.Succeeds) (hknown : (t.pool.existing.get? port).isSome) :
    (¬ Full cfg t.pool key ∧ returnTurn cfg r (port, key) t =
      (⟨(recycle t.pool port key (r.sgCurrent cfg port)).dropRecyclable port, t.deleted,
        t.released⟩, true)) ∨
    (Full cfg t.pool key ∧ ∃ released, returnTurn cfg r (port, key) t =
      (⟨(t.pool.dropExisting port).dropRecyclable port, t.deleted ++ [port], released⟩, true)) := by
  have hturn := returnPort_turn cfg r.out (r.sgCurrent cfg) t.pool port key
  have hgoes : goes (returnPort cfg r.out (r.sgCurrent cfg) t.pool (port, key)) = true :=
    returnPort_goes hr (r.sgCurrent cfg)
  rw [returnTurn_eq]
  simp only
  -- only what `Turn` says about the outcome is needed from here on
  generalize returnPort cfg r.out (r.sgCurrent cfg) t.pool (port, key) = flow at hturn hgoes ⊢
  generalize deletesPort cfg r.out t.pool (port, key) = deletes at hturn ⊢
  generalize releasesVlan cfg r.out t.pool (port, key) = releases at hturn ⊢
  cases hturn with
  | filed room => exact .inl ⟨room, by simp [Flow.pool, goes]⟩
  | deleted known full detaches => exact .inr ⟨full, _, rfl⟩
  | stays h =>
    rcases h with ⟨-, -, hname⟩ | ⟨-, -, -, hdetached | ⟨-, hdeleted⟩⟩
    · exact absurd (hr.renamed port) (by simp [hname])
    · exact absurd (hr.detached port) (by simp [hdetached])
    · exact absurd (hr.deleted port) (by simp [hdeleted])
  | noTrunk nested => cases hgoes
  | dropped h => exact absurd hknown (by simp [h.2.2])
  | undeleted known full neutron h => exact absurd (hr.deleted port) (by simp [h])
  | detached known full nested detaches h => exact absurd (hr.deleted port) (by simp [h])

/-- The groups of a pool after a port was filed. -/
theorem recycle_groups (p : Pool) (port : PortId) (key : PoolKey) (sg : SgKey) (key' : PoolKey)
    (sg' : SgKey) :
    (row (recycle p port key sg).available key').get? sg' =
      if key' = key ∧ sg' = sg then some (((row p.available key).get? sg).getD [] ++ [port])
      else (row p.available key').get? sg' := by
  have hpush : (row (push p.available key sg port) key').get? sg' =
      if key' = key ∧ sg' = sg then some (((row p.available key).get? sg).getD [] ++ [port])
      else (row p.available key').get? sg' := by
    by_cases hkey : key' = key
    · subst hkey
      rw [push, row_set_self, append]
      by_cases hsg : sg' = sg
      · rw [hsg, Dict.get?_upsert_self, if_pos ⟨rfl, rfl⟩]
      · rw [Dict.get?_upsert_of_ne _ _ hsg, if_neg fun h => hsg h.2]
    · rw [if_neg fun h => hkey h.1, row, push, Dict.set, Dict.get?_upsert_of_ne _ _ hkey]
      rfl
  rw [← hpush]
  unfold recycle
  simp only
  split
  -- the group has moved to the end of its pool, with the same ports
  · next d hd =>
    by_cases hkey : key' = key
    · subst hkey
      rw [row_set_self]
      exact get?_congr_of_perm (Dict.moveToEnd_perm hd) sg'
    · rw [row, Dict.set, Dict.get?_upsert_of_ne _ _ hkey]
      rfl
  · rfl

theorem recycle_size (sg : SgKey) (key' : PoolKey) :
    (recycle p port key sg).size key' = p.size key' + if key' = key then 1 else 0 := by
  unfold Pool.size
  rw [length_rows_row, length_rows_row, (recycle_entries p port key sg).1.countP_eq,
    List.countP_cons]
  by_cases h : key' = key
  · simp [h]
  · simp [h, Ne.symm h]

end Turns

/-! ## The loop -/

section Loops

variable {cfg : PoolConfig} {r : Recycling} {p : Pool} {t : Trail} {es : List (PortId × PoolKey)}

/-- The port and the key of an entry. -/
def filedAs (e : PoolKey × SgKey × PortId) : PortId × PoolKey := (e.2.2, e.1)

/-- The loop has got to `es`. The ports before it are those of `filed` and of `gone`. -/
structure Progress (cfg : PoolConfig) (r : Recycling) (p : Pool)
    (filed : List (PoolKey × SgKey × PortId)) (gone : List (PortId × PoolKey))
    (es : List (PortId × PoolKey)) (t : Trail) : Prop where
  todo : t.pool.recyclable.items = es
  parts : p.recyclable.items.Perm (filed.map filedAs ++ gone ++ es)
  available : (entries t.pool.available).Perm (filed ++ entries p.available)
  deleted : t.deleted = gone.map Prod.fst
  known : ∀ q, t.pool.existing.get? q = if q ∈ t.deleted then none else p.existing.get? q
  bounded : 0 < cfg.portsPoolMax → ∀ key, t.pool.size key ≤ max (p.size key) cfg.portsPoolMax
  reached : ∀ port ∈ t.deleted, ∃ key rest t',
    Iterates (returnTurn cfg r) p.recyclable.items (.start p) (port, key) rest t' ∧
      Full cfg t'.pool key
  groups : ∀ key sg ports, (row p.available key).get? sg = some ports →
    ∃ added, (row t.pool.available key).get? sg = some (ports ++ added)

theorem Progress.start (cfg : PoolConfig) (r : Recycling) (p : Pool) :
    Progress cfg r p [] [] p.recyclable.items (.start p) where
  todo := rfl
  parts := .refl _
  available := .refl _
  deleted := rfl
  known := fun _ => rfl
  bounded := fun _ _ => Nat.le_max_left _ _
  reached := nofun
  groups := fun _ _ ports h => ⟨[], by rw [List.append_nil]; exact h⟩

variable {filed : List (PoolKey × SgKey × PortId)} {gone : List (PortId × PoolKey)}

/-- No port is in two of the three lists, or twice in one of them. -/
theorem Progress.nodup (h : Progress cfg r p filed gone es t) :
    ((filed.map filedAs ++ gone ++ es).map Prod.fst).Nodup :=
  (h.parts.map Prod.fst).nodup_iff.mp p.recyclable.nodup

theorem Progress.first_notMem {port : PortId} {key : PoolKey}
    (h : Progress cfg r p filed gone ((port, key) :: es) t) : port ∉ t.deleted := by
  have hnodup := h.nodup
  rw [List.append_assoc, List.map_append, List.map_append] at hnodup
  have hdisjoint := (List.nodup_append.mp (List.nodup_append.mp hnodup).2.1).2.2
  rw [h.deleted]
  exact fun hmem => hdisjoint port hmem port List.mem_cons_self rfl

/-- What waits after the first port is dropped. -/
theorem Progress.rest {port : PortId} {key : PoolKey}
    (h : Progress cfg r p filed gone ((port, key) :: es) t) :
    (t.pool.recyclable.erase port).items = es := by
  have hnodup := t.pool.recyclable.nodup
  rw [h.todo, List.map_cons, List.nodup_cons] at hnodup
  rw [Dict.erase_items, h.todo, List.filter_cons_of_neg (by simp), List.filter_eq_self]
  intro e he
  have hne : e.1 ≠ port := fun heq => hnodup.1 (List.mem_map.mpr ⟨e, he, heq⟩)
  simpa using hne

/-- A port goes back to its pool. -/
theorem Progress.file {port : PortId} {key : PoolKey} (sg : SgKey)
    (h : Progress cfg r p filed gone ((port, key) :: es) t) (hroom : ¬ Full cfg t.pool key) :
    Progress cfg r p ((key, sg, port) :: filed) gone es
      ⟨(recycle t.pool port key sg).dropRecyclable port, t.deleted, t.released⟩ := by
  obtain ⟨hentries, hrecyclable⟩ := recycle_entries t.pool port key sg
  constructor
  · show ((recycle t.pool port key sg).recyclable.erase port).items = es
    rw [hrecyclable]
    exact h.rest
  · refine h.parts.trans ?_
    rw [List.map_cons, List.cons_append, List.cons_append]
    exact List.perm_middle
  · exact hentries.trans (h.available.cons _)
  · exact h.deleted
  · intro q
    rw [← h.known q]
    exact congrArg (·.get? q) (recycle_existing t.pool port key sg)
  · intro hmax key'
    have hsize : ((recycle t.pool port key sg).dropRecyclable port).size key' =
        t.pool.size key' + if key' = key then 1 else 0 := recycle_size _ _
    have hbound := h.bounded hmax key'
    rw [hsize]
    split
    -- there was room for one more port
    · next hkey =>
      rw [full_iff, ← hkey] at hroom
      omega
    · exact hbound
  · exact h.reached
  · intro key' sg' ports hget
    obtain ⟨added, hadded⟩ := h.groups key' sg' ports hget
    have hgroup := recycle_groups t.pool port key sg key' sg'
    -- only the group of the port grows, at its end
    by_cases hsame : key' = key ∧ sg' = sg
    · obtain ⟨rfl, rfl⟩ := hsame
      refine ⟨added ++ [port], hgroup.trans ?_⟩
      rw [if_pos ⟨rfl, rfl⟩, hadded, Option.getD_some, List.append_assoc]
    · exact ⟨added, hgroup.trans ((if_neg hsame).trans hadded)⟩

/-- A port for which there is no room is deleted. -/
theorem Progress.delete {port : PortId} {key : PoolKey} (released : List PortId)
    (h : Progress cfg r p filed gone ((port, key) :: es) t) (hfull : Full cfg t.pool key)
    (hreach : Iterates (returnTurn cfg r) p.recyclable.items (.start p) (port, key) es t) :
    Progress cfg r p filed (gone ++ [(port, key)]) es
      ⟨(t.pool.dropExisting port).dropRecyclable port, t.deleted ++ [port], released⟩ := by
  constructor
  · exact h.rest
  · refine h.parts.trans (List.Perm.of_eq ?_)
    simp
  · exact h.available
  · simp [h.deleted]
  · intro q
    show (t.pool.existing.erase port).get? q = _
    by_cases hq : q = port
    · rw [hq, Dict.get?_erase_self, if_pos (List.mem_append_right _ List.mem_cons_self)]
    · rw [Dict.get?_erase_of_ne _ hq, h.known q]
      simp [hq]
  · exact h.bounded
  · intro q hq
    rcases List.mem_append.mp hq with hq | hq
    · exact h.reached q hq
    · obtain rfl := List.mem_singleton.mp hq
      exact ⟨key, es, t, hreach, hfull⟩
  · exact h.groups

/-- **One iteration**, with requests that succeed. -/
theorem Progress.step (hr : r.Succeeds) (hp : Recyclable p) {e : PortId × PoolKey}
    (hreach : Iterates (returnTurn cfg r) p.recyclable.items (.start p) e es t)
    (h : Progress cfg r p filed gone (e :: es) t) :
    (returnTurn cfg r e t).2 = true ∧
      ∃ filed' gone', Progress cfg r p filed' gone' es (returnTurn cfg r e t).1 := by
  obtain ⟨port, key⟩ := e
  have hmem : (port, key) ∈ p.recyclable.items :=
    h.parts.mem_iff.mpr (List.mem_append_right _ List.mem_cons_self)
  have hknown : (t.pool.existing.get? port).isSome := by
    rw [h.known, if_neg h.first_notMem]
    exact (hp _ hmem).1
  have hturn : (¬ Full cfg t.pool key ∧ _) ∨ (Full cfg t.pool key ∧ _) :=
    returnTurn_of_succeeds hr hknown
  rcases hturn with ⟨hroom, heq⟩ | ⟨hfull, released, heq⟩
  · rw [heq]
    exact ⟨rfl, _, _, h.file (r.sgCurrent cfg port) hroom⟩
  · rw [heq]
    exact ⟨rfl, _, _, h.delete released hfull hreach⟩

/-- A port that waited has been filed once, or deleted and not filed. -/
theorem Progress.counted (hp : Recyclable p) (h : Progress cfg r p filed gone [] t) {port : PortId}
    {key : PoolKey} (hmem : (port, key) ∈ p.recyclable.items) :
    (entries t.pool.available).countP (·.2.2 = port) + t.deleted.count port = 1 := by
  -- it was not available before, so only the loop can have filed it
  have hfree : (entries p.available).countP (·.2.2 = port) = 0 := by
    rw [List.countP_eq_zero]
    intro f hf
    simpa using (hp _ hmem).2 f hf
  have hone := List.count_eq_one_of_mem p.recyclable.nodup (List.mem_map_of_mem hmem)
  rw [(h.parts.map Prod.fst).count_eq, List.append_nil, List.map_append, List.count_append,
    ← h.deleted, List.map_map, List.count, List.countP_map] at hone
  rw [h.available.countP_eq, List.countP_append, hfree, Nat.add_zero, ← hone]
  refine congrArg (· + _) (List.countP_congr fun e _ => ?_)
  simp [filedAs]

/-- **What the loop leaves.** -/
theorem Progress.recycled (hp : Recyclable p) (h : Progress cfg r p filed gone [] t) :
    Recycled cfg r p t where
  emptied := h.todo
  settled := by
    intro port key hmem
    have hcount := h.counted hp hmem
    have hparts := h.parts.mem_iff.mp hmem
    rw [List.append_nil] at hparts
    -- the port went one of the two ways, and the count excludes the other
    rcases List.mem_append.mp hparts with hin | hin
    · obtain ⟨⟨key', sg, port'⟩, he, heq⟩ := List.mem_map.mp hin
      simp only [filedAs, Prod.mk.injEq] at heq
      obtain ⟨rfl, rfl⟩ := heq
      have hentry : (key', sg, port') ∈ entries t.pool.available :=
        h.available.mem_iff.mpr (List.mem_append_left _ he)
      have hpos : 0 < (entries t.pool.available).countP (·.2.2 = port') :=
        List.countP_pos_iff.mpr ⟨_, hentry, by simp⟩
      have hnot : port' ∉ t.deleted := List.count_eq_zero.mp (by omega)
      refine .inl ⟨⟨⟨sg, hentry⟩, by omega, ?_⟩, hnot⟩
      rw [h.known, if_neg hnot]
    · have hdeleted : port ∈ t.deleted := by
        rw [h.deleted]
        exact List.mem_map_of_mem hin
      have hpos := List.count_pos_iff.mpr hdeleted
      have hnone : (entries t.pool.available).countP (·.2.2 = port) = 0 := by omega
      refine .inr ⟨hdeleted, by rw [h.known, if_pos hdeleted], fun f hf hport => ?_⟩
      exact List.countP_eq_zero.mp hnone f hf (by simpa using hport)
  bounded := h.bounded
  reached := by
    intro port hport
    obtain ⟨key, rest, t', hreach, hfull⟩ := h.reached port hport
    exact ⟨key, rest, t', hreach, full_iff.mp hfull⟩
  groups := h.groups

end Loops

/-- **Recycling respects the maximum and loses nothing.** -/
theorem trigger_return_to_pool_recycles (cfg : PoolConfig) {r : Recycling} (d : Driver)
    (hfree : Recyclable d.pool) (hr : r.Succeeds) :
    (triggerReturn cfg r d).2 = true ∧ Recycled cfg r d.pool (triggerReturn cfg r d).1 := by
  unfold triggerReturn
  cases hrecovered : d.recovered with
  | false =>
    have hnone := d.nothing_waits hrecovered
    have hstart := Progress.start cfg r d.pool
    rw [hnone] at hstart
    exact ⟨rfl, hstart.recycled hfree⟩
  | true =>
    -- `Progress` is carried along the loop; no iteration stops it
    have hrule := each_rule (f := returnTurn cfg r)
      (I := fun es t => ∃ filed gone, Progress cfg r d.pool filed gone es t) (E := fun _ => False)
      (fun e rest t hreach hi => by
        obtain ⟨filed, gone, hi⟩ := hi
        obtain ⟨hgoes, hnext⟩ := hi.step hr hfree hreach
        exact ⟨fun _ => hnext, fun hstop => by rw [hgoes] at hstop; cases hstop⟩)
      ⟨[], [], Progress.start cfg r d.pool⟩
    simp only [Bool.not_true, Bool.false_eq_true, if_false, hr.listing, Bool.and_false]
    cases hok : (each (returnTurn cfg r) d.pool.recyclable.items (.start d.pool)).2 with
    | true =>
      obtain ⟨filed, gone, hi⟩ := hrule.1 hok
      exact ⟨rfl, hi.recycled hfree⟩
    | false => exact (hrule.2 hok).elim

/-- Two ports wait for a pool that may have one. -/
def waitingDriver : Driver where
  pool := releaseVif (releaseVif Pool.empty "node" "project" ⟨"port-1", "net"⟩) "node" "project"
    ⟨"port-2", "net"⟩
  recovered := true
  nothing_waits := nofun

def answered : Recycling :=
  ⟨true, true, fun _ => true, fun _ => ["sg"],
    ⟨fun _ => true, fun _ => true, fun _ => true, fun _ => true⟩⟩

theorem trigger_return_to_pool_recycles_two :
    waitingDriver.pool.recyclable.keys = ["port-1", "port-2"] ∧
      (triggerReturn ⟨.nested, false, 1⟩ answered waitingDriver).2 = true ∧
      Recycled ⟨.nested, false, 1⟩ answered waitingDriver.pool
        (triggerReturn ⟨.nested, false, 1⟩ answered waitingDriver).1 := by
  have hfree : Recyclable waitingDriver.pool := by
    unfold Recyclable
    decide +kernel
  exact ⟨by decide +kernel, trigger_return_to_pool_recycles ⟨.nested, false, 1⟩ waitingDriver hfree
    ⟨rfl, fun _ => rfl, fun _ => rfl, fun _ => rfl, fun _ => rfl⟩⟩

end NetworkDeletion

end KuryrKubernetes
