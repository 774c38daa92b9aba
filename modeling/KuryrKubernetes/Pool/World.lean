import KuryrKubernetes.Pool.State

/-!
# Pods, KuryrPorts and Neutron around a pool

The system the pools serve, and the part of its invariant that what holds of the pools over
whole runs rests on.

- `World`: the pool, the KuryrPorts with the VIFs their pods received, and the
  security groups of the Neutron ports. `World.step` are the transitions.
- `*_entries`: what each operation does to the filed ports, up to order.
- `Sound`: a port is filed at most once, no filed port waits for recycling, and
  every port id in sight is known. `finalize` may be executed again for a KuryrPort
  whose ports have been recycled in the meantime; the invariant is kept by the
  steps that do not finalize filed ports (`NotFiled`).
-/

namespace KuryrKubernetes

open Dicts Transition

/-! ## The system -/

/-- A KuryrPort: the VIFs of its status, the default one first. `live` until
`on_finalize` releases them. -/
structure KuryrPort where
  host : String
  project : String
  vifs : List Vif
  live : Bool
deriving DecidableEq, Repr

/-- The state of the system. `known` are all port ids ever created. -/
structure World where
  pool : Pool
  kuryrPorts : Dict String KuryrPort
  sgs : PortId → List String
  known : List PortId

/-- The transitions. -/
inductive Action where
  /-- A pod asks for its default port; `extra` are fresh ports of further
  interfaces, `updated` is the outcome of the security group update. -/
  | get (pod : String) (key : PoolKey) (sgs : List String) (extra : List Vif) (updated : Bool)
  /-- `_populate_pool` with fresh ports. -/
  | populate (key : PoolKey) (sgs : List String) (vifs : List Vif)
  /-- `on_finalize` of the KuryrPort of a pod (kuryrport.py:187–265); `removed` when
  its finalizers could be removed. -/
  | finalize (pod : String) (removed : Bool)
  | trigger (out : Outcome) (listed : PortId → Bool)
  | removeSg (sgId netId : String)
  | deleteNetwork (netId : String) (out : Outcome) (listed : PortId → Bool)
      (removed : PoolKey → Bool)
  /-- `update_vif_sgs` for a pod whose KuryrPort exists (neutron_vif.py:115–122). -/
  | updateVifSgs (pod : String) (sgs : List String)

/-- The ids of some VIFs. -/
def ids (vifs : List Vif) : List PortId := vifs.map Vif.id

/-- Set the security groups of some ports. -/
def setSgs (f : PortId → List String) (ports : List PortId) (sgs : List String) :
    PortId → List String :=
  fun port => if port ∈ ports then sgs else f port

/-- New ports have ids that are not in use. -/
def Fresh (known : List PortId) (vifs : List Vif) : Prop :=
  (ids vifs).Nodup ∧ ∀ v ∈ vifs, v.id ∉ known

instance (known : List PortId) (vifs : List Vif) : Decidable (Fresh known vifs) :=
  inferInstanceAs (Decidable (_ ∧ _))

/-- One transition; `none` when it is not enabled. A pod asks for ports once, and
the security group drivers always name at least one group. -/
def World.step (cfg : PoolConfig) (w : World) : Action → Option World
  | .get pod key sgs extra updated =>
    if (w.kuryrPorts.get? pod).isSome ∨ ¬ Fresh w.known extra then none
    else
      match getPortFromPool w.pool key (sorted sgs) with
      | (pool, some (port, true), answer) =>
        if updated then
          some { w with
            pool := pool
            kuryrPorts := match answer with
              | .vif v => w.kuryrPorts.set pod ⟨key.host, key.project, v :: extra, true⟩
              | .notReady => w.kuryrPorts
            sgs := setSgs w.sgs [port] (sorted sgs)
            known := w.known ++ ids extra }
        else some { w with pool := pool }
      | (pool, _, answer) =>
        some { w with
          pool := pool
          kuryrPorts := match answer with
            | .vif v => w.kuryrPorts.set pod ⟨key.host, key.project, v :: extra, true⟩
            | .notReady => w.kuryrPorts
          known := w.known ++ ids extra }
  | .populate key sgs vifs =>
    if ¬ Fresh w.known vifs ∨ sgs = [] then none
    else
      some { w with
        pool := populatePool w.pool key (sorted sgs) vifs
        sgs := setSgs w.sgs (ids vifs) (sorted sgs)
        known := w.known ++ ids vifs }
  | .finalize pod removed =>
    match w.kuryrPorts.get? pod with
    | none => none
    | some kp =>
      some { w with
        pool := kp.vifs.foldl (fun p v => releaseVif p kp.host kp.project v) w.pool
        kuryrPorts := if removed then w.kuryrPorts.erase pod
          else w.kuryrPorts.set pod { kp with live := false } }
  | .trigger out listed =>
    some { w with pool := (triggerReturnToPool cfg out listed w.sgs w.pool).pool }
  | .removeSg sgId netId =>
    let (pool, cleared) := removeSgFromPools w.pool sgId netId
    some { w with pool := pool, sgs := setSgs w.sgs cleared [] }
  | .deleteNetwork netId out listed removed =>
    some { w with pool := deleteNetworkPools cfg out listed removed w.sgs netId w.pool }
  | .updateVifSgs pod sgs =>
    match w.kuryrPorts.get? pod with
    | none => none
    | some kp =>
      some { w with sgs := setSgs w.sgs (kp.vifs.head?.map Vif.id).toList sgs }

/-- The ports a KuryrPort refers to. -/
def World.inUse (w : World) : List PortId := w.kuryrPorts.items.flatMap fun e => ids e.2.vifs

/-- The ports held by live pods. -/
def World.held (w : World) : List PortId :=
  w.kuryrPorts.items.flatMap fun e => if e.2.live then ids e.2.vifs else []

/-- The filed ports. -/
def Pool.ports (p : Pool) : List PortId := (entries p.available).map (·.2.2)

/-- A state right after `sync_pools`. Live pods hold different ports, and with
`port_debug` the port of a live pod carries the name of its pod. -/
structure Synced (cfg : PoolConfig) (n : NeutronPorts) (w : World) : Prop where
  pool : w.pool = syncPools cfg n w.inUse
  known : ∀ port ∈ n.ports, port.id ∈ w.known
  inUse_known : ∀ port ∈ w.inUse, port ∈ w.known
  sgs : ∀ port ∈ n.ports, w.sgs port.id = port.sgs
  held_nodup : w.held.Nodup
  named : cfg.portDebug = true → ∀ port ∈ n.ports, port.id ∈ w.held → port.name ≠ kuryrPortName

/-- The pools and their surroundings as a transition system. -/
def poolSystem (cfg : PoolConfig) : System World Action where
  init := fun w => ∃ n, Synced cfg n w
  step := fun w a w' => w.step cfg a = some w'

/-! ## What the operations do to the filed ports -/

/-- Buckets of ports. -/
abbrev Filed := Buckets PoolKey SgKey PortId

/-- Moving a group within its pool changes no entry. -/
theorem entries_set_row {b : Filed} {key : PoolKey} {d : Dict SgKey (List PortId)}
    (h : d.items.Perm (row b key).items) : (entries (b.set key d)).Perm (entries b) := by
  have hp : (rows d).Perm ([] ++ rows (row b key)) := rows_perm h
  exact entries_set_gain hp

/-- A port is taken out, from its own group unless it has to be updated. -/
theorem takePort_entries {b b' : Filed} {key : PoolKey} {sgs : List String} {port : PortId}
    {updated : Bool} (h : takePort b key sgs = some (port, updated, b')) :
    ∃ sg, (entries b).Perm ((key, sg, port) :: entries b') ∧ (updated = false → sg = some sgs) := by
  unfold takePort at h
  cases hp : popLast (row b key) (some sgs) with
  | some x =>
    obtain ⟨q, d⟩ := x
    rw [hp] at h
    cases h
    have hr : (rows (row b key)).Perm ([(some sgs, port)] ++ rows d) := rows_popLast hp
    exact ⟨some sgs, entries_set_lose hr, fun _ => rfl⟩
  | none =>
    rw [hp] at h
    simp only [Option.map_eq_some_iff, Prod.mk.injEq] at h
    obtain ⟨⟨sg, q, d⟩, hany, rfl, rfl, rfl⟩ := h
    have hr : (rows (row b key)).Perm ([(sg, q)] ++ rows d) := rows_popAny hany
    exact ⟨sg, entries_set_lose hr, fun hf => (by cases hf)⟩

theorem foldl_push_entries (key : PoolKey) (sg : SgKey) :
    ∀ (ports : List PortId) (b : Filed),
      (entries (ports.foldl (fun b port => push b key sg port) b)).Perm
        (ports.map (fun port => (key, sg, port)) ++ entries b)
  | [], _ => List.Perm.refl _
  | port :: ports, b => by
    refine (foldl_push_entries key sg ports (push b key sg port)).trans ?_
    refine ((entries_push b key sg port).append_left _).trans ?_
    exact List.perm_middle

theorem foldl_populate (key : PoolKey) (sgs : List String) :
    ∀ (vifs : List Vif) (p : Pool),
      let p' := vifs.foldl (fun p v =>
        { p.addExisting v with available := push p.available key (some sgs) v.id }) p
      p'.available = (ids vifs).foldl (fun b port => push b key (some sgs) port) p.available ∧
        p'.recyclable = p.recyclable
  | [], _ => ⟨rfl, rfl⟩
  | v :: vifs, p =>
    foldl_populate key sgs vifs
      { p.addExisting v with available := push p.available key (some sgs) v.id }

theorem populatePool_entries (p : Pool) (key : PoolKey) (sgs : List String) (vifs : List Vif) :
    (entries (populatePool p key sgs vifs).available).Perm
        ((ids vifs).map (fun port => (key, some sgs, port)) ++ entries p.available) ∧
      (populatePool p key sgs vifs).recyclable = p.recyclable := by
  have hfold := foldl_populate key sgs vifs p
  simp only at hfold
  unfold populatePool
  simp only
  generalize hq : vifs.foldl (fun p v =>
    { p.addExisting v with available := push p.available key (some sgs) v.id }) p = q at hfold ⊢
  have hentries : (entries q.available).Perm
      ((ids vifs).map (fun port => (key, some sgs, port)) ++ entries p.available) := by
    rw [hfold.1]
    exact foldl_push_entries key (some sgs) (ids vifs) p.available
  split
  · next d hd =>
    split
    · exact ⟨hentries, hfold.2⟩
    · exact ⟨(entries_set_row (Dict.moveToEnd_perm hd)).trans hentries, hfold.2⟩
  · exact ⟨hentries, hfold.2⟩

theorem releaseVif_available (p : Pool) (host project : String) (v : Vif) :
    (releaseVif p host project v).available = p.available := by
  unfold releaseVif
  simp only
  split <;> rfl

theorem releaseVif_recyclable {p : Pool} {host project : String} {v : Vif} {port : PortId} :
    port ∈ (releaseVif p host project v).recyclable.keys ↔ port = v.id ∨
      port ∈ p.recyclable.keys := by
  unfold releaseVif
  simp only
  split <;> exact Dict.mem_keys_upsert

/-- Finalizing files nothing; the released ports wait for recycling. -/
theorem foldl_release (host project : String) :
    ∀ (vifs : List Vif) (p : Pool),
      let p' := vifs.foldl (fun p v => releaseVif p host project v) p
      p'.available = p.available ∧
        ∀ port, port ∈ p'.recyclable.keys ↔ port ∈ ids vifs ∨ port ∈ p.recyclable.keys
  | [], _ => ⟨rfl, fun _ => by simp [ids]⟩
  | v :: vifs, p => by
    obtain ⟨ha, hr⟩ := foldl_release host project vifs (releaseVif p host project v)
    refine ⟨ha.trans (releaseVif_available p host project v), fun port => (hr port).trans ?_⟩
    rw [releaseVif_recyclable]
    simp only [ids, List.map_cons, List.mem_cons]
    tauto

theorem recycle_entries (p : Pool) (port : PortId) (key : PoolKey) (sg : SgKey) :
    (entries (recycle p port key sg).available).Perm ((key, sg, port) :: entries p.available) ∧
      (recycle p port key sg).recyclable = p.recyclable := by
  have hpush := entries_push p.available key sg port
  unfold recycle
  simp only
  split
  · next d hd => exact ⟨(entries_set_row (Dict.moveToEnd_perm hd)).trans hpush, rfl⟩
  · exact ⟨hpush, rfl⟩

/-- One iteration recycles its port, or files nothing. -/
theorem returnPort_cases (cfg : PoolConfig) (out : Outcome) (sgCurrent : PortId → SgKey) (p : Pool)
    (port : PortId) (key : PoolKey) :
    ((entries (returnPort cfg out sgCurrent p (port, key)).pool.available).Perm
        ((key, sgCurrent port, port) :: entries p.available) ∧
      (returnPort cfg out sgCurrent p (port, key)).pool.recyclable = p.recyclable.erase port) ∨
    ((returnPort cfg out sgCurrent p (port, key)).pool.available = p.available ∧
      ((returnPort cfg out sgCurrent p (port, key)).pool.recyclable = p.recyclable ∨
        (returnPort cfg out sgCurrent p (port, key)).pool.recyclable =
          p.recyclable.erase port)) := by
  obtain ⟨hrec, hkeep⟩ := recycle_entries p port key (sgCurrent port)
  unfold returnPort
  simp only
  split
  · split
    · exact .inr ⟨rfl, .inl rfl⟩
    · exact .inl ⟨hrec, congrArg (·.erase port) hkeep⟩
  · split
    · split
      · exact .inr ⟨rfl, .inr rfl⟩
      · split
        · exact .inr ⟨rfl, .inr rfl⟩
        · exact .inr ⟨rfl, .inl rfl⟩
    · split
      · exact .inr ⟨rfl, .inl rfl⟩
      · split
        · exact .inr ⟨rfl, .inl rfl⟩
        · split
          · exact .inr ⟨rfl, .inr rfl⟩
          · split
            · exact .inr ⟨rfl, .inr rfl⟩
            · exact .inr ⟨rfl, .inl rfl⟩

/-- **The recycling loop** files some of the ports it visits, each once, and those
no longer wait. -/
theorem returnPorts_entries (cfg : PoolConfig) (out : Outcome) (sgCurrent : PortId → SgKey) :
    ∀ (es : List (PortId × PoolKey)) (p : Pool), (es.map Prod.fst).Nodup →
      ∃ moved : List (PortId × PoolKey), moved.Sublist es ∧
        (entries (returnPorts cfg out sgCurrent p es).pool.available).Perm
          (moved.map (fun e => (e.2, sgCurrent e.1, e.1)) ++ entries p.available) ∧
        ∀ port ∈ (returnPorts cfg out sgCurrent p es).pool.recyclable.keys,
          port ∈ p.recyclable.keys ∧ port ∉ moved.map Prod.fst
  | [], p, _ => ⟨[], List.Sublist.refl _, List.Perm.refl _, fun port h => ⟨h, by simp⟩⟩
  | (port, key) :: es, p, hnd => by
    obtain ⟨hport, hnd⟩ := List.nodup_cons.mp hnd
    have hcases := returnPort_cases cfg out sgCurrent p port key
    -- the loop goes on after `next` and stops after `raised`
    have hrest : ∃ moved : List (PortId × PoolKey), moved.Sublist es ∧
        (entries (returnPorts cfg out sgCurrent p ((port, key) :: es)).pool.available).Perm
          (moved.map (fun e => (e.2, sgCurrent e.1, e.1))
            ++ entries (returnPort cfg out sgCurrent p (port, key)).pool.available) ∧
        ∀ q ∈ (returnPorts cfg out sgCurrent p ((port, key) :: es)).pool.recyclable.keys,
          q ∈ (returnPort cfg out sgCurrent p (port, key)).pool.recyclable.keys ∧
            q ∉ moved.map Prod.fst := by
      rw [returnPorts]
      cases returnPort cfg out sgCurrent p (port, key) with
      | next p' => exact returnPorts_entries cfg out sgCurrent es p' hnd
      | raised p' =>
        exact ⟨[], List.nil_sublist _, List.Perm.refl _, fun q h => ⟨h, by simp⟩⟩
    obtain ⟨moved, hsub, hperm, hrecy⟩ := hrest
    rcases hcases with ⟨hfiled, herase⟩ | ⟨hsame, hkeys⟩
    · refine ⟨(port, key) :: moved, hsub.cons_cons _, hperm.trans ?_, fun q hq => ?_⟩
      · exact (hfiled.append_left _).trans List.perm_middle
      · obtain ⟨hq, hqm⟩ := hrecy q hq
        rw [herase, Dict.mem_keys_erase] at hq
        refine ⟨hq.1, ?_⟩
        rw [List.map_cons, List.mem_cons, not_or]
        exact ⟨hq.2, hqm⟩
    · rw [hsame] at hperm
      refine ⟨moved, hsub.cons _, hperm, fun q hq => ?_⟩
      obtain ⟨hq, hqm⟩ := hrecy q hq
      rcases hkeys with hkeys | hkeys
      · rw [hkeys] at hq
        exact ⟨hq, hqm⟩
      · rw [hkeys, Dict.mem_keys_erase] at hq
        exact ⟨hq.1, hqm⟩

/-! ### Removing a security group -/

/-- The port ids of some buckets. -/
def portIds (b : Filed) : List PortId := (entries b).map (·.2.2)

/-- What clearing groups does: the ports stay, those of `cleared` end up in the group
without security groups, everything else keeps its place. -/
structure Cleared (b b' : Filed) (cleared : List PortId) : Prop where
  ports : (portIds b').Perm (portIds b)
  moved : ∀ e ∈ entries b', e ∈ entries b ∨ (e.2.1 = some [] ∧ e.2.2 ∈ cleared)
  cleared_mem : ∀ port ∈ cleared, ∃ key, (key, some [], port) ∈ entries b'
  kept : ∀ key port, (key, some [], port) ∈ entries b → (key, some [], port) ∈ entries b'

theorem Cleared.refl (b : Filed) : Cleared b b [] where
  ports := List.Perm.refl _
  moved := fun _ he => .inl he
  cleared_mem := fun _ h => absurd h (by simp)
  kept := fun _ _ h => h

theorem Cleared.trans {b b' b'' : Filed} {xs ys : List PortId} (h : Cleared b b' xs)
    (h' : Cleared b' b'' ys) : Cleared b b'' (xs ++ ys) where
  ports := h'.ports.trans h.ports
  moved := by
    intro e he
    rcases h'.moved e he with he | ⟨hl, hp⟩
    · rcases h.moved e he with he | ⟨hl, hp⟩
      · exact .inl he
      · exact .inr ⟨hl, List.mem_append_left _ hp⟩
    · exact .inr ⟨hl, List.mem_append_right _ hp⟩
  cleared_mem := by
    intro port hp
    rcases List.mem_append.mp hp with hp | hp
    · obtain ⟨key, hk⟩ := h.cleared_mem port hp
      exact ⟨key, h'.kept key port hk⟩
    · exact h'.cleared_mem port hp
  kept := fun key port hk => h'.kept key port (h.kept key port hk)

theorem get?_congr_of_perm {κ ν : Type} [DecidableEq κ] {d e : Dict κ ν} (h : d.items.Perm e.items)
    (k : κ) : d.get? k = e.get? k := by
  refine Option.ext fun v => ?_
  rw [Dict.get?_eq_some, Dict.get?_eq_some, h.mem_iff]

theorem row_set_self (b : Filed) (key : PoolKey) (d : Dict SgKey (List PortId)) :
    row (b.set key d) key = d := by
  rw [row, Dict.set, Dict.get?_upsert_self]
  rfl

/-- Pushing to the group without security groups leaves the other groups, and the
other pools, alone. -/
theorem foldl_push_frame (key : PoolKey) :
    ∀ (ports : List PortId) (b : Filed),
      let b' := ports.foldl (fun b port => push b key (some []) port) b
      (∀ sg, sg ≠ some [] → (row b' key).get? sg = (row b key).get? sg) ∧
        ∀ key', key' ≠ key → b'.get? key' = b.get? key'
  | [], _ => ⟨fun _ _ => rfl, fun _ _ => rfl⟩
  | port :: ports, b => by
    obtain ⟨hrow, hkey⟩ := foldl_push_frame key ports (push b key (some []) port)
    refine ⟨fun sg hsg => (hrow sg hsg).trans ?_, fun key' hk => (hkey key' hk).trans ?_⟩
    · rw [push, row_set_self, append]
      exact Dict.get?_upsert_of_ne _ _ hsg
    · exact Dict.get?_upsert_of_ne _ _ hk

/-- The part of the buckets a group leaves alone. -/
structure Frame (key : PoolKey) (sg : SgKey) (b b' : Filed) : Prop where
  group : ∀ sg', sg' ≠ sg → sg' ≠ some [] → (row b' key).get? sg' = (row b key).get? sg'
  pool : ∀ key', key' ≠ key → b'.get? key' = b.get? key'

theorem clearGroup_spec {b : Filed} {key : PoolKey} {sg : SgKey} {ports : List PortId}
    (hget : (row b key).get? sg = some ports) (hsg : sg ≠ some []) :
    (∀ b', (clearGroup b key sg ports).1 = some b' → Cleared b b' ports ∧ Frame key sg b b') ∧
      Cleared b (clearGroup b key sg ports).2 ports := by
  -- without the group, then with its ports in the group without security groups
  have hlose : (entries b).Perm (ports.map (fun port => (key, sg, port))
      ++ entries (b.set key ((row b key).erase sg))) := by
    have h := entries_set_lose (rows_of_get? hget)
    rwa [List.map_map] at h
  have hgain := foldl_push_entries key (some []) ports (b.set key ((row b key).erase sg))
  obtain ⟨hframe, hpool⟩ := foldl_push_frame key ports (b.set key ((row b key).erase sg))
  unfold clearGroup
  simp only
  generalize hb₁ : b.set key ((row b key).erase sg) = b₁ at hlose hgain hframe hpool ⊢
  generalize hb₂ : ports.foldl (fun b port => push b key (some []) port) b₁ = b₂
    at hgain hframe hpool ⊢
  have hcleared : Cleared b b₂ ports := by
    constructor
    · have hg := hgain.map (·.2.2)
      have hl := hlose.map (·.2.2)
      simp only [List.map_append, List.map_map] at hg hl
      exact hg.trans hl.symm
    · intro e he
      rcases List.mem_append.mp (hgain.mem_iff.mp he) with he | he
      · obtain ⟨port, hport, rfl⟩ := List.mem_map.mp he
        exact .inr ⟨rfl, hport⟩
      · exact .inl (hlose.mem_iff.mpr (List.mem_append_right _ he))
    · intro port hport
      exact ⟨key, hgain.mem_iff.mpr (List.mem_append_left _ (List.mem_map.mpr ⟨port, hport, rfl⟩))⟩
    · intro key' port hmem
      rcases List.mem_append.mp (hlose.mem_iff.mp hmem) with h | h
      · obtain ⟨q, -, heq⟩ := List.mem_map.mp h
        cases heq
        exact absurd rfl hsg
      · exact hgain.mem_iff.mpr (List.mem_append_right _ h)
  refine ⟨fun b' hb' => ?_, hcleared⟩
  simp only [Option.map_eq_some_iff] at hb'
  obtain ⟨d, hd, rfl⟩ := hb'
  have hperm := entries_set_row (Dict.moveToFront_perm hd)
  constructor
  · exact ⟨(hperm.map _).trans hcleared.ports,
      fun e he => hcleared.moved e (hperm.mem_iff.mp he),
      fun port hp => (hcleared.cleared_mem port hp).imp fun _ h => hperm.mem_iff.mpr h,
      fun key' port h => hperm.mem_iff.mpr (hcleared.kept key' port h)⟩
  · constructor
    · intro sg' hne hne'
      rw [row_set_self, get?_congr_of_perm (Dict.moveToFront_perm hd), hframe sg' hne', ← hb₁,
        row_set_self, Dict.get?_erase_of_ne _ hne]
    · intro key' hne
      rw [Dict.set, Dict.get?_upsert_of_ne _ _ hne, hpool key' hne, ← hb₁, Dict.set,
        Dict.get?_upsert_of_ne _ _ hne]

/-- **The groups of one pool.** The loop runs over a copy of the items; the groups
still to come are as they were in it. -/
theorem clearGroups_cleared (sgId : String) (key : PoolKey) :
    ∀ (es : List (SgKey × List PortId)) (b : Filed), (es.map Prod.fst).Nodup →
      (∀ e ∈ es, e.1 ≠ some [] → (row b key).get? e.1 = some e.2) →
      Cleared b (clearGroups sgId key es b).2.1 (clearGroups sgId key es b).2.2 ∧
        ∀ key', key' ≠ key → (clearGroups sgId key es b).1 = true →
          (clearGroups sgId key es b).2.1.get? key' = b.get? key'
  | [], b, _, _ => ⟨Cleared.refl b, fun _ _ _ => rfl⟩
  | (none, ports) :: es, b, _, _ => ⟨Cleared.refl b, fun _ _ h => nomatch h⟩
  | (some sgs, ports) :: es, b, hnd, hsnap => by
    obtain ⟨hfresh, hnd⟩ := List.nodup_cons.mp hnd
    rw [clearGroups]
    by_cases hin : sgId ∉ sgs
    · rw [if_pos hin]
      exact clearGroups_cleared sgId key es b hnd fun e he => hsnap e (List.mem_cons_of_mem _ he)
    · rw [if_neg hin]
      have hne : some sgs ≠ some [] := by
        rintro ⟨⟩
        exact hin (by simp)
      have hget := hsnap _ List.mem_cons_self hne
      obtain ⟨hdone, habort⟩ := clearGroup_spec hget hne
      rcases hg : clearGroup b key (some sgs) ports with ⟨_ | b', b₂⟩
      · rw [hg] at habort
        exact ⟨habort, fun _ _ h => nomatch h⟩
      · obtain ⟨hcl, hfr⟩ := hdone b' (by rw [hg])
        have ih := clearGroups_cleared sgId key es b' hnd fun e he hne' => by
          rw [hfr.group e.1 (fun heq => hfresh (List.mem_map.mpr ⟨e, he, heq⟩)) hne']
          exact hsnap e (List.mem_cons_of_mem _ he) hne'
        simp only
        exact ⟨hcl.trans ih.1, fun key' hk hok => (ih.2 key' hk hok).trans (hfr.pool key' hk)⟩

/-- **The pools of a network.** -/
theorem clearPools_cleared (sgId netId : String) :
    ∀ (es : List (PoolKey × Dict SgKey (List PortId))) (b : Filed), (es.map Prod.fst).Nodup →
      (∀ e ∈ es, b.get? e.1 = some e.2) →
      Cleared b (clearPools sgId netId es b).1 (clearPools sgId netId es b).2
  | [], b, _, _ => Cleared.refl b
  | (key, d) :: es, b, hnd, hsnap => by
    obtain ⟨hfresh, hnd⟩ := List.nodup_cons.mp hnd
    rw [clearPools]
    by_cases hnet : key.net ≠ netId
    · rw [if_pos hnet]
      exact clearPools_cleared sgId netId es b hnd fun e he => hsnap e (List.mem_cons_of_mem _ he)
    · rw [if_neg hnet]
      have hrow : row b key = d := by rw [row, hsnap _ List.mem_cons_self]; rfl
      have hgroups := clearGroups_cleared sgId key d.items b d.nodup fun e he _ => by
        rw [hrow]
        exact Dict.get?_eq_some.mpr he
      rcases hg : clearGroups sgId key d.items b with ⟨ok, b', cleared⟩
      rw [hg] at hgroups
      cases ok with
      | false => exact hgroups.1
      | true =>
        refine hgroups.1.trans (clearPools_cleared sgId netId es b' hnd fun e he => ?_)
        rw [hgroups.2 e.1 (fun heq => hfresh (List.mem_map.mpr ⟨e, he, heq⟩)) rfl]
        exact hsnap e (List.mem_cons_of_mem _ he)

theorem removeSgFromPools_cleared (p : Pool) (sgId netId : String) :
    Cleared p.available (removeSgFromPools p sgId netId).1.available
        (removeSgFromPools p sgId netId).2 ∧
      (removeSgFromPools p sgId netId).1.recyclable = p.recyclable :=
  ⟨clearPools_cleared sgId netId p.available.items p.available p.available.nodup
    fun _ he => Dict.get?_eq_some.mpr he, rfl⟩

/-! ### Deleting the pools of a network -/

theorem foldl_dropExisting {α : Type} (f : α → PortId) :
    ∀ (l : List α) (p : Pool),
      (l.foldl (fun p e => p.dropExisting (f e)) p).available = p.available ∧
        (l.foldl (fun p e => p.dropExisting (f e)) p).recyclable = p.recyclable
  | [], _ => ⟨rfl, rfl⟩
  | e :: l, p => foldl_dropExisting f l (p.dropExisting (f e))

theorem entries_erase_sublist (b : Filed) (key : PoolKey) :
    (entries (b.erase key)).Sublist (entries b) :=
  List.filter_sublist.flatMap _

/-- Whole pools disappear, or nothing does. -/
theorem deletePools_sublist (cfg : PoolConfig) (netId : String) (removed : PoolKey → Bool) :
    ∀ (es : List (PoolKey × Dict SgKey (List PortId))) (p : Pool),
      (entries (deletePools cfg netId removed es p).available).Sublist (entries p.available) ∧
        (deletePools cfg netId removed es p).recyclable = p.recyclable
  | [], _ => ⟨List.Sublist.refl _, rfl⟩
  | (key, d) :: es, p => by
    obtain ⟨ha, hr⟩ := foldl_dropExisting (fun e : SgKey × PortId => e.2) (rows d) p
    rw [deletePools]
    simp only
    generalize (rows d).foldl (fun p e => p.dropExisting e.2) p = forget at ha hr ⊢
    split
    · exact deletePools_sublist cfg netId removed es p
    · split
      · obtain ⟨hs, hr'⟩ := deletePools_sublist cfg netId removed es
          { forget with available := forget.available.erase key }
        refine ⟨hs.trans ?_, hr'.trans hr⟩
        have he := entries_erase_sublist forget.available key
        rwa [ha] at he ⊢
      · split
        · rw [ha, hr]
          exact ⟨List.Sublist.refl _, rfl⟩
        · exact ⟨List.Sublist.refl _, rfl⟩

/-! ## Steps -/

/-- A port handed to a pod: from the group asked for, or updated in Neutron. -/
structure Delivered (w w' : World) (pod : String) (key : PoolKey) (sgs : List String)
    (extra : List Vif) (sg : SgKey) (port : PortId) : Prop where
  kuryrPorts : ∃ v : Vif, v.id = port ∧
    w'.kuryrPorts = w.kuryrPorts.set pod ⟨key.host, key.project, v :: extra, true⟩
  known : w'.known = w.known ++ ids extra
  sgs : (sg = some (sorted sgs) ∧ w'.sgs = w.sgs) ∨ w'.sgs = setSgs w.sgs [port] (sorted sgs)

/-- What a request for a port can do: file nothing and deliver nothing, lose a port,
or deliver it. -/
inductive GetEffect (w w' : World) (pod : String) (key : PoolKey) (sgs : List String)
    (extra : List Vif) : Prop
  | none (hfiled : (entries w'.pool.available).Perm (entries w.pool.available))
      (hkp : w'.kuryrPorts = w.kuryrPorts) (hsgs : w'.sgs = w.sgs)
  | lost (sg : SgKey) (port : PortId)
      (hfiled : (entries w.pool.available).Perm ((key, sg, port) :: entries w'.pool.available))
      (hkp : w'.kuryrPorts = w.kuryrPorts)
      (hsgs : w'.sgs = w.sgs ∨ w'.sgs = setSgs w.sgs [port] (sorted sgs))
  | delivered (sg : SgKey) (port : PortId)
      (hfiled : (entries w.pool.available).Perm ((key, sg, port) :: entries w'.pool.available))
      (hdel : Delivered w w' pod key sgs extra sg port)

variable {cfg : PoolConfig} {w w' : World}

theorem step_get {pod : String} {key : PoolKey} {sgs : List String} {extra : List Vif}
    {updated : Bool} (h : w.step cfg (.get pod key sgs extra updated) = some w') :
    w.kuryrPorts.get? pod = none ∧ Fresh w.known extra ∧
      w'.pool.recyclable = w.pool.recyclable ∧ (∀ port ∈ w.known, port ∈ w'.known) ∧
      GetEffect w w' pod key sgs extra := by
  rw [World.step] at h
  split at h
  · cases h
  · next hen =>
    rw [not_or, not_not, Bool.not_eq_true, Option.isSome_eq_false_iff,
      Option.isNone_iff_eq_none] at hen
    refine ⟨hen.1, hen.2, ?_⟩
    have hknown : ∀ port ∈ w.known, port ∈ w.known ++ ids extra :=
      fun _ hp => List.mem_append_left _ hp
    unfold getPortFromPool at h
    cases htake : takePort w.pool.available key (sorted sgs) with
    | none =>
      rw [htake] at h
      cases h
      exact ⟨rfl, hknown, .none (entries_set_row (List.Perm.refl _)) rfl rfl⟩
    | some x =>
      obtain ⟨port, upd, available⟩ := x
      obtain ⟨sg, hfiled, hgroup⟩ := takePort_entries htake
      rw [htake] at h
      -- a VIF is filed under its own id
      have hid : ∀ v, w.pool.existing.get? port = some v → v.id = port := fun v hv =>
        w.pool.existing_id _ (Dict.get?_eq_some.mp hv)
      cases upd with
      | true =>
        cases updated with
        | false =>
          cases h
          exact ⟨rfl, fun _ hp => hp, .lost sg port hfiled rfl (.inl rfl)⟩
        | true =>
          cases hv : w.pool.existing.get? port with
          | none =>
            simp only [hv, if_true] at h
            cases h
            exact ⟨rfl, hknown, .lost sg port hfiled rfl (.inr rfl)⟩
          | some v =>
            simp only [hv, if_true] at h
            cases h
            exact ⟨rfl, hknown, .delivered sg port hfiled ⟨⟨v, hid v hv, rfl⟩, rfl, .inr rfl⟩⟩
      | false =>
        cases hv : w.pool.existing.get? port with
        | none =>
          simp only [hv] at h
          cases h
          exact ⟨rfl, hknown, .lost sg port hfiled rfl (.inl rfl)⟩
        | some v =>
          simp only [hv] at h
          cases h
          exact ⟨rfl, hknown,
            .delivered sg port hfiled ⟨⟨v, hid v hv, rfl⟩, rfl, .inl ⟨hgroup rfl, rfl⟩⟩⟩

theorem step_populate {key : PoolKey} {sgs : List String} {vifs : List Vif}
    (h : w.step cfg (.populate key sgs vifs) = some w') :
    Fresh w.known vifs ∧
      w' = { w with
        pool := populatePool w.pool key (sorted sgs) vifs
        sgs := setSgs w.sgs (ids vifs) (sorted sgs)
        known := w.known ++ ids vifs } := by
  rw [World.step] at h
  split at h
  · cases h
  · next hen =>
    rw [not_or, not_not] at hen
    cases h
    exact ⟨hen.1, rfl⟩

theorem step_finalize {pod : String} {removed : Bool}
    (h : w.step cfg (.finalize pod removed) = some w') :
    ∃ kp, w.kuryrPorts.get? pod = some kp ∧
      w' = { w with
        pool := kp.vifs.foldl (fun p v => releaseVif p kp.host kp.project v) w.pool
        kuryrPorts := if removed then w.kuryrPorts.erase pod
          else w.kuryrPorts.set pod { kp with live := false } } := by
  rw [World.step] at h
  cases hkp : w.kuryrPorts.get? pod with
  | none =>
    rw [hkp] at h
    cases h
  | some kp =>
    rw [hkp] at h
    cases h
    exact ⟨kp, rfl, rfl⟩

theorem step_updateVifSgs {pod : String} {sgs : List String}
    (h : w.step cfg (.updateVifSgs pod sgs) = some w') :
    ∃ kp, w.kuryrPorts.get? pod = some kp ∧
      w' = { w with sgs := setSgs w.sgs (kp.vifs.head?.map Vif.id).toList sgs } := by
  rw [World.step] at h
  cases hkp : w.kuryrPorts.get? pod with
  | none =>
    rw [hkp] at h
    cases h
  | some kp =>
    rw [hkp] at h
    cases h
    exact ⟨kp, rfl, rfl⟩

/-- One trigger: some waiting ports are filed under the security groups Neutron
reports, each once, and wait no longer. -/
theorem trigger_entries (cfg : PoolConfig) (out : Outcome) (listed : PortId → Bool)
    (neutronSgs : PortId → List String) (p : Pool) :
    ∃ moved : List (PortId × PoolKey), ∃ sgCurrent : PortId → SgKey,
      (moved.map Prod.fst).Nodup ∧ (∀ e ∈ moved, e.1 ∈ p.recyclable.keys) ∧
      (∀ port l, sgCurrent port = some l → l = sorted (neutronSgs port)) ∧
      (entries (triggerReturnToPool cfg out listed neutronSgs p).pool.available).Perm
        (moved.map (fun e => (e.2, sgCurrent e.1, e.1)) ++ entries p.available) ∧
      ∀ port ∈ (triggerReturnToPool cfg out listed neutronSgs p).pool.recyclable.keys,
        port ∈ p.recyclable.keys ∧ port ∉ moved.map Prod.fst := by
  unfold triggerReturnToPool
  obtain ⟨moved, hsub, hperm, hrecy⟩ := returnPorts_entries cfg out
    (fun port => if ¬ cfg.portDebug ∧ listed port then some (sorted (neutronSgs port)) else none)
    p.recyclable.items p p.recyclable.nodup
  refine ⟨moved, fun port =>
    if ¬ cfg.portDebug ∧ listed port then some (sorted (neutronSgs port)) else none,
    (hsub.map Prod.fst).nodup p.recyclable.nodup, fun e he => ?_, fun port l hl => ?_, hperm, hrecy⟩
  · exact List.mem_map_of_mem (hsub.subset he)
  · simp only at hl
    split at hl
    · cases hl
      rfl
    · cases hl

/-- Deleting a network: the trigger, then some of the filed ports disappear. -/
theorem deleteNetworkPools_spec (cfg : PoolConfig) (out : Outcome) (listed : PortId → Bool)
    (removed : PoolKey → Bool) (neutronSgs : PortId → List String) (netId : String) (p : Pool) :
    let q := (triggerReturnToPool cfg out listed neutronSgs p).pool
    let p' := deleteNetworkPools cfg out listed removed neutronSgs netId p
    (entries p'.available).Sublist (entries q.available) ∧ p'.recyclable = q.recyclable := by
  unfold deleteNetworkPools
  cases triggerReturnToPool cfg out listed neutronSgs p with
  | raised q => exact ⟨List.Sublist.refl _, rfl⟩
  | next q => exact deletePools_sublist cfg netId removed _ q

/-! ## The common invariant -/

/-- A port is filed at most once, no filed port waits for recycling, and every port
id in sight is known. -/
structure Sound (w : World) : Prop where
  nodup : w.pool.ports.Nodup
  waiting : ∀ port ∈ w.pool.ports, port ∉ w.pool.recyclable.keys
  ports_known : ∀ port ∈ w.pool.ports, port ∈ w.known
  waiting_known : ∀ port ∈ w.pool.recyclable.keys, port ∈ w.known
  inUse_known : ∀ port ∈ w.inUse, port ∈ w.known

/-- A finalized KuryrPort refers to no filed port. -/
def NotFiled (w : World) : Action → Prop
  | .finalize pod _ => ∀ kp, w.kuryrPorts.get? pod = some kp → ∀ port ∈ ids kp.vifs,
      port ∉ w.pool.ports
  | _ => True

theorem mem_inUse {w : World} {port : PortId} :
    port ∈ w.inUse ↔ ∃ pod kp, w.kuryrPorts.get? pod = some kp ∧ port ∈ ids kp.vifs := by
  simp only [World.inUse, List.mem_flatMap, Prod.exists, Dict.get?_eq_some]

theorem mem_inUse_set {w : World} {kps : Dict String KuryrPort} {pod : String} {kp : KuryrPort}
    {port : PortId} (hkps : w.kuryrPorts = kps.set pod kp) (h : port ∈ w.inUse) :
    port ∈ ids kp.vifs ∨ ∃ pod' kp', pod' ≠ pod ∧ kps.get? pod' = some kp' ∧
      port ∈ ids kp'.vifs := by
  obtain ⟨pod', kp', hget, hp⟩ := mem_inUse.mp h
  rw [hkps] at hget
  by_cases hpod : pod' = pod
  · subst hpod
    rw [Dict.set, Dict.get?_upsert_self] at hget
    cases hget
    exact .inl hp
  · rw [Dict.set, Dict.get?_upsert_of_ne _ _ hpod] at hget
    exact .inr ⟨pod', kp', hpod, hget, hp⟩

theorem ports_perm {p q : Pool} {es : List (PoolKey × SgKey × PortId)}
    (h : (entries p.available).Perm (es ++ entries q.available)) :
    p.ports.Perm (es.map (·.2.2) ++ q.ports) := by
  have hm := h.map (·.2.2)
  rwa [List.map_append] at hm

theorem ports_perm_cons {p q : Pool} {key : PoolKey} {sg : SgKey} {port : PortId}
    (h : (entries p.available).Perm ((key, sg, port) :: entries q.available)) :
    p.ports.Perm (port :: q.ports) := by
  have hp : (entries p.available).Perm ([(key, sg, port)] ++ entries q.available) := h
  exact ports_perm hp

/-- Filed ports may come from new or waiting ones. -/
theorem Sound.file {w w' : World} (hs : Sound w) {es : List (PoolKey × SgKey × PortId)}
    (hfiled : (entries w'.pool.available).Perm (es ++ entries w.pool.available))
    (hnew : (es.map (·.2.2)).Nodup)
    (hes : ∀ e ∈ es, e.2.2 ∉ w.pool.ports ∧ e.2.2 ∉ w'.pool.recyclable.keys ∧ e.2.2 ∈ w'.known)
    (hrecy : ∀ port ∈ w'.pool.recyclable.keys, port ∈ w.pool.recyclable.keys)
    (hknown : ∀ port ∈ w.known, port ∈ w'.known)
    (huse : ∀ port ∈ w'.inUse, port ∈ w'.known) : Sound w' := by
  have hperm := ports_perm hfiled
  have hmem : ∀ port ∈ w'.pool.ports, (∃ e ∈ es, e.2.2 = port) ∨ port ∈ w.pool.ports := by
    intro port hp
    rcases List.mem_append.mp (hperm.mem_iff.mp hp) with h | h
    · exact .inl (List.mem_map.mp h)
    · exact .inr h
  constructor
  · refine hperm.nodup_iff.mpr (List.nodup_append'.mpr ⟨hnew, hs.nodup, fun port h h' => ?_⟩)
    obtain ⟨e, he, rfl⟩ := List.mem_map.mp h
    exact (hes e he).1 h'
  · intro port hp
    rcases hmem port hp with ⟨e, he, rfl⟩ | hp
    · exact (hes e he).2.1
    · exact fun h => hs.waiting port hp (hrecy port h)
  · intro port hp
    rcases hmem port hp with ⟨e, he, rfl⟩ | hp
    · exact (hes e he).2.2
    · exact hknown port (hs.ports_known port hp)
  · exact fun port hp => hknown port (hs.waiting_known port (hrecy port hp))
  · exact huse

/-- Filed ports may disappear. -/
theorem Sound.unfile {w w' : World} (hs : Sound w)
    (hnodup : w.pool.ports.Nodup → w'.pool.ports.Nodup)
    (hsub : ∀ port ∈ w'.pool.ports, port ∈ w.pool.ports)
    (hrecy : w'.pool.recyclable = w.pool.recyclable)
    (hknown : ∀ port ∈ w.known, port ∈ w'.known)
    (huse : ∀ port ∈ w'.inUse, port ∈ w'.known) : Sound w' where
  nodup := hnodup hs.nodup
  waiting := fun port hp => by
    rw [hrecy]
    exact hs.waiting port (hsub port hp)
  ports_known := fun port hp => hknown port (hs.ports_known port (hsub port hp))
  waiting_known := fun port hp => by
    rw [hrecy] at hp
    exact hknown port (hs.waiting_known port hp)
  inUse_known := huse

/-- One port is taken. -/
theorem Sound.take {w w' : World} (hs : Sound w) {key : PoolKey} {sg : SgKey} {port : PortId}
    (hfiled : (entries w.pool.available).Perm ((key, sg, port) :: entries w'.pool.available))
    (hrecy : w'.pool.recyclable = w.pool.recyclable)
    (hknown : ∀ port ∈ w.known, port ∈ w'.known)
    (huse : ∀ port ∈ w'.inUse, port ∈ w'.known) :
    Sound w' ∧ port ∈ w.pool.ports ∧ port ∉ w'.pool.ports ∧
      ∀ q ∈ w'.pool.ports, q ∈ w.pool.ports := by
  have hperm := ports_perm_cons hfiled
  have hnd := List.nodup_cons.mp (hperm.nodup_iff.mp hs.nodup)
  have hsub : ∀ q ∈ w'.pool.ports, q ∈ w.pool.ports :=
    fun q hq => hperm.mem_iff.mpr (List.mem_cons_of_mem _ hq)
  exact ⟨hs.unfile (fun _ => hnd.2) hsub hrecy hknown huse,
    hperm.mem_iff.mpr List.mem_cons_self, hnd.1, hsub⟩

/-- One trigger keeps the invariant. -/
theorem Sound.trigger {w w' : World} (hs : Sound w) {out : Outcome} {listed : PortId → Bool}
    (hpool : w'.pool = (triggerReturnToPool cfg out listed w.sgs w.pool).pool)
    (hkp : w'.kuryrPorts = w.kuryrPorts) (hknown : w'.known = w.known) : Sound w' := by
  obtain ⟨moved, sgCurrent, hnd, hwait, -, hfiled, hrecy⟩ :=
    trigger_entries cfg out listed w.sgs w.pool
  have hinuse : w'.inUse = w.inUse := by rw [World.inUse, World.inUse, hkp]
  refine hs.file (by rw [hpool]; exact hfiled) ?_ ?_ ?_ ?_ ?_
  · rw [List.map_map]
    exact hnd
  · intro e he
    obtain ⟨m, hm, rfl⟩ := List.mem_map.mp he
    refine ⟨fun h => hs.waiting _ h (hwait m hm), ?_, ?_⟩
    · rw [hpool]
      exact fun h => (hrecy _ h).2 (List.mem_map_of_mem hm)
    · rw [hknown]
      exact hs.waiting_known _ (hwait m hm)
  · rw [hpool]
    exact fun port hp => (hrecy port hp).1
  · rw [hknown]
    exact fun port hp => hp
  · rw [hinuse, hknown]
    exact hs.inUse_known

/-- A request for a port. -/
theorem Sound.get (hs : Sound w) {pod : String} {key : PoolKey} {sgs : List String}
    {extra : List Vif} {updated : Bool}
    (h : w.step cfg (.get pod key sgs extra updated) = some w') :
    Sound w' := by
  obtain ⟨-, -, hrecy, hknown, heff⟩ := step_get h
  -- in the first two cases no KuryrPort changes
  have hsame : w'.kuryrPorts = w.kuryrPorts → ∀ port ∈ w'.inUse, port ∈ w'.known := by
    intro hkp port hp
    refine hknown port (hs.inUse_known port ?_)
    rwa [World.inUse, hkp] at hp
  cases heff with
  | none hfiled hkp hsgs =>
    have hnil : (entries w'.pool.available).Perm ([] ++ entries w.pool.available) := hfiled
    have hperm := ports_perm hnil
    exact hs.unfile (fun hnd => hperm.nodup_iff.mpr hnd) (fun _ hp => hperm.mem_iff.mp hp)
      hrecy hknown (hsame hkp)
  | lost sg port hfiled hkp hsgs => exact (hs.take hfiled hrecy hknown (hsame hkp)).1
  | delivered sg port hfiled hdel =>
    refine (hs.take hfiled hrecy hknown fun q hq => ?_).1
    have hport : port ∈ w.known := by
      refine hs.ports_known port ?_
      exact (ports_perm_cons hfiled).mem_iff.mpr List.mem_cons_self
    -- the new KuryrPort refers to the port that was filed, and to fresh ones
    obtain ⟨v, rfl, hkp⟩ := hdel.kuryrPorts
    rcases mem_inUse_set hkp hq with hq | ⟨pod', kp', -, hget, hq⟩
    · rw [hdel.known]
      rcases List.mem_cons.mp hq with rfl | hq
      · exact List.mem_append_left _ hport
      · exact List.mem_append_right _ hq
    · exact hknown q (hs.inUse_known q (mem_inUse.mpr ⟨pod', kp', hget, hq⟩))

/-- Fresh ports are filed. -/
theorem Sound.populate (hs : Sound w) {key : PoolKey} {sgs : List String} {vifs : List Vif}
    (h : w.step cfg (.populate key sgs vifs) = some w') : Sound w' := by
  obtain ⟨hfresh, rfl⟩ := step_populate h
  obtain ⟨hfiled, hrecy⟩ := populatePool_entries w.pool key (sorted sgs) vifs
  refine hs.file hfiled ?_ ?_ ?_ ?_ ?_
  · rw [List.map_map]
    have hid : (ids vifs).map ((fun e : PoolKey × SgKey × PortId => e.2.2) ∘
        fun port => (key, some (sorted sgs), port)) = ids vifs := List.map_id'' (fun _ => rfl) _
    rw [hid]
    exact hfresh.1
  · intro e he
    obtain ⟨port, hport, rfl⟩ := List.mem_map.mp he
    obtain ⟨v, hv, rfl⟩ := List.mem_map.mp hport
    refine ⟨fun hp => hfresh.2 v hv (hs.ports_known _ hp), ?_, List.mem_append_right _ hport⟩
    rw [hrecy]
    exact fun hp => hfresh.2 v hv (hs.waiting_known _ hp)
  · rw [hrecy]
    exact fun _ hp => hp
  · exact fun _ hp => List.mem_append_left _ hp
  · exact fun port hp => List.mem_append_left _ (hs.inUse_known port hp)

/-- The ports of a KuryrPort wait for recycling. -/
theorem Sound.finalize (hs : Sound w) {pod : String} {removed : Bool}
    (hok : NotFiled w (.finalize pod removed))
    (h : w.step cfg (.finalize pod removed) = some w') : Sound w' := by
  obtain ⟨kp, hkp, rfl⟩ := step_finalize h
  obtain ⟨havail, hrecy⟩ := foldl_release kp.host kp.project kp.vifs w.pool
  have hports : Pool.ports (kp.vifs.foldl (fun p v => releaseVif p kp.host kp.project v) w.pool)
      = w.pool.ports := by rw [Pool.ports, havail]; rfl
  have hkpk : ∀ port ∈ ids kp.vifs, port ∈ w.known := fun port hp =>
    hs.inUse_known port (mem_inUse.mpr ⟨pod, kp, hkp, hp⟩)
  constructor
  · show Pool.ports _ |>.Nodup
    rw [hports]
    exact hs.nodup
  · intro port hp hw
    rw [hports] at hp
    rcases (hrecy port).mp hw with hw | hw
    · exact hok kp hkp port hw hp
    · exact hs.waiting port hp hw
  · intro port hp
    rw [hports] at hp
    exact hs.ports_known port hp
  · intro port hp
    rcases (hrecy port).mp hp with hp | hp
    · exact hkpk port hp
    · exact hs.waiting_known port hp
  · intro port huse
    obtain ⟨pod', kp', hget, hp⟩ := mem_inUse.mp huse
    cases removed with
    | true =>
      have hget' := Dict.get?_eq_some.mp hget
      have hmem := (Dict.mem_items_erase.mp hget').1
      exact hs.inUse_known port (mem_inUse.mpr ⟨pod', kp', Dict.get?_eq_some.mpr hmem, hp⟩)
    | false =>
      -- the KuryrPort stays, with the same ports
      rcases Dict.mem_items_upsert.mp (Dict.get?_eq_some.mp hget) with heq | ⟨hmem, -⟩
      · cases heq
        exact hkpk port hp
      · exact hs.inUse_known port (mem_inUse.mpr ⟨pod', kp', Dict.get?_eq_some.mpr hmem, hp⟩)

/-- **Every step that finalizes no filed port keeps the invariant.** -/
theorem step_sound (hs : Sound w) {a : Action} (hok : NotFiled w a)
    (h : w.step cfg a = some w') : Sound w' := by
  cases a with
  | get pod key sgs extra updated => exact hs.get h
  | populate key sgs vifs => exact hs.populate h
  | finalize pod removed => exact hs.finalize hok h
  | trigger out listed =>
    cases h
    exact hs.trigger rfl rfl rfl
  | removeSg sgId netId =>
    obtain ⟨hcl, hrecy⟩ := removeSgFromPools_cleared w.pool sgId netId
    cases h
    exact hs.unfile (fun hnd => hcl.ports.nodup_iff.mpr hnd) (fun _ hp => hcl.ports.mem_iff.mp hp)
      hrecy (fun _ hp => hp) hs.inUse_known
  | deleteNetwork netId out listed removed =>
    -- the pools are deleted after one more trigger
    cases h
    obtain ⟨hsub, hrecy⟩ := deleteNetworkPools_spec cfg out listed removed w.sgs netId w.pool
    have hmid : Sound { w with pool := (triggerReturnToPool cfg out listed w.sgs w.pool).pool } :=
      hs.trigger rfl rfl rfl
    have hports := hsub.map fun e : PoolKey × SgKey × PortId => e.2.2
    exact hmid.unfile (fun hnd => hports.nodup hnd) (fun _ hp => hports.subset hp) hrecy
      (fun _ hp => hp) hs.inUse_known
  | updateVifSgs pod sgs =>
    obtain ⟨kp, -, rfl⟩ := step_updateVifSgs h
    exact ⟨hs.nodup, hs.waiting, hs.ports_known, hs.waiting_known, hs.inUse_known⟩

/-! ## The initial states -/

theorem foldl_recover :
    ∀ (es : List (PoolKey × NeutronPort)) (p : Pool),
      let p' := es.foldl (fun p e => recover e.1 p e.2) p
      (entries p'.available).Perm
          (es.map (fun e => (e.1, some (sorted e.2.sgs), e.2.id)) ++ entries p.available) ∧
        p'.recyclable = p.recyclable
  | [], _ => ⟨List.Perm.refl _, rfl⟩
  | e :: es, p => by
    obtain ⟨hfiled, hrecy⟩ := foldl_recover es (recover e.1 p e.2)
    refine ⟨hfiled.trans ?_, hrecy⟩
    refine ((entries_push p.available e.1 (some (sorted e.2.sgs)) e.2.id).append_left _).trans ?_
    exact List.perm_middle

theorem syncPools_entries (cfg : PoolConfig) (n : NeutronPorts) (inUse : List PortId) :
    (entries (syncPools cfg n inUse).available).Perm
        ((recovered cfg n inUse).map fun e => (e.1, some (sorted e.2.sgs), e.2.id)) ∧
      (syncPools cfg n inUse).recyclable = Dict.empty := by
  obtain ⟨hfiled, hrecy⟩ := foldl_recover (recovered cfg n inUse) Pool.empty
  refine ⟨hfiled.trans ?_, hrecy⟩
  have hnil : entries Pool.empty.available = [] := rfl
  rw [hnil, List.append_nil]

theorem mem_availableSubports {n : NeutronPorts} {inUse : List PortId} {port : NeutronPort}
    (h : port ∈ availableSubports n inUse) : port ∈ n.ports ∧ port.id ∉ inUse := by
  obtain ⟨hmem, hcond⟩ := List.mem_filter.mp h
  simp only [Bool.and_eq_true, Bool.not_eq_true', List.contains_eq_mem, decide_eq_false_iff_not]
    at hcond
  exact ⟨hmem, hcond.1.2⟩

/-- A recovered port is a Neutron port; unless it is recovered by its name, no
KuryrPort refers to it. -/
theorem mem_recovered {cfg : PoolConfig} {n : NeutronPorts} {inUse : List PortId}
    {e : PoolKey × NeutronPort} (h : e ∈ recovered cfg n inUse) :
    e.2 ∈ n.ports ∧
      ((cfg.portDebug = true ∧ e.2.name = kuryrPortName) ∨ e.2.id ∉ inUse) := by
  unfold recovered at h
  split at h
  · obtain ⟨port, hport, rfl⟩ := List.mem_map.mp h
    obtain ⟨hmem, hcond⟩ := List.mem_filter.mp hport
    refine ⟨hmem, ?_⟩
    simp only [Bool.and_eq_true] at hcond
    have hsel := hcond.1.1.2
    cases hd : cfg.portDebug with
    | true =>
      rw [hd] at hsel
      exact .inl ⟨rfl, by simpa using hsel⟩
    | false =>
      rw [hd] at hsel
      exact .inr (by simpa using hsel)
  · obtain ⟨x, hx, rfl⟩ := List.mem_map.mp h
    obtain ⟨parent, -, hx⟩ := List.mem_flatMap.mp hx
    obtain ⟨id, -, hx⟩ := List.mem_filterMap.mp hx
    simp only [Option.map_eq_some_iff] at hx
    obtain ⟨port, hfind, rfl⟩ := hx
    obtain ⟨hmem, huse⟩ := mem_availableSubports (List.mem_of_find?_eq_some hfind)
    exact ⟨hmem, .inr huse⟩

/-- Each port is recovered once: Neutron lists it once, and it is in one trunk. -/
theorem recovered_nodup (cfg : PoolConfig) (n : NeutronPorts) (inUse : List PortId) :
    ((recovered cfg n inUse).map fun e => e.2.id).Nodup := by
  unfold recovered
  split
  · rw [List.map_map]
    exact n.nodup.sublist (List.filter_sublist.map _)
  · rw [List.map_map]
    have hfound : ∀ (ip : String) (subports : List PortId),
        ((subports.filterMap fun id => ((availableSubports n inUse).find? (·.id = id)).map
          (ip, ·)).map
          fun e => e.2.id).Sublist subports := by
      intro ip subports
      induction subports with
      | nil => exact List.Sublist.refl _
      | cons id subports ih =>
        rw [List.filterMap_cons]
        cases hf : (availableSubports n inUse).find? (·.id = id) with
        | none => exact ih.cons _
        | some port =>
          have hid : port.id = id := by simpa using List.find?_some hf
          rw [Option.map_some, List.map_cons, hid]
          exact ih.cons_cons _
    refine n.trunks_nodup.sublist ?_
    have hall : ∀ ports : List NeutronPort,
        ((ports.flatMap fun parent => (parent.trunk.getD []).filterMap fun id =>
          ((availableSubports n inUse).find? (·.id = id)).map (parent.ip, ·)).map
            fun e => e.2.id).Sublist ((ports.filterMap NeutronPort.trunk).flatten) := by
      intro ports
      induction ports with
      | nil => exact List.Sublist.refl _
      | cons parent ports ih =>
        rw [List.flatMap_cons, List.map_append, List.filterMap_cons]
        cases ht : parent.trunk with
        | none => exact ih
        | some subports => exact (hfound parent.ip subports).append ih
    exact (hall _).trans (List.Sublist.flatten (List.filter_sublist.filterMap _))

theorem synced_ports {cfg : PoolConfig} {n : NeutronPorts} {w : World} (h : Synced cfg n w) :
    w.pool.ports.Perm ((recovered cfg n w.inUse).map fun e => e.2.id) := by
  have hm := (syncPools_entries cfg n w.inUse).1.map (·.2.2)
  rw [List.map_map] at hm
  rw [h.pool]
  exact hm

theorem synced_sound {cfg : PoolConfig} {n : NeutronPorts} {w : World} (h : Synced cfg n w) :
    Sound w := by
  have hrecy : ∀ port, port ∉ w.pool.recyclable.keys := by
    intro port
    rw [h.pool, (syncPools_entries cfg n w.inUse).2]
    simp [Dict.keys]
  constructor
  · exact (synced_ports h).nodup_iff.mpr (recovered_nodup cfg n w.inUse)
  · exact fun port _ => hrecy port
  · intro port hp
    obtain ⟨e, he, rfl⟩ := List.mem_map.mp ((synced_ports h).mem_iff.mp hp)
    exact h.known e.2 (mem_recovered he).1
  · exact fun port hp => absurd hp (hrecy port)
  · exact h.inUse_known

end KuryrKubernetes
