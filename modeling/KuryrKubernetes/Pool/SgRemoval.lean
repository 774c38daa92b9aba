import KuryrKubernetes.Pool.Conservation
import KuryrKubernetes.Pool.Exclusive

/-!
# Moving ports out of the groups of a security group

`remove_sg_from_pools` empties every group of a network's pools whose key has the security
group and files the ports under `()`. It iterates over copies of the dictionaries it
changes, and it may raise: a `TypeError` for the key `None` that recycling files ports
under, a `KeyError` when it moves the group `()` to the front and there is none.

- `holds`, `movedPorts`: the groups that are emptied, and their ports in order.
- `RowCleared`: the groups of a pool before and after, key by key.
- `Passable`: the loop over the groups of a pool does not raise.
- `clearGroups_spec`, `clearPools_spec`: one pool, and all pools.
-/

namespace KuryrKubernetes

open Dicts Transition

/-- The groups of one pool. -/
abbrev Groups := Dict SgKey (List PortId)

/-- `sg_id in sg_key`, for a key that is a tuple. -/
def holds (sgId : String) : SgKey → Bool
  | none => false
  | some sgs => sgId ∈ sgs

/-- The ports of the groups that have the security group. -/
def movedPorts (sgId : String) (es : List (SgKey × List PortId)) : List PortId :=
  (es.filter fun e => holds sgId e.1).flatMap Prod.snd

theorem holds_ne_nil {sgId : String} {sg : SgKey} (h : holds sgId sg = true) : sg ≠ some [] := by
  rintro rfl
  simp [holds] at h

theorem movedPorts_cons_of_pos {sgId : String} {sg : SgKey} {ports : List PortId}
    (h : holds sgId sg = true) (es : List (SgKey × List PortId)) :
    movedPorts sgId ((sg, ports) :: es) = ports ++ movedPorts sgId es := by
  simp [movedPorts, h]

theorem movedPorts_cons_of_neg {sgId : String} {sg : SgKey} {ports : List PortId}
    (h : ¬ holds sgId sg = true) (es : List (SgKey × List PortId)) :
    movedPorts sgId ((sg, ports) :: es) = movedPorts sgId es := by
  simp [movedPorts, h]

/-! ## One group -/

/-- The ports pushed to a group are behind those it has. -/
theorem foldl_push_self (key : PoolKey) (ports : List PortId) (b : Filed) :
    (row (ports.foldl (fun b port => push b key (some []) port) b) key).get? (some []) =
      if ports = [] then (row b key).get? (some [])
      else some (((row b key).get? (some [])).getD [] ++ ports) := by
  induction ports generalizing b with
  | nil => rfl
  | cons port ports ih =>
    have hpush : (row (push b key (some []) port) key).get? (some []) =
        some (((row b key).get? (some [])).getD [] ++ [port]) := by
      rw [push, row_set_self, append, Dict.get?_upsert_self]
    rw [List.foldl_cons, ih, hpush, if_neg (List.cons_ne_nil _ _)]
    split
    · next h => rw [h]
    · rw [Option.getD_some, List.append_assoc]
      rfl

/-- What emptying one group does, key by key. -/
structure GroupCleared (key : PoolKey) (sg : SgKey) (ports : List PortId) (b b' : Filed) :
    Prop where
  group : ∀ sg' ≠ some [], (row b' key).get? sg' = if sg' = sg then none else (row b key).get? sg'
  default : (row b' key).get? (some []) = some (((row b key).get? (some [])).getD [] ++ ports)
  pool : ∀ key' ≠ key, b'.get? key' = b.get? key'

/-- **Emptying a group** raises where it has no port and there is no `()` to move. -/
theorem clearGroup_lookup (b : Filed) (key : PoolKey) {sg : SgKey} (ports : List PortId)
    (hsg : sg ≠ some []) :
    ((clearGroup b key sg ports).1 = none ↔ ports = [] ∧ some [] ∉ (row b key).keys) ∧
      ∀ b', (clearGroup b key sg ports).1 = some b' → GroupCleared key sg ports b b' := by
  obtain ⟨hframe, hpool⟩ := foldl_push_frame key ports (b.set key ((row b key).erase sg))
  have hself := foldl_push_self key ports (b.set key ((row b key).erase sg))
  rw [row_set_self, Dict.get?_erase_of_ne _ hsg.symm] at hself
  unfold clearGroup
  simp only
  generalize ports.foldl (fun b port => push b key (some []) port)
    (b.set key ((row b key).erase sg)) = b₂ at hframe hpool hself ⊢
  constructor
  · have hmove : (row b₂ key).moveToFront (some []) = none ↔
      (row b₂ key).get? (some []) = none := by
      unfold Dict.moveToFront
      split
      · next h => simp [h]
      · next v h => simp [h]
    rw [Option.map_eq_none_iff, hmove, hself, ← Dict.get?_eq_none]
    by_cases hports : ports = []
    · simp [hports]
    · simp [hports]
  · intro b' hb'
    obtain ⟨d, hd, rfl⟩ := Option.map_eq_some_iff.mp hb'
    have hlookup := get?_congr_of_perm (Dict.moveToFront_perm hd)
    refine ⟨fun sg' hsg' => ?_, ?_, fun key' hkey => ?_⟩
    · rw [row_set_self, hlookup, hframe sg' hsg', row_set_self]
      split
      · next h => rw [h, Dict.get?_erase_self]
      · next h => rw [Dict.get?_erase_of_ne _ h]
    · -- `()` is there, with or without new ports
      have hsome : (row b₂ key).get? (some []) ≠ none := by
        intro hnone
        unfold Dict.moveToFront at hd
        split at hd
        · cases hd
        · next v h => rw [hnone] at h; cases h
      rw [row_set_self, hlookup, hself]
      rw [hself] at hsome
      split
      · next h =>
        rw [if_pos h] at hsome
        obtain ⟨v, hv⟩ := Option.ne_none_iff_exists'.mp hsome
        rw [hv, h]
        simp
      · rfl
    · show (b₂.upsert key _).get? key' = _
      rw [Dict.get?_upsert_of_ne _ _ hkey, hpool key' hkey]
      exact Dict.get?_upsert_of_ne _ _ hkey

/-! ## One pool -/

/-- The loop over the groups does not raise: no key is `None`, and there is a group `()` or
the first group to be emptied has a port. -/
def Passable (sgId : String) (es : List (SgKey × List PortId)) (groups : Groups) : Prop :=
  none ∉ es.map Prod.fst ∧
    (some [] ∈ groups.keys ∨ ∀ e ∈ es.find? fun e => holds sgId e.1, e.2 ≠ [])

instance (sgId : String) (es : List (SgKey × List PortId)) (groups : Groups) :
    Decidable (Passable sgId es groups) := inferInstanceAs (Decidable (_ ∧ _))

/-- The groups before and after the loop over `es`. -/
structure RowCleared (sgId : String) (es : List (SgKey × List PortId)) (d d' : Groups) : Prop where
  group : ∀ sg ≠ some [], d'.get? sg =
    if holds sgId sg ∧ sg ∈ es.map Prod.fst then none else d.get? sg
  default : (d'.get? (some [])).getD [] = (d.get? (some [])).getD [] ++ movedPorts sgId es

theorem RowCleared.refl (sgId : String) (d : Groups) : RowCleared sgId [] d d where
  group := fun sg _ => by simp
  default := by simp [movedPorts]

theorem RowCleared.skip {sgId : String} {sg : SgKey} {ports : List PortId}
    {es : List (SgKey × List PortId)} {d d' : Groups} (hsg : ¬ holds sgId sg = true)
    (h : RowCleared sgId es d d') : RowCleared sgId ((sg, ports) :: es) d d' where
  group := by
    intro sg' hne
    rw [h.group sg' hne]
    by_cases heq : sg' = sg
    · subst heq
      simp [hsg]
    · have hmem : sg' ∈ ((sg, ports) :: es).map Prod.fst ↔ sg' ∈ es.map Prod.fst := by
        rw [List.map_cons, List.mem_cons, or_iff_right heq]
      simp only [hmem]
  default := by rw [h.default, movedPorts_cons_of_neg hsg]

theorem RowCleared.clear {sgId : String} {key : PoolKey} {sg : SgKey} {ports : List PortId}
    {es : List (SgKey × List PortId)} {b b' : Filed} {d' : Groups} (hsg : holds sgId sg = true)
    (hstep : GroupCleared key sg ports b b') (h : RowCleared sgId es (row b' key) d') :
    RowCleared sgId ((sg, ports) :: es) (row b key) d' where
  group := by
    intro sg' hne
    rw [h.group sg' hne, hstep.group sg' hne]
    by_cases heq : sg' = sg
    · subst heq
      simp [hsg]
    · have hmem : sg' ∈ ((sg, ports) :: es).map Prod.fst ↔ sg' ∈ es.map Prod.fst := by
        rw [List.map_cons, List.mem_cons, or_iff_right heq]
      simp only [hmem, if_neg heq]
  default := by
    rw [h.default, hstep.default, movedPorts_cons_of_pos hsg, Option.getD_some, List.append_assoc]

/-- **The loop over the groups of a pool**: when it raises, and what it does when it does
not. -/
theorem clearGroups_spec (sgId : String) (key : PoolKey) (es : List (SgKey × List PortId))
    (b : Filed) :
    ((clearGroups sgId key es b).1 = true ↔ Passable sgId es (row b key)) ∧
      ((clearGroups sgId key es b).1 = true →
        RowCleared sgId es (row b key) (row (clearGroups sgId key es b).2.1 key) ∧
        (clearGroups sgId key es b).2.2 = movedPorts sgId es ∧
        ∀ key' ≠ key, (clearGroups sgId key es b).2.1.get? key' = b.get? key') := by
  induction es generalizing b with
  | nil => exact ⟨by simp [clearGroups, Passable], fun _ => ⟨.refl _ _, rfl, fun _ _ => rfl⟩⟩
  | cons e es ih =>
    obtain ⟨sg, ports⟩ := e
    cases sg with
    | none => simp [clearGroups, Passable]
    | some sgs =>
      unfold clearGroups
      by_cases hin : sgId ∉ sgs
      · have hnot : ¬ holds sgId (some sgs) = true := by simpa [holds] using hin
        have hpass : Passable sgId ((some sgs, ports) :: es) (row b key) ↔
            Passable sgId es (row b key) := by
          simp [Passable, hnot]
        obtain ⟨hiff, hdone⟩ := ih b
        rw [if_pos hin, hpass]
        refine ⟨hiff, fun hok => ?_⟩
        obtain ⟨hrow, hmoved, hframe⟩ := hdone hok
        exact ⟨hrow.skip hnot, hmoved.trans (movedPorts_cons_of_neg hnot es).symm, hframe⟩
      · have hholds : holds sgId (some sgs) = true := by simpa [holds] using hin
        rw [if_neg hin]
        obtain ⟨hraise, hclear⟩ := clearGroup_lookup b key ports (holds_ne_nil hholds)
        have hpass : Passable sgId ((some sgs, ports) :: es) (row b key) ↔
            none ∉ es.map Prod.fst ∧ ¬ (ports = [] ∧ some [] ∉ (row b key).keys) := by
          simp [Passable, hholds]
          tauto
        rcases hgroup : clearGroup b key (some sgs) ports with ⟨_ | b', b₂⟩
        · rw [hgroup] at hraise
          have hempty := hraise.mp rfl
          rw [hpass]
          simp [hempty]
        · rw [hgroup] at hraise hclear
          have hstep := hclear b' rfl
          have hfull : ¬ (ports = [] ∧ some [] ∉ (row b key).keys) := by
            intro h
            cases hraise.mpr h
          -- from here on there is a group `()`
          have hdefault : some [] ∈ (row b' key).keys := by
            refine not_not.mp fun hnot => ?_
            rw [← Dict.get?_eq_none, hstep.default] at hnot
            cases hnot
          obtain ⟨hiff, hdone⟩ := ih b'
          have hpass' : Passable sgId es (row b' key) ↔ none ∉ es.map Prod.fst := by
            simp [Passable, hdefault]
          rw [hpass, and_iff_left hfull, ← hpass']
          refine ⟨hiff, fun hok => ?_⟩
          obtain ⟨hrow, hmoved, hframe⟩ := hdone hok
          refine ⟨hrow.clear hholds hstep, ?_, fun key' hkey => ?_⟩
          · rw [movedPorts_cons_of_pos hholds, ← hmoved]
          · exact (hframe key' hkey).trans (hstep.pool key' hkey)

/-! ## All pools -/

section Pools

variable {updated : PortId → Bool} (hupdated : ∀ port, updated port = true) (sgId netId : String)

include hupdated in
/-- **The loop over the pools**, with updates that succeed. -/
theorem clearPools_spec (es : List (PoolKey × Groups)) (b : Filed) (hnd : (es.map Prod.fst).Nodup)
    (hrow : ∀ e ∈ es, row b e.1 = e.2) :
    ((clearPoolsOrRaise updated sgId netId es b).1 = true ↔
        ∀ e ∈ es, e.1.net = netId → Passable sgId e.2.items e.2) ∧
      ((clearPoolsOrRaise updated sgId netId es b).1 = true →
        (∀ e ∈ es, e.1.net = netId →
          RowCleared sgId e.2.items e.2 (row (clearPoolsOrRaise updated sgId netId es b).2.1 e.1) ∧
          ∀ port ∈ movedPorts sgId e.2.items,
            port ∈ (clearPoolsOrRaise updated sgId netId es b).2.2) ∧
        ∀ key, key.net ≠ netId ∨ key ∉ es.map Prod.fst →
          (clearPoolsOrRaise updated sgId netId es b).2.1.get? key = b.get? key) := by
  induction es generalizing b with
  | nil => simp [clearPoolsOrRaise]
  | cons e es ih =>
    obtain ⟨key, d⟩ := e
    obtain ⟨hkey, hnd⟩ := List.nodup_cons.mp hnd
    simp only at hkey
    have hrest : ∀ e ∈ es, row b e.1 = e.2 := fun e he => hrow e (List.mem_cons_of_mem _ he)
    unfold clearPoolsOrRaise
    by_cases hnet : key.net ≠ netId
    · rw [if_pos hnet]
      obtain ⟨hiff, hdone⟩ := ih b hnd hrest
      refine ⟨?_, fun hok => ?_⟩
      · rw [hiff, List.forall_mem_cons]
        exact (and_iff_right fun h => absurd h hnet).symm
      · obtain ⟨hmoved, hframe⟩ := hdone hok
        refine ⟨List.forall_mem_cons.mpr ⟨fun h => absurd h hnet, hmoved⟩, fun key' hkey' => ?_⟩
        refine hframe key' (hkey'.imp_right fun h hmem => h ?_)
        exact List.mem_cons_of_mem _ hmem
    · rw [if_neg hnet, clearGroupsOrRaise_eq fun _ _ _ _ _ port _ => hupdated port]
      obtain ⟨hpass, hclear⟩ := clearGroups_spec sgId key d.items b
      rw [hrow _ List.mem_cons_self] at hpass hclear
      rcases hgroups : clearGroups sgId key d.items b with ⟨ok, b', cleared⟩
      rw [hgroups] at hpass hclear
      cases ok with
      | false =>
        refine ⟨iff_of_false Bool.false_ne_true fun h => ?_, fun h => absurd h Bool.false_ne_true⟩
        cases hpass.mpr (h _ List.mem_cons_self (not_not.mp hnet))
      | true =>
        obtain ⟨hcleared, hports, hother⟩ := hclear rfl
        simp only at hports
        have hrest' : ∀ e ∈ es, row b' e.1 = e.2 := by
          intro e he
          have hne : e.1 ≠ key := by
            intro h
            refine hkey ?_
            rw [← h]
            exact List.mem_map_of_mem he
          rw [← hrest e he, row, row]
          exact congrArg (·.getD Dict.empty) (hother e.1 hne)
        obtain ⟨hiff, hdone⟩ := ih b' hnd hrest'
        refine ⟨?_, fun hok => ?_⟩
        · rw [List.forall_mem_cons]
          exact hiff.trans (and_iff_right fun _ => hpass.mp rfl).symm
        · obtain ⟨hmoved, hframe⟩ := hdone hok
          refine ⟨List.forall_mem_cons.mpr ⟨fun _ => ⟨?_, fun port hport => ?_⟩, fun e he h => ?_⟩,
            fun key' hkey' => ?_⟩
          · simp only
            rw [row, hframe key (.inr hkey)]
            exact hcleared
          · rw [← hports] at hport
            exact List.mem_append_left _ hport
          · obtain ⟨hrow', hmem⟩ := hmoved e he h
            exact ⟨hrow', fun port hport => List.mem_append_right _ (hmem port hport)⟩
          · have hne : key' ≠ key := by
              rintro rfl
              exact hkey'.elim hnet fun h => h List.mem_cons_self
            refine (hframe key' (hkey'.imp_right fun h hmem => h ?_)).trans (hother key' hne)
            exact List.mem_cons_of_mem _ hmem

end Pools

/-! ## The method -/

/-- What `remove_sg_from_pools` is for, from `p` to `p'` with the security groups of the
ports of `cleared` removed in Neutron. -/
structure MovedOut (p p' : Pool) (cleared : List PortId) (sgId netId : String) : Prop where
  gone : ∀ key, key.net = netId → ∀ sg ∈ (row p'.available key).keys, ¬ holds sgId sg = true
  moved : ∀ key, key.net = netId → ∀ sg ports, (row p.available key).get? sg = some ports →
    holds sgId sg = true → ∀ port ∈ ports,
      (((row p'.available key).get? (some [])).getD []).count port = 1 ∧ port ∈ cleared
  kept : ∀ key, key.net = netId → ∀ sg, ¬ holds sgId sg = true → sg ≠ some [] →
    (row p'.available key).get? sg = (row p.available key).get? sg
  default_kept : ∀ key, key.net = netId →
    ((row p.available key).get? (some [])).getD [] <+:
      ((row p'.available key).get? (some [])).getD []
  others : ∀ key, key.net ≠ netId → p'.available.get? key = p.available.get? key

/-- Every port to be moved is once in the groups it may be moved from and to. -/
def MovedOnce (sgId : String) (d : Groups) : Prop :=
  ∀ port ∈ movedPorts sgId d.items,
    ((d.get? (some [])).getD [] ++ movedPorts sgId d.items).count port = 1

instance (sgId : String) (d : Groups) : Decidable (MovedOnce sgId d) :=
  inferInstanceAs (Decidable (∀ port ∈ _, _))

theorem mem_movedPorts {sgId : String} {d : Groups} {port : PortId} :
    port ∈ movedPorts sgId d.items ↔
      ∃ sg ports, d.get? sg = some ports ∧ holds sgId sg = true ∧ port ∈ ports := by
  simp only [movedPorts, List.mem_flatMap, List.mem_filter, Dict.get?_eq_some, Prod.exists]
  constructor
  · rintro ⟨sg, ports, ⟨hmem, hholds⟩, hport⟩
    exact ⟨sg, ports, hmem, hholds, hport⟩
  · rintro ⟨sg, ports, hmem, hholds, hport⟩
    exact ⟨sg, ports, ⟨hmem, hholds⟩, hport⟩

/-- The pools of a network one by one. -/
theorem MovedOut.of_cleared {p p' : Pool} {cleared : List PortId} {sgId netId : String}
    (hcleared : ∀ key, key.net = netId →
      RowCleared sgId (row p.available key).items (row p.available key) (row p'.available key) ∧
        (∀ port ∈ movedPorts sgId (row p.available key).items, port ∈ cleared) ∧
        MovedOnce sgId (row p.available key))
    (hothers : ∀ key, key.net ≠ netId → p'.available.get? key = p.available.get? key) :
    MovedOut p p' cleared sgId netId where
  gone := by
    intro key hnet sg hsg hholds
    obtain ⟨hrow, -, -⟩ := hcleared key hnet
    refine Dict.get?_eq_none.mp ?_ hsg
    refine (hrow.group sg (holds_ne_nil hholds)).trans ?_
    split
    · rfl
    · next hnot =>
      rw [Dict.get?_eq_none]
      exact fun hmem => hnot ⟨hholds, hmem⟩
  moved := by
    intro key hnet sg ports hget hholds port hport
    obtain ⟨hrow, hmem, honce⟩ := hcleared key hnet
    have hmoved := mem_movedPorts.mpr ⟨sg, ports, hget, hholds, hport⟩
    refine ⟨?_, hmem port hmoved⟩
    rw [← honce port hmoved, ← hrow.default]
  kept := by
    intro key hnet sg hholds hne
    obtain ⟨hrow, -, -⟩ := hcleared key hnet
    exact (hrow.group sg hne).trans (if_neg fun hnot => hholds hnot.1)
  default_kept := by
    intro key hnet
    obtain ⟨hrow, -, -⟩ := hcleared key hnet
    exact ⟨_, hrow.default.symm⟩
  others := hothers

/-- **Moving ports out of the groups of a security group** succeeds exactly where the loops
do not raise and no port is filed twice in the groups concerned. -/
theorem remove_sg_from_pools_iff {updated : PortId → Bool} (hupdated : ∀ port, updated port = true)
    (p : Pool) (sgId netId : String) :
    ((removeSgOrRaise updated p sgId netId).1 = true ∧
        MovedOut p (removeSgOrRaise updated p sgId netId).2.1
          (removeSgOrRaise updated p sgId netId).2.2 sgId netId) ↔
      ∀ e ∈ p.available.items, e.1.net = netId → Passable sgId e.2.items e.2 ∧
        MovedOnce sgId e.2 := by
  obtain ⟨hiff, hdone⟩ := clearPools_spec hupdated sgId netId p.available.items p.available
    p.available.nodup fun _ => row_of_mem
  show ((clearPoolsOrRaise updated sgId netId p.available.items p.available).1 = true ∧ _) ↔ _
  constructor
  · rintro ⟨hok, hmoved⟩ e he hnet
    obtain ⟨hcleared, -⟩ := (hdone hok).1 e he hnet
    refine ⟨hiff.mp hok e he hnet, fun port hport => ?_⟩
    obtain ⟨sg, ports, hget, hholds, hmem⟩ := mem_movedPorts.mp hport
    rw [← row_of_mem he] at hget
    rw [← hcleared.default]
    exact (hmoved.moved e.1 hnet sg ports hget hholds port hmem).1
  · intro h
    have hok := hiff.mpr fun e he hnet => (h e he hnet).1
    obtain ⟨hpools, hframe⟩ := hdone hok
    refine ⟨hok, .of_cleared (fun key hnet => ?_) fun key hnet => hframe key (.inl hnet)⟩
    by_cases hkey : key ∈ p.available.keys
    · obtain ⟨d, hd⟩ := Dict.mem_keys.mp hkey
      rw [row_of_mem hd]
      exact ⟨(hpools _ hd hnet).1, (hpools _ hd hnet).2, (h _ hd hnet).2⟩
    · -- a pool that is not there has no group to be emptied
      have hsame : row (removeSgOrRaise updated p sgId netId).2.1.available key =
          row p.available key := congrArg (·.getD Dict.empty) (hframe key (.inr hkey))
      rw [hsame, row_of_notMem hkey]
      exact ⟨.refl _ _, fun port hport => absurd hport List.not_mem_nil,
        fun port hport => absurd hport List.not_mem_nil⟩

/-! ## Runs -/

/-- Two ports of a network policy and no other group. -/
def policyPool : Pool :=
  populatePool Pool.empty poolKey ["np"] [⟨"port-1", "net"⟩, ⟨"port-2", "net"⟩]

/-- Both ports move. -/
theorem remove_sg_from_pools_moves :
    (removeSgOrRaise (fun _ => true) policyPool "np" "net").1 = true ∧
      MovedOut policyPool (removeSgOrRaise (fun _ => true) policyPool "np" "net").2.1
        (removeSgOrRaise (fun _ => true) policyPool "np" "net").2.2 "np" "net" := by
  have hcondition : ∀ e ∈ policyPool.available.items, e.1.net = "net" →
      Passable "np" e.2.items e.2 ∧ MovedOnce "np" e.2 := by decide +kernel
  exact (remove_sg_from_pools_iff (fun _ => rfl) policyPool "np" "net").mpr hcondition

/-- Bare metal with `port_debug`. -/
def debugPools : PoolConfig := ⟨.neutron, true, 0⟩

theorem emptyWorld_debug : (poolSystem debugPools).init emptyWorld :=
  ⟨⟨[], by simp, by simp⟩, {
    pool := rfl
    known := fun _ h => absurd h (by simp)
    inUse_known := fun _ h => absurd h (by simp [World.inUse, emptyWorld])
    sgs := fun _ h => absurd h (by simp)
    held_nodup := by simp [World.held, emptyWorld]
    named := fun _ _ h => absurd h (by simp) }⟩

/-- With `port_debug` a recycled port is filed under `None`, and the method raises a
`TypeError` there. Without, the last port of a group is taken, and the method raises a
`KeyError` as it finds no group `()`. -/
theorem remove_sg_from_pools_raises :
    (∃ w, Reach (poolSystem debugPools) (fun _ _ => True) w ∧
      (removeSgOrRaise (fun _ => true) w.pool "sg" "net").1 = false) ∧
    ∃ w, Reach (poolSystem bareMetal) (fun _ _ => True) w ∧
      (removeSgOrRaise (fun _ => true) w.pool "sg" "net").1 = false := by
  have hdebug : (execute (World.step debugPools) emptyWorld (replayedFinalize.take 4)).map
      (fun w => (removeSgOrRaise (fun _ => true) w.pool "sg" "net").1) = some false := by
    decide +kernel
  have hbare : (execute (World.step bareMetal) emptyWorld (replayedFinalize.take 2)).map
      (fun w => (removeSgOrRaise (fun _ => true) w.pool "sg" "net").1) = some false := by
    decide +kernel
  obtain ⟨w, hw, hraises⟩ := Option.map_eq_some_iff.mp hdebug
  obtain ⟨w', hw', hraises'⟩ := Option.map_eq_some_iff.mp hbare
  refine ⟨⟨w, Reach.execute (fun _ _ _ h => ⟨trivial, h⟩) (.init emptyWorld_debug) hw, hraises⟩,
    w', Reach.execute (fun _ _ _ h => ⟨trivial, h⟩) (emptyWorld_reached _) hw', hraises'⟩

end KuryrKubernetes
