import KuryrKubernetes.K8s.Objects
import Mathlib.Data.List.Dedup

/-!
# Reconciling load balancers

`_trigger_reconciliation` (`controller/handlers/loadbalancer.py`) compares the ids in the
statuses of the KuryrLoadBalancers with the resources Octavia lists, kind by kind, and
resets the status of a KuryrLoadBalancer at the first id that is missing. Members are listed
pool by pool, and Octavia answers NotFound for a pool that is gone.

- `Klb`, `Octavia`: the ids on both sides. All resources carry the configured tags.
- `triggerReconciliation`: the statuses that are reset, in order, and how the run ends. The
  list of resources already triggered is the list of resets.
- `reconcileTypes_spec`: what is reset when the loops over some kinds end.
-/

namespace KuryrKubernetes

namespace Reconciliation

inductive ResourceType where
  | loadbalancer | listener | pool | member
deriving DecidableEq, Repr

/-- A KuryrLoadBalancer, as far as it is read. A member is recorded with its pool. -/
structure Klb where
  selflink : String
  deletionTimestamp : Bool
  loadbalancer : Option String
  listeners : List String
  pools : List String
  members : List (String × String)
deriving DecidableEq, Repr

/-- The resources in Octavia, members with their pools. -/
structure Octavia where
  loadbalancers : List String
  listeners : List String
  pools : List String
  members : List (String × String)

/-- The ids in the status. An empty id of a load balancer is as good as none. -/
def Klb.ids (klb : Klb) : ResourceType → List String
  | .loadbalancer => klb.loadbalancer.toList.filter (· ≠ "")
  | .listener => klb.listeners
  | .pool => klb.pools
  | .member => klb.members.map Prod.fst

/-- The ids of the resources that exist. -/
def Octavia.ids (os : Octavia) : ResourceType → List String
  | .loadbalancer => os.loadbalancers
  | .listener => os.listeners
  | .pool => os.pools
  | .member => os.members.map Prod.fst

/-- An item of `resources`. -/
structure Data where
  id : String
  selflink : String

/-- The KuryrLoadBalancers that are not being deleted. -/
def considered (klbs : List Klb) : List Klb := klbs.filter fun klb => !klb.deletionTimestamp

def resources (klbs : List Klb) (t : ResourceType) : List Data :=
  (considered klbs).flatMap fun klb => (klb.ids t).map (⟨·, klb.selflink⟩)

/-- `pool_ids`. -/
def poolIds (klbs : List Klb) : List String :=
  ((considered klbs).flatMap fun klb => klb.members.map Prod.snd).dedup

/-- The members of some pools. -/
def Octavia.membersOf (os : Octavia) : List String → Except Exc (List String)
  | [] => .ok []
  | pool :: pools =>
    if pool ∈ os.pools then
      (os.membersOf pools).map (((os.members.filter fun m => m.2 = pool).map Prod.fst) ++ ·)
    else .error .osNotFound

/-- `os_resources_id`. -/
def Octavia.list (os : Octavia) (klbs : List Klb) : ResourceType → Except Exc (List String)
  | .member => os.membersOf (poolIds klbs)
  | t => .ok (os.ids t)

/-- `_reconcile_lb`, with the answer to `patch_crd`. -/
def reconcileLb : Except Exc Unit → Except Exc Unit
  | .ok () => .ok ()
  | .error e => if e.isK8sClient then .ok () else .error e

section Handler

variable (patch : String → Except Exc Unit)

/-- The loop over the resources of one kind. -/
def reconcileType (osIds : List String) : List Data → List String → List String × Except Exc Unit
  | [], triggered => (triggered, .ok ())
  | d :: data, triggered =>
    if d.selflink ∈ triggered then reconcileType osIds data triggered
    else if d.id ∉ osIds then
      match reconcileLb (patch d.selflink) with
      | .ok () => reconcileType osIds data (triggered ++ [d.selflink])
      | .error e => (triggered ++ [d.selflink], .error e)
    else reconcileType osIds data triggered

/-- The loop over the kinds. -/
def reconcileTypes (os : Octavia) (klbs : List Klb) :
    List ResourceType → List String → List String × Except Exc Unit
  | [], triggered => (triggered, .ok ())
  | t :: ts, triggered =>
    match os.list klbs t with
    | .error e => (triggered, .error e)
    | .ok osIds =>
      match reconcileType patch osIds (resources klbs t) triggered with
      | (triggered, .ok ()) => reconcileTypes os klbs ts triggered
      | (triggered, .error e) => (triggered, .error e)

def triggerReconciliation (os : Octavia) (klbs : List Klb) : List String × Except Exc Unit :=
  reconcileTypes patch os klbs [.loadbalancer, .listener, .pool, .member] []

end Handler

/-! ## What is missing -/

/-- An id of this kind is in the status and not in Octavia. -/
def Missing (os : Octavia) (t : ResourceType) (klb : Klb) : Prop := ∃ id ∈ klb.ids t, id ∉ os.ids t

/-- A KuryrLoadBalancer of this link, not being deleted, misses a resource of one of the
kinds. -/
def Broken (os : Octavia) (ts : List ResourceType) (klbs : List Klb) (link : String) : Prop :=
  ∃ klb ∈ klbs, klb.deletionTimestamp = false ∧ klb.selflink = link ∧ ∃ t ∈ ts, Missing os t klb

/-- All kinds. -/
def kinds : List ResourceType := [.loadbalancer, .listener, .pool, .member]

/-- The broken KuryrLoadBalancers have been reset once, and no others. -/
def ResetsBroken (os : Octavia) (klbs : List Klb) (resets : List String) : Prop :=
  ∀ link, (Broken os kinds klbs link → resets.count link = 1) ∧
    (¬ Broken os kinds klbs link → resets.count link = 0)

/-- The pools of all recorded members exist. -/
def PoolsExist (os : Octavia) (klbs : List Klb) : Prop :=
  ∀ klb ∈ klbs, klb.deletionTimestamp = false → ∀ m ∈ klb.members, m.2 ∈ os.pools

/-- A recorded member that exists is in the pool it is recorded with: members do not move. -/
def InRecordedPool (os : Octavia) (klbs : List Klb) : Prop :=
  ∀ klb ∈ klbs, ∀ m ∈ klb.members, m.1 ∈ os.ids .member → m ∈ os.members

theorem mem_considered {klbs : List Klb} {klb : Klb} :
    klb ∈ considered klbs ↔ klb ∈ klbs ∧ klb.deletionTimestamp = false := by
  simp [considered]

theorem mem_poolIds {klbs : List Klb} {pool : String} :
    pool ∈ poolIds klbs ↔
      ∃ klb ∈ klbs, klb.deletionTimestamp = false ∧ ∃ m ∈ klb.members, m.2 = pool := by
  simp only [poolIds, List.mem_dedup, List.mem_flatMap, mem_considered, List.mem_map, and_assoc]

/-- Listing the members fails where a pool is gone. -/
theorem membersOf_spec (os : Octavia) (pools : List String) :
    ((∃ pool ∈ pools, pool ∉ os.pools) → os.membersOf pools = .error .osNotFound) ∧
      ((∀ pool ∈ pools, pool ∈ os.pools) → ∃ ids, os.membersOf pools = .ok ids ∧
        ∀ id, id ∈ ids ↔ ∃ pool ∈ pools, (id, pool) ∈ os.members) := by
  induction pools with
  | nil => exact ⟨by simp, fun _ => ⟨[], rfl, by simp⟩⟩
  | cons pool pools ih =>
    unfold Octavia.membersOf
    by_cases hpool : pool ∈ os.pools
    · rw [if_pos hpool]
      constructor
      · rintro ⟨p, hp, hgone⟩
        have hp' : p ∈ pools := (List.mem_cons.mp hp).resolve_left fun h => hgone (h ▸ hpool)
        rw [ih.1 ⟨p, hp', hgone⟩]
        rfl
      · intro h
        obtain ⟨ids, hids, hmem⟩ := ih.2 fun p hp => h p (List.mem_cons_of_mem _ hp)
        rw [hids]
        refine ⟨_, rfl, fun id => ?_⟩
        rw [List.mem_append, hmem, List.exists_mem_cons_iff]
        refine or_congr_left ?_
        simp
    · rw [if_neg hpool]
      exact ⟨fun _ => rfl, fun h => absurd (h pool List.mem_cons_self) hpool⟩

theorem mem_resources {klbs : List Klb} {t : ResourceType} {d : Data} :
    d ∈ resources klbs t ↔ ∃ klb ∈ klbs, klb.deletionTimestamp = false ∧
      d.selflink = klb.selflink ∧ d.id ∈ klb.ids t := by
  simp only [resources, List.mem_flatMap, mem_considered, List.mem_map, and_assoc]
  constructor
  · rintro ⟨klb, hklb, hlive, id, hid, rfl⟩
    exact ⟨klb, hklb, hlive, rfl, hid⟩
  · rintro ⟨klb, hklb, hlive, hlink, hid⟩
    exact ⟨klb, hklb, hlive, d.id, hid, by rw [← hlink]⟩

/-- The listing of a kind tells which of its ids exist. -/
def Tells (os : Octavia) (klbs : List Klb) (t : ResourceType) (osIds : List String) : Prop :=
  ∀ klb ∈ klbs, klb.deletionTimestamp = false → ∀ id ∈ klb.ids t, id ∈ osIds ↔ id ∈ os.ids t

theorem list_of_ne_member (os : Octavia) (klbs : List Klb) {t : ResourceType} (ht : t ≠ .member) :
    os.list klbs t = .ok (os.ids t) := by
  cases t with
  | member => exact absurd rfl ht
  | _ => rfl

theorem list_member {os : Octavia} {klbs : List Klb} (hrecorded : InRecordedPool os klbs) :
    (PoolsExist os klbs → ∃ osIds, os.list klbs .member = .ok osIds ∧ Tells os klbs .member osIds) ∧
      (¬ PoolsExist os klbs → os.list klbs .member = .error .osNotFound) := by
  obtain ⟨hgone, hthere⟩ := membersOf_spec os (poolIds klbs)
  constructor
  · intro hpools
    have hall : ∀ pool ∈ poolIds klbs, pool ∈ os.pools := by
      intro pool hpool
      obtain ⟨klb, hklb, hlive, m, hm, rfl⟩ := mem_poolIds.mp hpool
      exact hpools klb hklb hlive m hm
    obtain ⟨osIds, hlist, hmem⟩ := hthere hall
    refine ⟨osIds, hlist, fun klb hklb hlive id hid => ?_⟩
    obtain ⟨m, hm, rfl⟩ := List.mem_map.mp hid
    rw [hmem]
    constructor
    · rintro ⟨pool, -, hmember⟩
      exact List.mem_map.mpr ⟨(m.1, pool), hmember, rfl⟩
    · intro hexists
      exact ⟨m.2, mem_poolIds.mpr ⟨klb, hklb, hlive, m, hm, rfl⟩, hrecorded klb hklb m hm hexists⟩
  · intro hpools
    refine hgone ?_
    unfold PoolsExist at hpools
    push Not at hpools
    obtain ⟨klb, hklb, hlive, m, hm, hno⟩ := hpools
    exact ⟨m.2, mem_poolIds.mpr ⟨klb, hklb, hlive, m, hm, rfl⟩, hno⟩

/-! ## The loops -/

section Loops

variable {patch : String → Except Exc Unit}

/-- Requests to Kubernetes fail with a `K8sClientException`, if at all. -/
def Caught (patch : String → Except Exc Unit) : Prop :=
  ∀ link e, patch link = .error e → e.isK8sClient = true

theorem reconcileLb_caught (h : Caught patch) (link : String) :
    reconcileLb (patch link) = .ok () := by
  cases hpatch : patch link with
  | ok _ => rfl
  | error e => exact if_pos (h link e hpatch)

/-- A loop that has ended: it has gone on from `triggered`, and the links for which `P`
holds are reset as well. -/
structure Reset (triggered : List String) (P : String → Prop)
    (r : List String × Except Exc Unit) : Prop where
  ok : r.2 = .ok ()
  nodup : triggered.Nodup → r.1.Nodup
  mem : ∀ link, link ∈ r.1 ↔ link ∈ triggered ∨ P link

theorem reconcileType_spec (h : Caught patch) (osIds : List String) (data : List Data)
    (triggered : List String) :
    Reset triggered (fun link => ∃ d ∈ data, d.selflink = link ∧ d.id ∉ osIds)
      (reconcileType patch osIds data triggered) := by
  induction data generalizing triggered with
  | nil => exact ⟨rfl, id, by simp [reconcileType]⟩
  | cons d data ih =>
    unfold reconcileType
    by_cases htriggered : d.selflink ∈ triggered
    · -- a KuryrLoadBalancer is reset once, whatever else it misses
      rw [if_pos htriggered]
      obtain ⟨hok, hnodup, hmem⟩ := ih triggered
      refine ⟨hok, hnodup, fun link => ?_⟩
      rw [hmem, List.exists_mem_cons_iff]
      constructor
      · exact Or.imp_right .inr
      · rintro (hl | ⟨rfl, -⟩ | hl)
        · exact .inl hl
        · exact .inl htriggered
        · exact .inr hl
    · rw [if_neg htriggered]
      by_cases hid : d.id ∉ osIds
      · rw [if_pos hid, reconcileLb_caught h]
        obtain ⟨hok, hnodup, hmem⟩ := ih (triggered ++ [d.selflink])
        refine ⟨hok, fun hnd => hnodup ?_, fun link => ?_⟩
        · rw [List.nodup_append_comm]
          exact List.nodup_cons.mpr ⟨htriggered, hnd⟩
        · have hnew : (d.selflink = link ∧ d.id ∉ osIds) ↔ link = d.selflink := by
            rw [and_iff_left hid]
            exact eq_comm
          simp only
          rw [hmem, List.exists_mem_cons_iff, List.mem_append, List.mem_singleton, hnew, or_assoc]
      · rw [if_neg hid]
        obtain ⟨hok, hnodup, hmem⟩ := ih triggered
        refine ⟨hok, hnodup, fun link => ?_⟩
        have hnew : ¬ (d.selflink = link ∧ d.id ∉ osIds) := fun hd => hid hd.2
        rw [hmem, List.exists_mem_cons_iff, or_iff_right hnew]

theorem broken_nil (os : Octavia) (klbs : List Klb) (link : String) :
    ¬ Broken os [] klbs link := by
  rintro ⟨klb, -, -, -, t, ht, -⟩
  cases ht

theorem broken_append (os : Octavia) (ts us : List ResourceType) (klbs : List Klb) (link : String) :
    Broken os (ts ++ us) klbs link ↔ Broken os ts klbs link ∨ Broken os us klbs link := by
  simp only [Broken, List.mem_append, or_and_right, exists_or, and_or_left]

/-- The data that are reset in a loop whose listing tells. -/
theorem missing_iff {os : Octavia} {klbs : List Klb} {t : ResourceType} {osIds : List String}
    (h : Tells os klbs t osIds) (link : String) :
    (∃ d ∈ resources klbs t, d.selflink = link ∧ d.id ∉ osIds) ↔ Broken os [t] klbs link := by
  constructor
  · rintro ⟨d, hd, rfl, hid⟩
    obtain ⟨klb, hklb, hlive, hlink, hmem⟩ := mem_resources.mp hd
    refine ⟨klb, hklb, hlive, hlink.symm, t, List.mem_singleton_self t, d.id, hmem, ?_⟩
    rwa [← h klb hklb hlive d.id hmem]
  · rintro ⟨klb, hklb, hlive, hlink, t', ht', id, hmem, hid⟩
    obtain rfl := List.mem_singleton.mp ht'
    refine ⟨⟨id, link⟩, mem_resources.mpr ⟨klb, hklb, hlive, hlink.symm, hmem⟩, rfl, ?_⟩
    rwa [h klb hklb hlive id hmem]

/-- **The loop over some kinds** resets what misses a resource of one of them, where all
listings tell. -/
theorem reconcileTypes_spec (h : Caught patch) {os : Octavia} {klbs : List Klb}
    (ts : List ResourceType)
    (hlist : ∀ t ∈ ts, ∃ osIds, os.list klbs t = .ok osIds ∧ Tells os klbs t osIds)
    (triggered : List String) :
    Reset triggered (Broken os ts klbs) (reconcileTypes patch os klbs ts triggered) := by
  induction ts generalizing triggered with
  | nil => exact ⟨rfl, id, fun link => (or_iff_left (broken_nil os klbs link)).symm⟩
  | cons t ts ih =>
    obtain ⟨osIds, hids, htells⟩ := hlist t List.mem_cons_self
    obtain ⟨hok, hnodup, hmem⟩ := reconcileType_spec h osIds (resources klbs t) triggered
    unfold reconcileTypes
    rw [hids]
    simp only
    rcases htype : reconcileType patch osIds (resources klbs t) triggered with ⟨triggered', end'⟩
    rw [htype] at hok hnodup hmem
    simp only at hok hnodup hmem
    subst hok
    obtain ⟨hok', hnodup', hmem'⟩ :=
      ih (fun t ht => hlist t (List.mem_cons_of_mem _ ht)) triggered'
    refine ⟨hok', fun hnd => hnodup' (hnodup hnd), fun link => ?_⟩
    have hsplit : Broken os (t :: ts) klbs link ↔
        Broken os [t] klbs link ∨ Broken os ts klbs link := broken_append os [t] ts klbs link
    rw [hmem', hmem, missing_iff htells, hsplit, or_assoc]

/-- A loop whose first kinds went through goes on with the others. -/
theorem reconcileTypes_append (os : Octavia) (klbs : List Klb) (ts us : List ResourceType)
    (triggered : List String) (hok : (reconcileTypes patch os klbs ts triggered).2 = .ok ()) :
    reconcileTypes patch os klbs (ts ++ us) triggered =
      reconcileTypes patch os klbs us (reconcileTypes patch os klbs ts triggered).1 := by
  induction ts generalizing triggered with
  | nil => rfl
  | cons t ts ih =>
    rw [reconcileTypes] at hok
    rw [List.cons_append, reconcileTypes, reconcileTypes]
    cases hids : os.list klbs t with
    | error e =>
      rw [hids] at hok
      cases hok
    | ok osIds =>
      rw [hids] at hok
      simp only at hok ⊢
      rcases htype : reconcileType patch osIds (resources klbs t) triggered with ⟨triggered', _ | _⟩
      · rw [htype] at hok
        cases hok
      · rw [htype] at hok
        exact ih triggered' hok

end Loops

/-! ## One run -/

section Runs

variable {patch : String → Except Exc Unit} {os : Octavia} {klbs : List Klb}

/-- The kinds whose listings never fail. -/
def otherKinds : List ResourceType := [.loadbalancer, .listener, .pool]

theorem list_otherKinds (os : Octavia) (klbs : List Klb) :
    ∀ t ∈ otherKinds, ∃ osIds, os.list klbs t = .ok osIds ∧ Tells os klbs t osIds := by
  intro t ht
  have hne : t ≠ .member := by
    rintro rfl
    exact absurd ht (by decide)
  exact ⟨os.ids t, list_of_ne_member os klbs hne, fun _ _ _ _ _ => Iff.rfl⟩

/-- Where the pools of all members exist, everything broken is reset; where one is gone,
what misses another resource than a member. -/
theorem triggerReconciliation_mem (h : Caught patch) (hrecorded : InRecordedPool os klbs) :
    (triggerReconciliation patch os klbs).1.Nodup ∧
      (PoolsExist os klbs → ∀ link, link ∈ (triggerReconciliation patch os klbs).1 ↔
        Broken os kinds klbs link) ∧
      (¬ PoolsExist os klbs → ∀ link, link ∈ (triggerReconciliation patch os klbs).1 ↔
        Broken os otherKinds klbs link) := by
  obtain ⟨hpools, hgone⟩ := list_member hrecorded
  obtain ⟨hok, hnodup, hmem⟩ := reconcileTypes_spec h otherKinds (list_otherKinds os klbs) []
  -- only the listing of the members can fail, and it comes last
  have hsplit : triggerReconciliation patch os klbs = reconcileTypes patch os klbs [.member]
      (reconcileTypes patch os klbs otherKinds []).1 :=
    reconcileTypes_append os klbs otherKinds [.member] [] hok
  rw [hsplit]
  by_cases hexist : PoolsExist os klbs
  · obtain ⟨osIds, hlist, htells⟩ := hpools hexist
    have hmember : ∀ t ∈ [ResourceType.member],
        ∃ osIds, os.list klbs t = .ok osIds ∧ Tells os klbs t osIds := by
      intro t ht
      rw [List.mem_singleton.mp ht]
      exact ⟨osIds, hlist, htells⟩
    obtain ⟨-, hnodup', hmem'⟩ := reconcileTypes_spec h [.member] hmember
      (reconcileTypes patch os klbs otherKinds []).1
    refine ⟨hnodup' (hnodup List.nodup_nil), fun _ link => ?_, fun hno => absurd hexist hno⟩
    rw [hmem', hmem, or_iff_right List.not_mem_nil, ← broken_append]
    rfl
  · -- what was reset before stays reset
    have hraise : reconcileTypes patch os klbs [.member]
        (reconcileTypes patch os klbs otherKinds []).1 =
        ((reconcileTypes patch os klbs otherKinds []).1, .error .osNotFound) := by
      rw [reconcileTypes, hgone hexist]
    rw [hraise]
    refine ⟨hnodup List.nodup_nil, fun hyes => absurd hyes hexist, fun _ link => ?_⟩
    rw [hmem, or_iff_right List.not_mem_nil]

/-- What the resets should be, for a list of links that are all different. -/
theorem resetsBroken_iff {resets : List String} (hnd : resets.Nodup) :
    ResetsBroken os klbs resets ↔ ∀ link, link ∈ resets ↔ Broken os kinds klbs link := by
  refine forall_congr' fun link => ?_
  rw [hnd.count]
  by_cases hlink : link ∈ resets
  · simp [hlink]
  · simp [hlink]

/-- The resets of one run are right exactly where the pools of all members exist, or every
KuryrLoadBalancer that misses a member also misses another resource. -/
theorem triggerReconciliation_iff (h : Caught patch) (hrecorded : InRecordedPool os klbs) :
    ResetsBroken os klbs (triggerReconciliation patch os klbs).1 ↔
      PoolsExist os klbs ∨
        ∀ link, Broken os [.member] klbs link → Broken os otherKinds klbs link := by
  obtain ⟨hnd, hall, hothers⟩ := triggerReconciliation_mem h hrecorded
  have hsplit : ∀ link, Broken os kinds klbs link ↔
      Broken os otherKinds klbs link ∨ Broken os [.member] klbs link := fun link =>
    broken_append os otherKinds [.member] klbs link
  rw [resetsBroken_iff hnd]
  by_cases hexist : PoolsExist os klbs
  · exact iff_of_true (hall hexist) (.inl hexist)
  · rw [or_iff_right hexist]
    refine forall_congr' fun link => ?_
    rw [hothers hexist link, hsplit link]
    constructor
    · exact fun hiff hmember => hiff.mpr (.inr hmember)
    · intro himp
      exact ⟨.inl, fun hbroken => hbroken.elim id himp⟩

end Runs

/-! ## Any order -/

theorem broken_perm {os : Octavia} {ts : List ResourceType} {klbs klbs' : List Klb}
    (h : klbs'.Perm klbs) (link : String) :
    Broken os ts klbs' link ↔ Broken os ts klbs link := by
  simp only [Broken, h.mem_iff]

/-- **Reconciliation resets exactly the broken KuryrLoadBalancers**, in whatever order they
are listed, exactly where no member's pool is gone or everything that misses a member also
misses another resource. -/
theorem trigger_reconciliation_iff {patch : String → Except Exc Unit} (h : Caught patch)
    {os : Octavia} {klbs : List Klb} (hrecorded : InRecordedPool os klbs) :
    (∀ klbs', klbs'.Perm klbs → ResetsBroken os klbs (triggerReconciliation patch os klbs').1) ↔
      PoolsExist os klbs ∨
        ∀ link, Broken os [.member] klbs link → Broken os otherKinds klbs link := by
  constructor
  · exact fun hresets => (triggerReconciliation_iff h hrecorded).mp (hresets klbs (.refl _))
  · intro hcondition klbs' hperm
    have hrecorded' : InRecordedPool os klbs' := fun klb hklb =>
      hrecorded klb (hperm.mem_iff.mp hklb)
    have hcondition' : PoolsExist os klbs' ∨
        ∀ link, Broken os [.member] klbs' link → Broken os otherKinds klbs' link := by
      refine hcondition.imp (fun hexist klb hklb => hexist klb (hperm.mem_iff.mp hklb)) ?_
      intro himp link
      rw [broken_perm hperm, broken_perm hperm]
      exact himp link
    intro link
    rw [← broken_perm hperm]
    exact (triggerReconciliation_iff h hrecorded').mpr hcondition' link

/-! ## Two Services -/

/-- A pool of the first Service is gone, and a member of the second. -/
def firstKlb : Klb := ⟨"/klb/first", false, some "lb-1", ["l-1"], ["p-1"], [("m-1", "p-1")]⟩

def secondKlb : Klb := ⟨"/klb/second", false, some "lb-2", ["l-2"], ["p-2"], [("m-2", "p-2")]⟩

def withoutPool : Octavia := ⟨["lb-1", "lb-2"], ["l-1", "l-2"], ["p-2"], []⟩

/-- A member of the second Service is gone. -/
def withoutMember : Octavia :=
  ⟨["lb-1", "lb-2"], ["l-1", "l-2"], ["p-1", "p-2"], [("m-1", "p-1")]⟩

/-- All pools exist, and the second Service is reset in either order. -/
theorem trigger_reconciliation_withoutMember :
    InRecordedPool withoutMember [firstKlb, secondKlb] ∧
      ∀ klbs', klbs'.Perm [firstKlb, secondKlb] →
        ResetsBroken withoutMember [firstKlb, secondKlb]
          (triggerReconciliation (fun _ => .ok ()) withoutMember klbs').1 := by
  have hrecorded : InRecordedPool withoutMember [firstKlb, secondKlb] := by
    unfold InRecordedPool
    decide +kernel
  have hexist : PoolsExist withoutMember [firstKlb, secondKlb] := by
    unfold PoolsExist
    decide +kernel
  have hcaught : Caught fun _ => .ok () := fun _ _ h => by cases h
  exact ⟨hrecorded, (trigger_reconciliation_iff hcaught hrecorded).mpr (.inl hexist)⟩

/-- The missing pool hides the missing member. -/
theorem trigger_reconciliation_hides_member :
    InRecordedPool withoutPool [firstKlb, secondKlb] ∧
      triggerReconciliation (fun _ => .ok ()) withoutPool [firstKlb, secondKlb] =
        (["/klb/first"], .error .osNotFound) ∧
      ¬ ResetsBroken withoutPool [firstKlb, secondKlb] ["/klb/first"] := by
  refine ⟨by unfold InRecordedPool; decide +kernel, by decide +kernel, fun h => ?_⟩
  have hbroken : Broken withoutPool kinds [firstKlb, secondKlb] "/klb/second" :=
    ⟨secondKlb, by decide, rfl, rfl, .member, by decide, "m-2", by decide, by decide⟩
  exact absurd ((h "/klb/second").1 hbroken) (by decide)

end Reconciliation

end KuryrKubernetes
