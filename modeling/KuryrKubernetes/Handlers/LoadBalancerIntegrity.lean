import KuryrKubernetes.Lib.Transition
import KuryrKubernetes.Handlers.LoadBalancerMoves

/-!
# Referential integrity of the stored status

`Status.Integrity`: ids are distinct, a pool's listener is stored and a member's
pool is stored. The status is written key by key, from memory, after every change,
so integrity has to hold in memory at every patch, and a key that is missing in
memory must not leave anything stored behind (`Consistent`).

The ids come from the load balancer service, which gives no id twice: a pool id
belongs to one listener and a member id to one address, port and pool (`Registry`).

The run theorem holds under `PassOk`. The two things it rules out break integrity:
an address that changes while pools are stored, and a target listed twice.
-/

namespace KuryrKubernetes

namespace LoadBalancer

open Effect Transition

/-! ## Integrity of lists -/

/-- What an id of the load balancer service stands for. -/
structure Registry where
  listenerOf : String → String
  targetOf : String → String × Nat × String

/-- Distinct ids, and no reference to what is not there. -/
structure Integral (listeners : List Listener) (pools : List Pool) (members : List Member) :
    Prop where
  listenerIds : (listeners.map Listener.id).Nodup
  poolIds : (pools.map Pool.id).Nodup
  memberIds : (members.map Member.id).Nodup
  poolListener : ∀ p ∈ pools, p.listenerId ∈ listeners.map Listener.id
  memberPool : ∀ m ∈ members, m.poolId ∈ pools.map Pool.id

/-- Integrity, with ids that stand for what they are recorded with. -/
structure Genuine (reg : Registry) (listeners : List Listener) (pools : List Pool)
    (members : List Member) : Prop extends Integral listeners pools members where
  poolOwner : ∀ p ∈ pools, reg.listenerOf p.id = p.listenerId
  memberTarget : ∀ m ∈ members, reg.targetOf m.id = m.target

section Lists

variable {reg : Registry} {listeners : List Listener} {pools : List Pool} {members : List Member}

theorem Genuine.nil : Genuine reg [] [] [] := by
  constructor
  · constructor <;> simp
  · simp
  · simp

/-- Without pools there are no members. -/
theorem Genuine.members_eq_nil (h : Genuine reg listeners [] members) : members = [] := by
  cases members with
  | nil => rfl
  | cons m ms => exact absurd (h.memberPool m List.mem_cons_self) List.not_mem_nil

theorem Genuine.dropMembers (h : Genuine reg listeners pools members) (f : Member → Bool) :
    Genuine reg listeners pools (members.filter f) where
  listenerIds := h.listenerIds
  poolIds := h.poolIds
  memberIds := h.memberIds.sublist (List.filter_sublist.map _)
  poolListener := h.poolListener
  memberPool := fun m hm => h.memberPool m (List.mem_of_mem_filter hm)
  poolOwner := h.poolOwner
  memberTarget := fun m hm => h.memberTarget m (List.mem_of_mem_filter hm)

/-- A pool is dropped with its members. -/
theorem Genuine.dropPools (h : Genuine reg listeners pools members) (removed : List String) :
    Genuine reg listeners (pools.filter fun p => p.id ∉ removed)
      (members.filter fun m => m.poolId ∉ removed) where
  listenerIds := h.listenerIds
  poolIds := h.poolIds.sublist (List.filter_sublist.map _)
  memberIds := h.memberIds.sublist (List.filter_sublist.map _)
  poolListener := fun p hp => h.poolListener p (List.mem_of_mem_filter hp)
  memberPool := by
    intro m hm
    obtain ⟨hm, hkeep⟩ := List.mem_filter.mp hm
    obtain ⟨p, hp, hid⟩ := List.mem_map.mp (h.memberPool m hm)
    refine List.mem_map.mpr ⟨p, List.mem_filter.mpr ⟨hp, ?_⟩, hid⟩
    rw [hid]
    exact hkeep
  poolOwner := fun p hp => h.poolOwner p (List.mem_of_mem_filter hp)
  memberTarget := fun m hm => h.memberTarget m (List.mem_of_mem_filter hm)

/-- Listeners without pools may go. -/
theorem Genuine.dropListeners (h : Genuine reg listeners pools members) {removed : List String}
    (hunused : ∀ p ∈ pools, p.listenerId ∉ removed) :
    Genuine reg (listeners.filter fun l => l.id ∉ removed) pools members where
  listenerIds := h.listenerIds.sublist (List.filter_sublist.map _)
  poolIds := h.poolIds
  memberIds := h.memberIds
  poolListener := by
    intro p hp
    obtain ⟨l, hl, hid⟩ := List.mem_map.mp (h.poolListener p hp)
    refine List.mem_map.mpr ⟨l, List.mem_filter.mpr ⟨hl, ?_⟩, hid⟩
    rw [hid]
    exact decide_eq_true (hunused p hp)
  memberPool := h.memberPool
  poolOwner := h.poolOwner
  memberTarget := h.memberTarget

theorem Genuine.addPool (h : Genuine reg listeners pools members) {id : String} {l : Listener}
    (hl : l ∈ listeners) (hreg : reg.listenerOf id = l.id)
    (hnew : l.id ∉ pools.map Pool.listenerId) :
    Genuine reg listeners (pools ++ [⟨id, l.id⟩]) members where
  listenerIds := h.listenerIds
  poolIds := by
    rw [List.map_append, List.nodup_append]
    refine ⟨h.poolIds, List.nodup_singleton _, ?_⟩
    rintro x hx y hy rfl
    obtain ⟨p, hp, hid⟩ := List.mem_map.mp hx
    have howner := h.poolOwner p hp
    rw [hid, List.mem_singleton.mp hy, hreg] at howner
    exact hnew (List.mem_map.mpr ⟨p, hp, howner.symm⟩)
  memberIds := h.memberIds
  poolListener := by
    intro p hp
    rcases List.mem_append.mp hp with hp | hp
    · exact h.poolListener p hp
    · rw [List.mem_singleton.mp hp]
      exact List.mem_map_of_mem hl
  memberPool := by
    intro m hm
    rw [List.map_append]
    exact List.mem_append_left _ (h.memberPool m hm)
  poolOwner := by
    intro p hp
    rcases List.mem_append.mp hp with hp | hp
    · exact h.poolOwner p hp
    · rw [List.mem_singleton.mp hp]
      exact hreg
  memberTarget := h.memberTarget

theorem Genuine.addMember (h : Genuine reg listeners pools members) {pool : Pool} {m : Member}
    (hpool : pool ∈ pools) (hm : m.poolId = pool.id) (hreg : reg.targetOf m.id = m.target)
    (hnew : m.target ∉ members.map Member.target) :
    Genuine reg listeners pools (members ++ [m]) where
  listenerIds := h.listenerIds
  poolIds := h.poolIds
  memberIds := by
    rw [List.map_append, List.nodup_append]
    refine ⟨h.memberIds, List.nodup_singleton _, ?_⟩
    rintro x hx y hy rfl
    obtain ⟨m', hm', hid⟩ := List.mem_map.mp hx
    have htarget := h.memberTarget m' hm'
    rw [hid, List.mem_singleton.mp hy, hreg] at htarget
    exact hnew (List.mem_map.mpr ⟨m', hm', htarget.symm⟩)
  poolListener := h.poolListener
  memberPool := by
    intro m' hm'
    rcases List.mem_append.mp hm' with hm' | hm'
    · exact h.memberPool m' hm'
    · rw [List.mem_singleton.mp hm', hm]
      exact List.mem_map_of_mem hpool
  poolOwner := h.poolOwner
  memberTarget := by
    intro m' hm'
    rcases List.mem_append.mp hm' with hm' | hm'
    · exact h.memberTarget m' hm'
    · rw [List.mem_singleton.mp hm']
      exact hreg

/-! ### A listener recorded again -/

theorem removePrevious_of_forall {id : String} :
    ∀ {n i : Nat} {ls : List Listener}, (∀ l ∈ ls, l.id ≠ id) → removePrevious id n i ls = ls
  | 0, _, _, _ => rfl
  | n + 1, i, ls, h => by
    rw [removePrevious]
    cases hi : ls[i]? with
    | none => rfl
    | some l =>
      simp only
      rw [if_neg (h l (List.mem_of_getElem? hi))]
      exact removePrevious_of_forall h

/-- With distinct ids the loop over the shrinking list drops the one listener with
the id. The induction is on the iterations left; no listener before the index has
the id. -/
theorem removePrevious_eq_filter {id : String} :
    ∀ {n i : Nat} {ls : List Listener}, (ls.map Listener.id).Nodup → ls.length ≤ n + i →
      (∀ l ∈ ls.take i, l.id ≠ id) →
      removePrevious id n i ls = ls.filter fun l => l.id ≠ id
  | 0, i, ls, _, hlen, h => by
    rw [List.take_of_length_le (by omega)] at h
    rw [removePrevious, List.filter_eq_self.mpr fun l hl => decide_eq_true (h l hl)]
  | n + 1, i, ls, hnd, hlen, h => by
    rw [removePrevious]
    cases hi : ls[i]? with
    | none =>
      rw [List.take_of_length_le (List.getElem?_eq_none_iff.mp hi)] at h
      exact (List.filter_eq_self.mpr fun l hl => decide_eq_true (h l hl)).symm
    | some l =>
      have hl := List.mem_of_getElem? hi
      simp only
      split
      · rename_i hid
        have herase : ls.erase l = ls.filter fun x => x.id ≠ id := by
          rw [hnd.of_map.erase_eq_filter]
          refine List.filter_congr fun x hx => ?_
          have hiff : x ≠ l ↔ x.id ≠ id := by
            rw [← hid]
            exact not_congr ⟨congrArg Listener.id, List.inj_on_of_nodup_map hnd hx hl⟩
          rw [Bool.eq_iff_iff, bne_iff_ne, decide_eq_true_iff]
          exact hiff
        rw [herase]
        exact removePrevious_of_forall fun x hx => of_decide_eq_true (List.mem_filter.mp hx).2
      · rename_i hid
        refine removePrevious_eq_filter hnd (by omega) fun x hx => ?_
        rw [List.take_add_one, hi, List.mem_append] at hx
        rcases hx with hx | hx
        · exact h x hx
        · rw [List.mem_singleton.mp hx]
          exact hid

theorem recordListener_eq {l : Listener} (hnd : (listeners.map Listener.id).Nodup) :
    recordListener listeners l = (listeners.filter fun x => x.id ≠ l.id) ++ [l] := by
  rw [recordListener, removePrevious_eq_filter hnd (by omega) (by simp)]

theorem Genuine.recordListener (h : Genuine reg listeners pools members) (l : Listener) :
    Genuine reg (recordListener listeners l) pools members where
  listenerIds := by
    rw [recordListener_eq h.listenerIds, List.map_append, List.nodup_append]
    refine ⟨h.listenerIds.sublist (List.filter_sublist.map _), List.nodup_singleton _, ?_⟩
    rintro x hx y hy rfl
    obtain ⟨l', hl', hid⟩ := List.mem_map.mp hx
    have hne := of_decide_eq_true (List.mem_filter.mp hl').2
    exact hne (hid.trans (List.mem_singleton.mp hy))
  poolIds := h.poolIds
  memberIds := h.memberIds
  poolListener := by
    intro p hp
    rw [recordListener_eq h.listenerIds, List.map_append, List.mem_append]
    by_cases hid : p.listenerId = l.id
    · exact .inr (List.mem_singleton.mpr hid)
    · obtain ⟨l', hl', hid'⟩ := List.mem_map.mp (h.poolListener p hp)
      refine .inl (List.mem_map.mpr ⟨l', List.mem_filter.mpr ⟨hl', ?_⟩, hid'⟩)
      rw [hid']
      exact decide_eq_true hid
  memberPool := h.memberPool
  poolOwner := h.poolOwner
  memberTarget := h.memberTarget

/-- With integrity, every pool finds its listener. -/
theorem lsnrById_ne_none {id : String} (h : id ∈ listeners.map Listener.id) :
    lsnrById listeners id ≠ none := by
  obtain ⟨l, hl, hid⟩ := List.mem_map.mp h
  rw [lsnrById, Ne, List.find?_eq_none]
  intro hall
  exact hall l (List.mem_reverse.mpr hl) (decide_eq_true hid)

end Lists

/-! ## Integrity of a status -/

/-- `Integral` of the lists of a status; a missing list reads as the empty one. -/
def Status.Integrity (st : Status) : Prop :=
  Integral st.listenerList st.poolList st.memberList

def Status.Genuine (reg : Registry) (st : Status) : Prop :=
  LoadBalancer.Genuine reg st.listenerList st.poolList st.memberList

/-- Nothing is stored under a key that is missing in memory. -/
structure Status.Yields (st stored : Status) : Prop where
  pools : st.pools = none → stored.poolList = []
  members : st.members = none → stored.memberList = []

section Patch

variable {reg : Registry} {st stored : Status}

theorem getD_or {α : Type} {a b : Option (List α)} (h : a = none → b.getD [] = []) :
    (a.or b).getD [] = a.getD [] := by
  cases a with
  | some a => rfl
  | none => exact h rfl

theorem poolList_patched (h : st.Yields stored) : (stored.patched st).poolList = st.poolList := by
  unfold Status.patched
  split
  · rename_i hempty
    rw [hempty]
  · exact getD_or h.pools

theorem memberList_patched (h : st.Yields stored) :
    (stored.patched st).memberList = st.memberList := by
  unfold Status.patched
  split
  · rename_i hempty
    rw [hempty]
  · exact getD_or h.members

/-- Stale listeners stay stored only while there is no pool in memory. -/
theorem listenerList_patched (stored : Status) (hst : st.Genuine reg) :
    (stored.patched st).listenerList = st.listenerList ∨
      (st.poolList = [] ∧ (stored.patched st).listenerList = stored.listenerList) := by
  unfold Status.patched
  split
  · rename_i hempty
    left
    rw [hempty]
  · cases hl : st.listeners with
    | some ls =>
      left
      simp [Status.overlay, Status.listenerList, hl]
    | none =>
      right
      constructor
      · cases hp : st.poolList with
        | nil => rfl
        | cons p ps =>
          have hlinked := hst.poolListener p (by rw [hp]; exact List.mem_cons_self)
          rw [Status.listenerList, hl] at hlinked
          exact absurd hlinked List.not_mem_nil
      · simp [Status.overlay, Status.listenerList, hl]

/-- **A patch keeps integrity** if what memory lacks is not stored. -/
theorem Status.Genuine.patched (hst : st.Genuine reg) (hstored : stored.Genuine reg)
    (h : st.Yields stored) : (stored.patched st).Genuine reg := by
  unfold Status.Genuine
  rw [poolList_patched h, memberList_patched h]
  rcases listenerList_patched stored hst with hl | ⟨hp, hl⟩
  · rw [hl]
    exact hst
  · have hst' := hst
    unfold Status.Genuine at hst'
    rw [hp] at hst' ⊢
    rw [hl, hst'.members_eq_nil]
    constructor
    · exact ⟨hstored.listenerIds, List.nodup_nil, List.nodup_nil, by simp, by simp⟩
    · simp
    · simp

end Patch

/-! ## The invariant -/

/-- The driver reports ids for what they stand for. -/
structure Registered (reg : Registry) (env : Env) : Prop where
  pool : ∀ w lb l id, (env.ensurePool w lb l).outcome = some (some id) → reg.listenerOf id = l.id
  member : ∀ w lb pool name ip subnet id,
    (env.ensureMember w lb pool name ip subnet).outcome = some (some id) →
      reg.targetOf id = (ip, name.port, pool.id)

/-- Every status stored so far has integrity. -/
def AlwaysIntegral (log : List Entry) : Prop := ∀ e ∈ log, e.stored.Integrity

/-- What every move of a pass keeps. -/
structure Consistent (reg : Registry) (w : World) : Prop where
  memory : w.crd.status.Genuine reg
  stored : w.stored.Genuine reg
  yields : w.crd.status.Yields w.stored
  /-- A load balancer at another address has no pools, here or in the store. -/
  address : w.crd.AtSpecIp ∨ w.crd.status.loadbalancer = none ∨
    (w.crd.status.poolList = [] ∧ w.stored.poolList = [])
  distinct : w.crd.spec.TargetsDistinct
  log : AlwaysIntegral w.log

variable {reg : Registry} {env : Env} {w w' : World}

theorem AlwaysIntegral.append {log : List Entry} {e : Entry} (h : AlwaysIntegral log)
    (he : e.stored.Integrity) : AlwaysIntegral (log ++ [e]) := by
  intro x hx
  rcases List.mem_append.mp hx with hx | hx
  · exact h x hx
  · rw [List.mem_singleton.mp hx]
    exact he

/-- Names do not matter to what is listed twice. -/
theorem targetsDistinct_of_keys {spec : Spec} {ports : List SpecPort}
    (hports : ports.map SpecPort.key = spec.ports.map SpecPort.key) (h : spec.TargetsDistinct) :
    Spec.TargetsDistinct { spec with ports := ports } := by
  have hclash : Clash ports = Clash spec.ports := by
    funext e e'
    unfold Clash
    rw [hports]
  show List.Pairwise (fun e e' => ¬ Clash ports e e') spec.entries
  rw [hclash]
  exact h

/-- **One move.** -/
theorem Consistent.move (h : Consistent reg w) (henv : Registered reg env)
    (hmove : Move env w w') : Consistent reg w' := by
  have hmem := h.memory
  have hyields := h.yields
  cases hmove with
  | call entry _ hstored =>
    rcases hstored with hs | hs
    · refine ⟨hmem, hs ▸ h.stored, hs ▸ hyields, hs ▸ h.address, h.distinct, h.log.append ?_⟩
      rw [hs]
      exact h.stored.toIntegral
    · have hempty : Status.Genuine reg {} := Genuine.nil
      refine ⟨hmem, hs ▸ hempty, ⟨fun _ => ?_, fun _ => ?_⟩, ?_, h.distinct, h.log.append ?_⟩
      · rw [hs]
        rfl
      · rw [hs]
        rfl
      · refine h.address.imp_right (Or.imp_right fun hp => ⟨hp.1, ?_⟩)
        rw [hs]
        rfl
      · rw [hs]
        exact hempty.toIntegral
  | patchApplied =>
    have hpatched := hmem.patched h.stored hyields
    refine ⟨hmem, hpatched, ⟨fun hp => ?_, fun hm => ?_⟩, ?_, h.distinct,
      h.log.append hpatched.toIntegral⟩
    · show (w.stored.patched w.crd.status).poolList = []
      rw [poolList_patched hyields, Status.poolList, show w.crd.status.pools = none from hp]
      rfl
    · show (w.stored.patched w.crd.status).memberList = []
      rw [memberList_patched hyields, Status.memberList, show w.crd.status.members = none from hm]
      rfl
    · refine h.address.imp_right (Or.imp_right fun hp => ⟨hp.1, ?_⟩)
      show (w.stored.patched w.crd.status).poolList = []
      rw [poolList_patched hyields]
      exact hp.1
  | patchRefused =>
    exact ⟨hmem, h.stored, hyields, h.address, h.distinct, h.log.append h.stored.toIntegral⟩
  | patchSecurityGroups sgs =>
    exact ⟨hmem, h.stored, ⟨hyields.pools, hyields.members⟩, h.address, h.distinct, h.log.append h.stored.toIntegral⟩
  | setSecurityGroups sgs =>
    refine ⟨hmem, h.stored, ⟨hyields.pools, hyields.members⟩, ?_, h.distinct, h.log⟩
    rcases h.address with hip | hnone | hpools
    · exact .inl (hip.setSecurityGroups sgs)
    · refine .inr (.inl ?_)
      show w.crd.status.loadbalancer.map _ = none
      rw [hnone]
      rfl
    · exact .inr (.inr hpools)
  | namePorts ports hports =>
    exact ⟨hmem, h.stored, hyields, h.address, targetsDistinct_of_keys hports h.distinct, h.log⟩
  | dropMembers removed _ =>
    exact ⟨hmem.dropMembers _, h.stored, ⟨hyields.pools, fun hn => (by cases hn)⟩, h.address,
      h.distinct, h.log⟩
  | dropPools removed _ =>
    refine ⟨hmem.dropPools removed, h.stored, ⟨fun hn => (by cases hn), fun hn => (by cases hn)⟩, ?_,
      h.distinct, h.log⟩
    refine h.address.imp_right (Or.imp_right fun hp => ⟨?_, hp.2⟩)
    show w.crd.status.poolList.filter _ = []
    rw [hp.1]
    rfl
  | dropListeners removed _ hunused =>
    exact ⟨hmem.dropListeners hunused, h.stored, ⟨hyields.pools, hyields.members⟩, h.address,
      h.distinct, h.log⟩
  | rebuild old lb hold hip hlb =>
    have hpools : w.stored.poolList = [] := by
      rcases h.address with hat | hnone | hpools
      · rw [Crd.AtSpecIp, hold] at hat
        exact absurd hat hip
      · rw [hold] at hnone
        cases hnone
      · exact hpools.2
    have hmembers : w.stored.memberList = [] := by
      have hstored := h.stored
      rw [Status.Genuine, hpools] at hstored
      exact hstored.members_eq_nil
    exact ⟨Genuine.nil, h.stored, ⟨fun _ => hpools, fun _ => hmembers⟩, .inl hlb, h.distinct, h.log⟩
  | build lb _ hlb =>
    exact ⟨hmem, h.stored, ⟨hyields.pools, hyields.members⟩, .inl hlb, h.distinct, h.log⟩
  | recordListener l hip =>
    exact ⟨hmem.recordListener l, h.stored, ⟨hyields.pools, hyields.members⟩, .inl hip, h.distinct,
      h.log⟩
  | addPool id l hip hl hreply hnew =>
    obtain ⟨w₁, lb, hreply⟩ := hreply
    have hreg := henv.pool w₁ lb l id hreply
    exact ⟨hmem.addPool hl hreg (hnew hmem.listenerIds), h.stored,
      ⟨fun hn => (by cases hn), hyields.members⟩, .inl hip, h.distinct, h.log⟩
  | addMember pool m hip hpool hm hreply hnew =>
    obtain ⟨w₁, lb, subnet, hreply, hport⟩ := hreply
    have hreg := henv.member w₁ lb pool m.name m.ip subnet m.id hreply
    rw [← hport, ← hm] at hreg
    exact ⟨hmem.addMember hpool hm hreg (hnew h.distinct hmem.poolIds), h.stored,
      ⟨hyields.pools, fun hn => (by cases hn)⟩, .inl hip, h.distinct, h.log⟩
  | setPubIp info hip =>
    exact ⟨hmem, h.stored, ⟨hyields.pools, hyields.members⟩, .inl hip, h.distinct, h.log⟩

/-! ## Runs -/

/-- A pass, on an object with the stored status. -/
structure Pass where
  ns : String
  name : String
  spec : Spec
  env : Env

/-- The world a pass starts in. -/
def Pass.start (p : Pass) (w : World) : World :=
  ⟨⟨p.ns, p.name, p.spec, w.stored⟩, w.stored, w.log⟩

/-- The world after a pass. -/
def Pass.done (p : Pass) (w : World) : World := after (syncLbaasMembers p.env) (p.start w)

/-- Passes one after the other, each with its own spec and its own failures, from an
empty status. -/
def passSystem (reg : Registry) : System World Pass where
  init := fun w => w.stored = {} ∧ w.log = []
  step := fun w p w' => Registered reg p.env ∧ w' = p.done w

/-- The spec lists no target twice, and if it moves the load balancer to another
address, no pool is stored. -/
def PassOk (w : World) (p : Pass) : Prop :=
  p.spec.TargetsDistinct ∧
    ∀ lb, w.stored.loadbalancer = some lb → some lb.ip ≠ p.spec.ip → w.stored.poolList = []

/-- Between passes. -/
structure Settled (reg : Registry) (w : World) : Prop where
  stored : w.stored.Genuine reg
  log : AlwaysIntegral w.log

theorem Settled.start (h : Settled reg w) {p : Pass} (hok : PassOk w p) :
    Consistent reg (p.start w) where
  memory := h.stored
  stored := h.stored
  yields := by
    constructor
    · intro hn
      show w.stored.pools.getD [] = []
      rw [show w.stored.pools = none from hn]
      rfl
    · intro hn
      show w.stored.members.getD [] = []
      rw [show w.stored.members = none from hn]
      rfl
  address := by
    cases hlb : w.stored.loadbalancer with
    | none => exact .inr (.inl hlb)
    | some lb =>
      by_cases hip : some lb.ip = p.spec.ip
      · left
        show w.stored.loadbalancer.map Balancer.ip = p.spec.ip
        rw [hlb]
        exact hip
      · exact .inr (.inr ⟨hok.2 lb hlb hip, hok.2 lb hlb hip⟩)
  distinct := hok.1
  log := h.log

/-- **One pass**, from where it starts to where it ends or raises. -/
theorem Consistent.pass (henv : Registered reg env) :
    Triple (Consistent reg) (syncLbaasMembers env) (fun _ => Settled reg)
      (fun e w => e ≠ .listenerLookup ∧ Settled reg w) := by
  intro w hw
  have hpath := Moves.invariant (I := Consistent reg) (path_syncLbaasMembers (c := w.crd))
    fun _ _ h hmove => h.move henv hmove
  refine (hpath.conseq (fun _ hs => hs) ?_ ?_) w ⟨hw, rfl⟩
  · intro _ t ht
    exact ⟨ht.1.stored, ht.1.log⟩
  · rintro e t ⟨u, hu, hstored, hlog, hlookup⟩
    refine ⟨fun he => hlookup he fun p hp => ?_, hstored ▸ hu.stored, hlog ▸ hu.log⟩
    exact lsnrById_ne_none (hu.memory.poolListener p hp)

theorem settled_of_reach (h : Reach (passSystem reg) PassOk w) : Settled reg w := by
  refine h.invariant ?_ ?_
  · rintro w ⟨hstored, hlog⟩
    refine ⟨?_, ?_⟩
    · rw [hstored]
      exact Genuine.nil
    · rw [hlog]
      exact fun e he => absurd he List.not_mem_nil
  · rintro w p w' hw hok ⟨henv, rfl⟩
    have hpass : Triple (Consistent reg) (syncLbaasMembers p.env) (fun _ => Settled reg)
        fun _ => Settled reg :=
      (Consistent.pass henv).conseq (fun _ hs => hs) (fun _ _ ht => ht) fun _ _ ht => ht.2
    exact after_of_triple hpass (hw.start hok)

/-- **Integrity of the stored status.** In every run whose passes meet `PassOk`, every
status ever stored has integrity, and no further pass fails in a lookup of
`lsnr_by_id`. -/
theorem stored_integrity {reg : Registry} {w : World} (h : Reach (passSystem reg) PassOk w) :
    AlwaysIntegral w.log ∧ w.stored.Integrity ∧
      ∀ p w', Registered reg p.env → PassOk w p →
        syncLbaasMembers p.env (p.start w) ≠ .error .listenerLookup w' := by
  have hw := settled_of_reach h
  refine ⟨hw.log, hw.stored.toIntegral, fun p w' henv hok hrun => ?_⟩
  have hpass := Consistent.pass henv (p.start w) (hw.start hok)
  rw [hrun] at hpass
  exact hpass.1 rfl

instance (listeners : List Listener) (pools : List Pool) (members : List Member) :
    Decidable (Integral listeners pools members) :=
  decidable_of_iff ((listeners.map Listener.id).Nodup ∧ (pools.map Pool.id).Nodup ∧
      (members.map Member.id).Nodup ∧ (∀ p ∈ pools, p.listenerId ∈ listeners.map Listener.id) ∧
      ∀ m ∈ members, m.poolId ∈ pools.map Pool.id)
    ⟨fun h => ⟨h.1, h.2.1, h.2.2.1, h.2.2.2.1, h.2.2.2.2⟩, fun h => ⟨h.1, h.2, h.3, h.4, h.5⟩⟩

instance (st : Status) : Decidable st.Integrity := inferInstanceAs (Decidable (Integral _ _ _))

instance (log : List Entry) : Decidable (AlwaysIntegral log) :=
  inferInstanceAs (Decidable (∀ e ∈ log, e.stored.Integrity))

/-- The ids of `calm`. -/
def calmRegistry : Registry := ⟨id, fun _ => ("10.0.0.5", 8080, "listener")⟩

theorem registered_calm : Registered calmRegistry calm where
  pool := by
    intro w lb l id h
    exact (Option.some.inj (Option.some.inj h)).symm
  member := by
    intro w lb pool name ip subnet id h
    have h := Option.some.inj h
    split at h
    · rename_i htarget
      exact htarget.symm
    · cases h

/-- `calm` after the load balancer was replaced: the new listener has its own id. -/
def calmAgain : Env :=
  { calm with ensureListener := fun _ _ _ => ⟨false, some (some ⟨"listener2", 0, 0, false⟩)⟩ }

theorem registered_calmAgain : Registered calmRegistry calmAgain :=
  ⟨registered_calm.pool, registered_calm.member⟩

/-- A pass over the example Service. -/
def webPass (ip : String) (slicePorts : List SlicePort) (env : Env) : Pass :=
  ⟨"default", "web", webSpec ip slicePorts, env⟩

/-- Before any pass. -/
def empty : World := ⟨⟨"default", "web", webSpec "10.1.0.1" [], {}⟩, {}, []⟩

theorem stored_integrity_first_pass :
    ((webPass "10.1.0.1" [⟨none, 8080⟩] calm).done empty).stored.memberList ≠ [] ∧
      AlwaysIntegral ((webPass "10.1.0.1" [⟨none, 8080⟩] calm).done empty).log := by
  refine ⟨by decide +kernel, (@stored_integrity calmRegistry _ ?_).1⟩
  refine Reach.step (.init ⟨rfl, rfl⟩) ⟨by decide +kernel, ?_⟩ ⟨registered_calm, rfl⟩
  intro lb hlb
  cases hlb

/-- A new address for a Service with pools: the listener of the new load balancer is
stored beside the pools of the old one. -/
theorem integrity_lost_new_ip :
    ∃ w, Reach (passSystem calmRegistry) (fun _ _ => True) w ∧ ¬ AlwaysIntegral w.log := by
  refine ⟨(webPass "10.1.0.2" [⟨none, 8080⟩] calmAgain).done
    ((webPass "10.1.0.1" [⟨none, 8080⟩] calm).done empty), ?_, by decide +kernel⟩
  refine Reach.step (Reach.step (.init ⟨rfl, rfl⟩) trivial ⟨registered_calm, rfl⟩) trivial
    ⟨registered_calmAgain, rfl⟩

-- the other defect: one target listed twice gives one member id twice
example : ¬ ((webPass "10.1.0.1" [⟨none, 8080⟩, ⟨none, 8080⟩] calm).done empty).stored.Integrity := by
  decide +kernel

end LoadBalancer

end KuryrKubernetes
