import KuryrKubernetes.Lib.Transition
import KuryrKubernetes.Handlers.LoadBalancerMoves

/-!
# The stored status and the one in memory

A patch creates and overwrites the keys of the status in memory and never drops a
key, so after it the two agree exactly if every stored key is also in memory
(`Status.Covers`, `Status.patched_eq`). All that the handler does to the status in
memory keeps its keys, with one exception: when the address of the Service changes
the status in memory starts afresh, and what was stored beside the load balancer
stays.

`presentSystem` runs `on_present` event after event, with any other writer of the
status in between. The run theorem holds under `EventOk`: the delivered object has
every stored key, and if its load balancer is at another address than the spec
wants, it has no key besides it.
-/

namespace KuryrKubernetes

namespace LoadBalancer

open Effect Transition

namespace Status

/-- Every key of the stored status is also in memory. -/
structure Covers (st stored : Status) : Prop where
  loadbalancer : stored.loadbalancer.isSome → st.loadbalancer.isSome
  listeners : stored.listeners.isSome → st.listeners.isSome
  pools : stored.pools.isSome → st.pools.isSome
  members : stored.members.isSome → st.members.isSome
  servicePubIpInfo : stored.servicePubIpInfo.isSome → st.servicePubIpInfo.isSome

/-- No key besides `loadbalancer`. -/
structure OnlyBalancer (st : Status) : Prop where
  listeners : st.listeners = none
  pools : st.pools = none
  members : st.members = none
  servicePubIpInfo : st.servicePubIpInfo = none

theorem Covers.refl (st : Status) : st.Covers st := ⟨id, id, id, id, id⟩

theorem covers_empty (st : Status) : st.Covers {} := by
  constructor <;> simp

theorem or_eq_left {α : Type} {a b : Option α} (h : b.isSome → a.isSome) : a.or b = a := by
  cases a with
  | some a => rfl
  | none =>
    cases b with
    | none => rfl
    | some b => cases h rfl

/-- A patch with all stored keys leaves what it was given. -/
theorem patched_eq {st stored : Status} (h : st.Covers stored) : stored.patched st = st := by
  unfold patched
  split
  · rename_i hempty
    exact hempty.symm
  · unfold overlay
    rw [or_eq_left h.loadbalancer, or_eq_left h.listeners, or_eq_left h.pools,
      or_eq_left h.members, or_eq_left h.servicePubIpInfo]

/-- New security groups keep the keys, on either side. -/
theorem isSome_setSecurityGroups (st : Status) (sgs : List String) :
    (st.setSecurityGroups sgs).loadbalancer.isSome = st.loadbalancer.isSome := by
  simp [setSecurityGroups]

end Status

/-! ## The invariant -/

/-- `_patch_status` calls that returned true left the status in memory. -/
def PatchesAgree (log : List Entry) : Prop :=
  ∀ e ∈ log, e.call = .patchStatus true → e.stored = e.status

/-- What every move of an event keeps. -/
structure Agreeing (w : World) : Prop where
  covers : w.crd.status.Covers w.stored
  /-- A load balancer at another address is still the only key. -/
  address : w.crd.AtSpecIp ∨ w.crd.status.OnlyBalancer ∨ w.crd.status.loadbalancer = none
  ip : w.crd.spec.ip.isSome
  log : PatchesAgree w.log

variable {env : Env} {w w' : World}

theorem PatchesAgree.append {log : List Entry} {e : Entry} (h : PatchesAgree log)
    (he : e.call = .patchStatus true → e.stored = e.status) : PatchesAgree (log ++ [e]) := by
  intro x hx
  rcases List.mem_append.mp hx with hx | hx
  · exact h x hx
  · rw [List.mem_singleton.mp hx]
    exact he

/-- A status with a second key is not in the way of a change of address. -/
theorem Agreeing.address_of_key (h : Agreeing w) (hkey : ¬ w.crd.status.OnlyBalancer)
    {st : Status} (hst : st.loadbalancer = w.crd.status.loadbalancer) :
    Crd.AtSpecIp { w.crd with status := st } ∨ st.OnlyBalancer ∨ st.loadbalancer = none := by
  rcases h.address with hip | honly | hnone
  · left
    show st.loadbalancer.map Balancer.ip = w.crd.spec.ip
    rw [hst]
    exact hip
  · exact absurd honly hkey
  · exact .inr (.inr (hst.trans hnone))

/-- **One move.** Only the reset shrinks the status in memory, and it is reached with
no second key. -/
theorem Agreeing.move (h : Agreeing w) (hmove : Move env w w') : Agreeing w' := by
  have hcov := h.covers
  cases hmove with
  | call entry hcall hstored =>
    refine ⟨?_, h.address, h.ip, h.log.append fun hc => absurd hc (hcall true)⟩
    show w.crd.status.Covers entry.stored
    rcases hstored with hs | hs
    · rw [hs]
      exact hcov
    · rw [hs]
      exact Status.covers_empty _
  | patchApplied =>
    refine ⟨?_, h.address, h.ip, h.log.append fun _ => Status.patched_eq hcov⟩
    show w.crd.status.Covers (w.stored.patched w.crd.status)
    rw [Status.patched_eq hcov]
    exact .refl _
  | patchRefused =>
    exact ⟨hcov, h.address, h.ip, h.log.append fun hc => by cases hc⟩
  | patchSecurityGroups sgs =>
    refine ⟨⟨?_, hcov.2, hcov.3, hcov.4, hcov.5⟩, h.address, h.ip,
      h.log.append fun hc => by cases hc⟩
    intro hs
    exact hcov.1 ((Status.isSome_setSecurityGroups w.stored sgs).symm.trans hs)
  | setSecurityGroups sgs =>
    refine ⟨⟨?_, hcov.2, hcov.3, hcov.4, hcov.5⟩, ?_, h.ip, h.log⟩
    · intro hs
      exact (Status.isSome_setSecurityGroups w.crd.status sgs).trans (hcov.1 hs)
    · rcases h.address with hip | honly | hnone
      · exact .inl (hip.setSecurityGroups sgs)
      · exact .inr (.inl ⟨honly.1, honly.2, honly.3, honly.4⟩)
      · refine .inr (.inr ?_)
        show w.crd.status.loadbalancer.map _ = none
        rw [hnone]
        rfl
  | namePorts ports _ => exact ⟨hcov, h.address, h.ip, h.log⟩
  | dropMembers removed hne =>
    refine ⟨⟨hcov.1, hcov.2, hcov.3, fun _ => rfl, hcov.5⟩, ?_, h.ip, h.log⟩
    refine h.address_of_key (fun honly => hne ?_) rfl
    rw [Status.memberList, honly.members]
    rfl
  | dropPools removed hne =>
    refine ⟨⟨hcov.1, hcov.2, fun _ => rfl, fun _ => rfl, hcov.5⟩, ?_, h.ip, h.log⟩
    refine h.address_of_key (fun honly => hne ?_) rfl
    rw [Status.poolList, honly.pools]
    rfl
  | dropListeners removed hne _ =>
    refine ⟨⟨hcov.1, fun _ => rfl, hcov.3, hcov.4, hcov.5⟩, ?_, h.ip, h.log⟩
    refine h.address_of_key (fun honly => hne ?_) rfl
    rw [Status.listenerList, honly.listeners]
    rfl
  | rebuild old lb hold hip hlb =>
    have honly : w.crd.status.OnlyBalancer := by
      rcases h.address with hat | honly | hnone
      · rw [Crd.AtSpecIp, hold] at hat
        exact absurd hat hip
      · exact honly
      · rw [hold] at hnone
        cases hnone
    refine ⟨⟨fun _ => ?_, fun hs => ?_, fun hs => ?_, fun hs => ?_, fun hs => ?_⟩, .inl hlb, h.ip,
      h.log⟩
    · have hsome := h.ip
      rw [← hlb, Option.isSome_map] at hsome
      exact hsome
    · simpa [honly.listeners] using hcov.2 hs
    · simpa [honly.pools] using hcov.3 hs
    · simpa [honly.members] using hcov.4 hs
    · simpa [honly.servicePubIpInfo] using hcov.5 hs
  | build lb hnone hlb =>
    refine ⟨⟨fun hs => ?_, hcov.2, hcov.3, hcov.4, hcov.5⟩, .inl hlb, h.ip, h.log⟩
    simpa [hnone] using hcov.1 hs
  | recordListener l hip =>
    exact ⟨⟨hcov.1, fun _ => rfl, hcov.3, hcov.4, hcov.5⟩, .inl hip, h.ip, h.log⟩
  | addPool id l hip _ _ _ =>
    exact ⟨⟨hcov.1, hcov.2, fun _ => rfl, hcov.4, hcov.5⟩, .inl hip, h.ip, h.log⟩
  | addMember pool m hip _ _ _ _ =>
    exact ⟨⟨hcov.1, hcov.2, hcov.3, fun _ => rfl, hcov.5⟩, .inl hip, h.ip, h.log⟩
  | setPubIp info hip =>
    exact ⟨⟨hcov.1, hcov.2, hcov.3, hcov.4, fun _ => rfl⟩, .inl hip, h.ip, h.log⟩

/-! ## Runs -/

/-- An event, with the object as it was delivered and the world it is handled in. -/
structure Delivery where
  ns : String
  name : String
  spec : Spec
  status : Option Status
  env : Env

/-- What happens to the stored status: an event is handled, or another client
writes it. -/
inductive Activity where
  | present (d : Delivery)
  | write (st : Status)

/-- The world after an event. -/
def Delivery.handled (d : Delivery) (w : World) : World :=
  after (onPresent d.env d.status) ⟨⟨d.ns, d.name, d.spec, {}⟩, w.stored, w.log⟩

/-- Events handled one after the other, from any stored status. -/
def presentSystem : System World Activity where
  init := fun w => w.log = []
  step := fun w a w' => match a with
    | .present d => w' = d.handled w
    | .write st => w' = { w with stored := st }

/-- The delivered status has every stored key, and no key besides its load balancer
if that is not at the address of the spec. -/
def EventOk (w : World) : Activity → Prop
  | .present d => ∀ st, d.status = some st → st.Covers w.stored ∧
      ∀ lb, st.loadbalancer = some lb → some lb.ip ≠ d.spec.ip → st.OnlyBalancer
  | .write _ => True

theorem log_after_call {α : Type} (cl : Call) (reply : World → Reply α) :
    ∃ e, e.call = cl ∧ (after (call cl reply) w).log = w.log ++ [e] := by
  unfold after call
  cases (reply w).outcome with
  | some a => exact ⟨_, rfl, rfl⟩
  | none => exact ⟨_, rfl, rfl⟩

/-- Everything `on_present` does from an agreeing world keeps the log in order, also
when it raises. -/
theorem patchesAgree_syncPresent (h : Agreeing w) :
    PatchesAgree (after (syncPresent env) w).log := by
  have hpath := Moves.invariant (I := Agreeing) (@path_syncPresent env w.crd)
    fun _ _ => Agreeing.move
  refine after_of_triple (Q := fun t => PatchesAgree t.log)
    (hpath.conseq (fun _ hs => hs) ?_ ?_) ⟨h, rfl⟩
  · intro _ t ht
    exact ht.1.log
  · rintro e t ⟨u, hu, hhalt⟩
    show PatchesAgree t.log
    rw [← hhalt.2.1]
    exact hu.log

theorem syncPresent_of_ignore (h : shouldIgnore w.crd = true) :
    after (syncPresent env) w = w := by
  have hrun : syncPresent env w = .ok () w := by
    show (if shouldIgnore w.crd = true then _ else _ : Handler Unit) w = _
    rw [if_pos h]
    rfl
  rw [after, hrun]

/-- **One event.** -/
theorem patchesAgree_handled {d : Delivery} (hlog : PatchesAgree w.log)
    (hok : EventOk w (.present d)) : PatchesAgree (d.handled w).log := by
  unfold Delivery.handled
  cases hst : d.status with
  | none =>
    obtain ⟨e, he, hlog'⟩ := log_after_call (w := ⟨⟨d.ns, d.name, d.spec, {}⟩, w.stored, w.log⟩)
      .resetStatus d.env.cleanLbCrdStatus
    show PatchesAgree (after (call .resetStatus d.env.cleanLbCrdStatus) _).log
    rw [hlog']
    exact hlog.append fun h => by rw [he] at h; cases h
  | some st =>
    obtain ⟨hcov, haddress⟩ := hok st hst
    show PatchesAgree (after (syncPresent d.env) ⟨⟨d.ns, d.name, d.spec, st⟩, w.stored, w.log⟩).log
    by_cases hignore : shouldIgnore ⟨d.ns, d.name, d.spec, st⟩ = true
    · rw [syncPresent_of_ignore hignore]
      exact hlog
    · refine patchesAgree_syncPresent ⟨hcov, ?_, ?_, hlog⟩
      · cases hlb : st.loadbalancer with
        | none => exact .inr (.inr rfl)
        | some lb =>
          by_cases hip : some lb.ip = d.spec.ip
          · left
            show st.loadbalancer.map Balancer.ip = d.spec.ip
            rw [hlb]
            exact hip
          · exact .inr (.inl (haddress lb hlb hip))
      · rw [shouldIgnore, Bool.or_eq_true, not_or] at hignore
        simpa [Option.isSome_iff_ne_none] using hignore.2

/-- **Stored and in-memory status agree.** In every run whose events meet `EventOk`,
each `_patch_status` that returned true left the status in memory stored. -/
theorem patches_agree {w : World} (h : Reach presentSystem EventOk w) : PatchesAgree w.log := by
  refine h.invariant (I := fun w => PatchesAgree w.log) ?_ ?_
  · intro w hw e he
    rw [hw] at he
    cases he
  · intro w a w' hlog hok hstep
    cases a with
    | present d =>
      rw [show w' = d.handled w from hstep]
      exact patchesAgree_handled hlog hok
    | write st =>
      rw [show w' = { w with stored := st } from hstep]
      exact hlog

instance (log : List Entry) : Decidable (PatchesAgree log) :=
  inferInstanceAs (Decidable (∀ e ∈ log, _))

/-- A Service with one port, as delivered with the given status. -/
def serviceAt (ip : String) (status : Status) : Delivery :=
  ⟨"default", "web", webSpec ip [⟨none, 8080⟩], some status, calm⟩

theorem reach_handled {ok : World → Activity → Prop} {d : Delivery}
    (h : Reach presentSystem ok w) (hok : ok w (.present d)) :
      Reach presentSystem ok (d.handled w) :=
  h.step hok rfl

/-- Before any event. -/
def untouched : World := ⟨⟨"default", "web", webSpec "10.1.0.1" [], {}⟩, {}, []⟩

theorem patches_agree_first_event :
    (∃ e ∈ ((serviceAt "10.1.0.1" {}).handled untouched).log, e.call = .patchStatus true) ∧
      PatchesAgree ((serviceAt "10.1.0.1" {}).handled untouched).log := by
  refine ⟨by decide +kernel, patches_agree (reach_handled (.init rfl) ?_)⟩
  rintro st h
  cases h
  exact ⟨.refl _, fun lb h => by cases h⟩

/-- A change of the address of the Service, delivered with the stored status: the
new load balancer is stored beside the listeners of the old one. -/
theorem patches_disagree_new_ip :
    ∃ w, Reach presentSystem (fun _ _ => True) w ∧ ¬ PatchesAgree w.log := by
  have hfirst : Reach presentSystem (fun _ _ => True)
    ((serviceAt "10.1.0.1" {}).handled untouched) :=
    reach_handled (.init rfl) trivial
  refine ⟨_, reach_handled (d := serviceAt "10.1.0.2"
    ((serviceAt "10.1.0.1" {}).handled untouched).stored) hfirst trivial, ?_⟩
  decide +kernel

end LoadBalancer

end KuryrKubernetes
