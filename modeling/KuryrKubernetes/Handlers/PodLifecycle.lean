import Mathlib.Logic.Function.Basic
import KuryrKubernetes.Handlers.KuryrPort
import KuryrKubernetes.Lib.Transition

/-!
# The life of a pod

`VIFHandler` (`controller/handlers/vif.py`) makes a KuryrPort for a pod and deletes it with the
pod; `KuryrPortHandler` (`controller/handlers/kuryrport.py`) gets the VIFs of a KuryrPort,
records them in its status, and gives them back before it lets KuryrPort and pod go.

`system` is any interleaving of the two for one pod name. A step is one request to the API
server together with what the handler does until its next one.

- `StoredPod`, `StoredKuryrPort`: what the API server has under the name; both are also what an
  event carries, as it was when the event was made.
- `VifCall`: a call of `VIFHandler` with some version of the pod. Any number of them are under
  way, for the pods that had the name.
- `Group`: the events of one KuryrPort. A worker handles one at a time, and passes over those
  that a later one has overtaken (`Async._run`).
- `State.out`: the ports that have been obtained from the pools and not been released since.

KuryrPorts are internal to Kuryr: others may delete and write them, but do not touch their
status and finalizers.
-/

namespace KuryrKubernetes

namespace PodLifecycle

open Dicts Transition

/-! ## What the API server has -/

structure StoredPod where
  uid : String
  hostNetwork : Bool
  /-- `_is_pod_scheduled`. -/
  scheduled : Bool
  /-- `is_pod_completed`. -/
  completed : Bool
  deleting : Bool
  /-- `POD_FINALIZER` is there. -/
  finalizer : Bool
deriving DecidableEq, Repr

structure StoredKuryrPort where
  uid : String
  podUid : String
  deleting : Bool
  /-- `KURYRPORT_FINALIZER` is there. -/
  finalizer : Bool
  /-- `status.vifs`. -/
  vifs : Dict String VifEntry
deriving DecidableEq, Repr

/-- The ports of some VIFs. -/
def portsOf (vifs : Dict String VifEntry) : List PortId := (vifsOf vifs).map Vif.id

/-! ## Calls -/

/-- The next request of a call of `VIFHandler`. -/
inductive VifPc where
  /-- `on_present`, behind the checks. -/
  | addFinalizer | getKuryrPort | addKuryrPort
  /-- `on_finalize`. -/
  | findKuryrPort | annotate | delete | removeFinalizer
deriving DecidableEq, Repr

structure VifCall where
  pod : StoredPod
  pc : VifPc
deriving DecidableEq, Repr

/-- The next request of a call of `KuryrPortHandler`. -/
inductive Pc where
  /-- `get_vifs`: GET of the pod; DELETE of a KuryrPort without one; the requests to the
  drivers; the patch of the status, with the VIFs obtained. -/
  | getVifs | orphaned | requesting
  | patching (vifs : Dict String VifEntry) (obtained : List Vif)
  /-- `on_present` for a KuryrPort with VIFs. -/
  | activating
  /-- `on_finalize`: GET of the pod; the releases, and then the finalizer of the pod; the
  finalizer of the KuryrPort. -/
  | finalizing
  | releasing (cleanup : Bool) (rest : List Vif)
  | crdFinalizer
  /-- An exception has left the handler. -/
  | raised
deriving DecidableEq, Repr

structure Call where
  crd : StoredKuryrPort
  pc : Pc
deriving DecidableEq, Repr

/-- `ResourceEventHandler.__call__` and the first test of `on_present`. -/
def Call.start (crd : StoredKuryrPort) : Call :=
  ⟨crd, if crd.deleting then .finalizing else if crd.vifs.items = [] then .getVifs
    else .activating⟩

/-- The events of a KuryrPort that nobody has handled, and the call under way. -/
structure Group where
  queue : List StoredKuryrPort
  call : Option Call
deriving DecidableEq, Repr

structure State where
  pod : Option StoredPod
  crd : Option StoredKuryrPort
  /-- Every version of every pod of the name. -/
  podLog : List StoredPod
  /-- The uids of all KuryrPorts of the name. -/
  crdUids : List String
  vifCalls : List VifCall
  groups : String → Group
  out : List PortId

/-! ## Requests -/

/-- A write of the pod. -/
def State.writePod (s : State) (pod : StoredPod) : State :=
  { s with pod := some pod, podLog := s.podLog ++ [pod] }

def State.editPod (s : State) (f : StoredPod → StoredPod) : State :=
  match s.pod with
  | some pod => s.writePod (f pod)
  | none => s

/-- The event of the KuryrPort as it is. -/
def State.notify (s : State) : State :=
  match s.crd with
  | some k =>
    let g := s.groups k.uid
    { s with groups := Function.update s.groups k.uid { g with queue := g.queue ++ [k] } }
  | none => s

def State.writeCrd (s : State) (k : StoredKuryrPort) : State := { s with crd := some k }.notify

/-- DELETE of the KuryrPort. -/
def State.deleteCrd (s : State) : State :=
  match s.crd with
  | none => s
  | some k =>
    if ¬ k.finalizer then { s with crd := none }
    else if k.deleting then s
    else s.writeCrd { k with deleting := true }

/-- `remove_finalizer` of the KuryrPort, where it takes effect. It looks for the name. -/
def State.freeCrd (s : State) : State :=
  match s.crd with
  | none => s
  | some k =>
    if k.deleting then { s with crd := none }
    else if k.finalizer then s.writeCrd { k with finalizer := false }
    else s

/-- `_update_kuryrport_crd`, where it takes effect: it replaces `status.vifs`. -/
def State.patchVifs (s : State) (vifs : Dict String VifEntry) : State :=
  match s.crd with
  | none => s
  | some k => s.writeCrd { k with vifs := vifs }

def State.setCall (s : State) (u : String) (call : Option Call) : State :=
  { s with groups := Function.update s.groups u { s.groups u with call := call } }

def State.setPc (s : State) (u : String) (c : Call) (pc : Pc) : State :=
  s.setCall u (some { c with pc := pc })

def State.obtain (s : State) (vifs : List Vif) : State :=
  { s with out := s.out ++ vifs.map Vif.id }

def State.release (s : State) (vifs : List Vif) : State :=
  { s with out := s.out.filter (· ∉ vifs.map Vif.id) }

/-! ## Steps of `VIFHandler` -/

/-- `__call__` and the checks of `on_present`, up to the one for the KuryrNetwork; `none` when
the event is ignored. -/
def VifCall.start (pod : StoredPod) : Option VifCall :=
  if pod.deleting then some ⟨pod, .findKuryrPort⟩
  else if pod.hostNetwork then none
  else if pod.completed then some ⟨pod, .findKuryrPort⟩
  else if pod.scheduled then some ⟨pod, .addFinalizer⟩
  else none

def State.setVifCall (s : State) (i : Nat) (c : VifCall) (pc : VifPc) : State :=
  { s with vifCalls := s.vifCalls.set i { c with pc := pc } }

def State.endVifCall (s : State) (i : Nat) : State :=
  { s with vifCalls := s.vifCalls.eraseIdx i }

/-- The next request of the `i`-th call, when it succeeds; a new KuryrPort gets the uid `uid`.
All requests go by the name, whose pod and KuryrPort need not be those of the call. -/
def vifStep (s : State) (i : Nat) (c : VifCall) (uid : String) : Option State :=
  match c.pc with
  | .addFinalizer =>
    if c.pod.finalizer then some (s.setVifCall i c .getKuryrPort)
    else match s.pod with
      | some pod =>
        if pod.deleting then none
        else some ((s.writePod { pod with finalizer := true }).setVifCall i c .getKuryrPort)
      | none => none
  | .getKuryrPort =>
    some (if s.crd.isSome then s.endVifCall i else s.setVifCall i c .addKuryrPort)
  | .addKuryrPort =>
    if s.crd = none ∧ uid ∉ s.crdUids then
      some ({ s with crdUids := s.crdUids ++ [uid] }.writeCrd
        ⟨uid, c.pod.uid, false, true, Dict.empty⟩ |>.endVifCall i)
    else none
  | .findKuryrPort =>
    some (s.setVifCall i c (match s.crd with
      | none => .removeFinalizer
      | some k => if k.deleting then .annotate else .delete))
  | .annotate =>
    some (if s.crd.isSome then s.notify.endVifCall i else s.setVifCall i c .removeFinalizer)
  | .delete =>
    some (if s.crd.isSome then s.deleteCrd.endVifCall i else s.setVifCall i c .removeFinalizer)
  | .removeFinalizer =>
    some ((s.editPod fun pod => { pod with finalizer := false }).endVifCall i)

/-! ## Steps of `KuryrPortHandler` -/

/-- The part of `get_vifs` between the GET of the pod and the patch: the interfaces, if the
event is not ignored, and the VIFs obtained. -/
def requestVifs (q : Acquisition) (uid : String) :
    Except Exc (Option (Dict String VifEntry)) × List Vif :=
  match { q with podUid := .ok uid, wantedUid := uid }.requestMain with
  | .error e => (.error e, [])
  | .ok none => (.ok none, [])
  | .ok (some main) =>
    let (r, obtained) := q.requestAll q.drivers 0 (Dict.empty.set defaultIfname ⟨true, main⟩) [main]
    (r.map some, obtained)

/-- The VIFs a rollback has released; the one it fails on it has not. -/
def rolledBack (q : Acquisition) (vifs : Dict String VifEntry) : List Vif :=
  match q.rollback 0 (vifsOf vifs) with
  | (.ok (), released) => released
  | (.error _, released) => released.dropLast

/-- What `on_present` comes to for a KuryrPort with VIFs: there is nothing to activate; the
status is patched; or the KuryrPort is gone, and the first `n` VIFs are released. -/
inductive Activation where
  | unchanged
  | patched (raises : Bool)
  | gone (n : Nat) (raises : Bool)
deriving DecidableEq, Repr

/-- The steps of a call. A request that fails has no effect, the patch of the status apart:
there, `applied` says whether the server has made the change all the same. -/
inductive Request where
  | readPod
  | orphan (applied : Bool)
  | request (q : Acquisition)
  | patch (q : Acquisition) (applied : Bool)
  | activate (a : Activation)
  | release (ok : Bool)
  | freePod (applied : Bool)
  | freeCrd (applied : Bool)
  | raise
  /-- `Retry` calls the handler again, or does not. -/
  | again | giveUp

/-- The pod of the name has this uid. -/
def State.hasPod (s : State) (uid : String) : Bool :=
  match s.pod with
  | some pod => pod.uid = uid
  | none => false

/-- The pod with this uid is there, neither deleted nor completed. -/
def State.running (s : State) (uid : String) : Bool :=
  match s.pod with
  | some pod => pod.uid = uid ∧ ¬ pod.deleting ∧ ¬ pod.completed
  | none => false

/-- The end of a call. -/
def State.finish (s : State) (u : String) (c : Call) (raises : Bool) : State :=
  if raises then s.setPc u c .raised else s.setCall u none

def callStep (s : State) (u : String) (c : Call) : Request → Option State
  | .readPod =>
    match c.pc with
    | .getVifs =>
      some (s.setPc u c (if s.hasPod c.crd.podUid then .requesting else .orphaned))
    | .finalizing =>
      if s.running c.crd.podUid then some (s.setCall u none)
      else if s.hasPod c.crd.podUid then
        some (s.setPc u c (.releasing false (vifsOf c.crd.vifs)))
      else if c.crd.vifs.items = [] then some (s.setPc u c .crdFinalizer)
      else some (s.setPc u c (.releasing true (vifsOf c.crd.vifs)))
    | _ => none
  | .orphan applied =>
    match c.pc with
    | .orphaned => some ((if applied then s.deleteCrd else s).setCall u none)
    | _ => none
  | .request q =>
    match c.pc with
    | .requesting =>
      match requestVifs q c.crd.podUid with
      | (.error _, obtained) => some ((s.obtain obtained).setPc u c .raised)
      | (.ok none, obtained) => some ((s.obtain obtained).setCall u none)
      | (.ok (some vifs), obtained) =>
        some ((s.obtain obtained).setPc u c (.patching vifs obtained))
    | _ => none
  | .patch q applied =>
    match c.pc with
    | .patching vifs _ =>
      match q.patch with
      | .ok () =>
        if s.crd.isSome then
          some ((s.patchVifs vifs).finish u c q.event.toOption.isNone)
        else none
      | .error e =>
        let s := if applied then s.patchVifs vifs else s
        if e.isK8sClient then
          some ((s.release (rolledBack q vifs)).finish u c
            ((q.rollback 0 (vifsOf vifs)).1.bind fun _ => q.event).toOption.isNone)
        else some (s.finish u c true)
    | _ => none
  | .activate a =>
    match c.pc with
    | .activating =>
      match a with
      | .unchanged => some (s.finish u c false)
      | .patched raises =>
        if s.crd.isSome then some ((s.patchVifs c.crd.vifs).finish u c raises) else none
      | .gone n raises =>
        if s.crd.isSome then none
        else some ((s.release ((vifsOf c.crd.vifs).take n)).finish u c raises)
    | _ => none
  | .release ok =>
    match c.pc with
    | .releasing cleanup (vif :: rest) =>
      if ok then some ((s.release [vif]).setPc u c (.releasing cleanup rest))
      else if cleanup then some (s.setPc u c (.releasing cleanup rest))
      else none
    | _ => none
  | .freePod applied =>
    match c.pc with
    | .releasing cleanup [] =>
      some ((if applied ∧ ¬ cleanup then s.editPod fun pod => { pod with finalizer := false }
        else s).setPc u c .crdFinalizer)
    | _ => none
  | .freeCrd applied =>
    match c.pc with
    | .crdFinalizer => some ((if applied then s.freeCrd else s).setCall u none)
    | _ => none
  | .raise => if c.pc = .raised then none else some (s.setPc u c .raised)
  | .again => if c.pc = .raised then some (s.setCall u (some (.start c.crd))) else none
  | .giveUp => if c.pc = .raised then some (s.setCall u none) else none

/-! ## The system -/

inductive Act where
  | createPod (uid : String) (hostNetwork : Bool)
  | schedulePod | completePod | deletePod
  /-- The pod is gone: for lack of finalizers, or by force. -/
  | losePod
  /-- Somebody else deletes or writes the KuryrPort, or the watch repeats its event. -/
  | deleteCrd | touchCrd
  | vifEvent (pod : StoredPod)
  | vifStep (i : Nat) (uid : String)
  /-- A call of `VIFHandler` returns or raises. -/
  | vifEnd (i : Nat)
  /-- The worker of a KuryrPort passes over `n` events and handles the next one. -/
  | take (u : String) (n : Nat)
  | call (u : String) (r : Request)

def step (s : State) : Act → Option State
  | .createPod uid hostNetwork =>
    if s.pod = none ∧ uid ∉ s.podLog.map StoredPod.uid then
      some (s.writePod ⟨uid, hostNetwork, false, false, false, false⟩)
    else none
  | .schedulePod => some (s.editPod fun pod => { pod with scheduled := true })
  | .completePod =>
    some (s.editPod fun pod => { pod with scheduled := false, completed := true })
  | .deletePod => some (s.editPod fun pod => { pod with deleting := true })
  | .losePod => some { s with pod := none }
  | .deleteCrd => some s.deleteCrd
  | .touchCrd => some s.notify
  | .vifEvent pod =>
    if pod ∈ s.podLog then
      (VifCall.start pod).map fun c => { s with vifCalls := s.vifCalls ++ [c] }
    else none
  | .vifStep i uid => s.vifCalls[i]?.bind fun c => vifStep s i c uid
  | .vifEnd i => if i < s.vifCalls.length then some (s.endVifCall i) else none
  | .take u n =>
    match (s.groups u).call, (s.groups u).queue.drop n with
    | none, k :: rest =>
      some { s with groups := Function.update s.groups u ⟨rest, some (.start k)⟩ }
    | _, _ => none
  | .call u r => (s.groups u).call.bind fun c => callStep s u c r

def State.empty : State :=
  { pod := none, crd := none, podLog := [], crdUids := [], vifCalls := []
    groups := fun _ => ⟨[], none⟩, out := [] }

def system : System State Act where
  init s := s = State.empty
  step s a s' := step s a = some s'

/-! ## What every run keeps -/

/-- An event of the group `u` that is not done with. -/
def State.Pending (s : State) (u : String) (e : StoredKuryrPort) : Prop :=
  e ∈ (s.groups u).queue ∨ ∃ c, (s.groups u).call = some c ∧ c.crd = e

def State.podUids (s : State) : List String := s.podLog.map StoredPod.uid

/-- Events are filed under their KuryrPort, and tell what is still true of it: the pod it is
for, and that it is being deleted. Pods and KuryrPorts are all known. -/
structure Filed (s : State) : Prop where
  pod_known : ∀ p, s.pod = some p → p.uid ∈ s.podUids
  vif_known : ∀ c ∈ s.vifCalls, c.pod.uid ∈ s.podUids
  crd_known : ∀ k, s.crd = some k → k.uid ∈ s.crdUids ∧ k.podUid ∈ s.podUids
  filed : ∀ u e, s.Pending u e → e.uid = u ∧ u ∈ s.crdUids ∧ e.podUid ∈ s.podUids
  same : ∀ u e k, s.Pending u e → s.crd = some k → k.uid = u →
    e.podUid = k.podUid ∧ (e.deleting = true → k.deleting = true)

section Frames

variable {s : State} {u v : String} {e k : StoredKuryrPort}

/-- Nothing but the pods has changed, of which more may be known. -/
theorem Filed.of_pods {s' : State} (h : Filed s) (hcrd : s'.crd = s.crd)
    (huids : s'.crdUids = s.crdUids) (hgroups : s'.groups = s.groups)
    (hlog : ∀ uid ∈ s.podUids, uid ∈ s'.podUids)
    (hpod : ∀ p, s'.pod = some p → p.uid ∈ s'.podUids)
    (hvif : ∀ c ∈ s'.vifCalls, c.pod.uid ∈ s'.podUids) : Filed s' where
  pod_known := hpod
  vif_known := hvif
  crd_known k hk := by
    obtain ⟨huid, hp⟩ := h.crd_known k (hcrd ▸ hk)
    exact ⟨huids ▸ huid, hlog _ hp⟩
  filed u e he := by
    have he' : s.Pending u e := by
      unfold State.Pending at he ⊢
      rwa [hgroups] at he
    obtain ⟨hu, huid, hp⟩ := h.filed u e he'
    exact ⟨hu, huids ▸ huid, hlog _ hp⟩
  same u e k he hk := by
    have he' : s.Pending u e := by
      unfold State.Pending at he ⊢
      rwa [hgroups] at he
    exact h.same u e k he' (hcrd ▸ hk)

/-- The events of the groups have become fewer. -/
theorem Filed.of_fewer {s' : State} (h : Filed s) (hpod : s'.pod = s.pod)
    (hlog : s'.podLog = s.podLog) (hvif : s'.vifCalls = s.vifCalls)
    (huids : s'.crdUids = s.crdUids) (hcrd : ∀ k, s'.crd = some k → s.crd = some k)
    (hpending : ∀ u e, s'.Pending u e → s.Pending u e) : Filed s' where
  pod_known p hp := by
    rw [State.podUids, hlog]
    exact h.pod_known p (hpod ▸ hp)
  vif_known c hc := by
    rw [State.podUids, hlog]
    exact h.vif_known c (hvif ▸ hc)
  crd_known k hk := by
    rw [State.podUids, hlog, huids]
    exact h.crd_known k (hcrd k hk)
  filed u e he := by
    rw [State.podUids, hlog, huids]
    exact h.filed u e (hpending u e he)
  same u e k he hk := h.same u e k (hpending u e he) (hcrd k hk)

theorem pending_writeCrd (h : (s.writeCrd k).Pending u e) : s.Pending u e ∨ (u = k.uid ∧ e = k) := by
  unfold State.Pending State.writeCrd State.notify at h
  dsimp only at h
  by_cases hu : u = k.uid
  · subst hu
    rw [Function.update_self] at h
    rcases h with h | h
    · rcases List.mem_append.mp h with h | h
      · exact .inl (.inl h)
      · exact .inr ⟨rfl, List.mem_singleton.mp h⟩
    · exact .inl (.inr h)
  · rw [Function.update_of_ne hu] at h
    exact .inl h

/-- A write of the KuryrPort that keeps its uid, its pod and its deletion. -/
theorem Filed.writeCrd {k' : StoredKuryrPort} (h : Filed s) (hk : s.crd = some k)
    (huid : k'.uid = k.uid) (hpod : k'.podUid = k.podUid)
    (hdel : k.deleting = true → k'.deleting = true) : Filed (s.writeCrd k') where
  pod_known := h.pod_known
  vif_known := h.vif_known
  crd_known k₁ hk₁ := by
    cases hk₁
    rw [huid, hpod]
    exact h.crd_known k hk
  filed u e he := by
    rcases pending_writeCrd he with he | ⟨rfl, rfl⟩
    · exact h.filed u e he
    · rw [huid, hpod]
      exact ⟨rfl, h.crd_known k hk⟩
  same u e k₁ he hk₁ hu := by
    cases hk₁
    rcases pending_writeCrd he with he | ⟨rfl, rfl⟩
    · obtain ⟨hp, hd⟩ := h.same u e k he hk (huid ▸ hu)
      exact ⟨hp.trans hpod.symm, fun h => hdel (hd h)⟩
    · exact ⟨rfl, id⟩

theorem pending_setCall {call : Option Call} (h : (s.setCall v call).Pending u e) :
    s.Pending u e ∨ (u = v ∧ ∃ c, call = some c ∧ c.crd = e) := by
  unfold State.Pending State.setCall at h
  dsimp only at h
  by_cases hu : u = v
  · subst hu
    rw [Function.update_self] at h
    exact h.elim (fun h => .inl (.inl h)) fun h => .inr ⟨rfl, h⟩
  · rw [Function.update_of_ne hu] at h
    exact .inl h

/-- A call goes on with its own event. -/
theorem Filed.setCall {call : Option Call} (h : Filed s)
    (hcall : ∀ c, call = some c → s.Pending u c.crd) : Filed (s.setCall u call) :=
  h.of_fewer rfl rfl rfl rfl (fun _ hk => hk) fun v e he => by
    rcases pending_setCall he with he | ⟨rfl, c, hc, rfl⟩
    · exact he
    · exact hcall c hc

/-- A call goes on with its own event, or ends. -/
theorem Filed.advance {c : Call} {call : Option Call} (h : Filed s)
    (hc : (s.groups u).call = some c) (hcall : ∀ c', call = some c' → c'.crd = c.crd) :
    Filed (s.setCall u call) :=
  h.setCall fun c' hc' => .inr ⟨c, hc, (hcall c' hc').symm⟩

end Frames

/-! ### Writes of the KuryrPort -/

/-- What a request does to the KuryrPort of the name, if it does anything. -/
inductive CrdStep (s : State) : State → Prop
  | same : CrdStep s s
  | gone : CrdStep s { s with crd := none }
  | write {k k' : StoredKuryrPort} : s.crd = some k → k'.uid = k.uid → k'.podUid = k.podUid →
      (k.deleting = true → k'.deleting = true) → CrdStep s (s.writeCrd k')

section CrdSteps

variable {s s' : State} {k : StoredKuryrPort}

theorem notify_eq (hk : s.crd = some k) : s.notify = s.writeCrd k := by
  unfold State.writeCrd
  rw [← hk]

theorem notify_crdStep (s : State) : CrdStep s s.notify := by
  cases hk : s.crd with
  | none =>
    have heq : s.notify = s := by
      unfold State.notify
      rw [hk]
    rw [heq]
    exact .same
  | some k =>
    rw [notify_eq hk]
    exact .write hk rfl rfl id

theorem deleteCrd_crdStep (s : State) : CrdStep s s.deleteCrd := by
  unfold State.deleteCrd
  split
  · exact .same
  · next k hk =>
    split
    · exact .gone
    · split
      · exact .same
      · exact .write hk rfl rfl fun _ => rfl

theorem freeCrd_crdStep (s : State) : CrdStep s s.freeCrd := by
  unfold State.freeCrd
  split
  · exact .same
  · next k hk =>
    split
    · exact .gone
    · split
      · exact .write hk rfl rfl id
      · exact .same

theorem patchVifs_crdStep (s : State) (vifs : Dict String VifEntry) :
    CrdStep s (s.patchVifs vifs) := by
  unfold State.patchVifs
  split
  · exact .same
  · next k hk => exact .write hk rfl rfl id

theorem writeCrd_call (s : State) (k : StoredKuryrPort) (u : String) :
    ((s.writeCrd k).groups u).call = (s.groups u).call := by
  unfold State.writeCrd State.notify
  by_cases hu : u = k.uid
  · subst hu
    simp
  · simp [hu]

theorem CrdStep.pod (h : CrdStep s s') : s'.pod = s.pod := by
  cases h with
  | same => rfl
  | gone => rfl
  | write => rfl

theorem CrdStep.podLog (h : CrdStep s s') : s'.podLog = s.podLog := by
  cases h with
  | same => rfl
  | gone => rfl
  | write => rfl

theorem CrdStep.call (h : CrdStep s s') (u : String) : (s'.groups u).call = (s.groups u).call := by
  cases h with
  | same => rfl
  | gone => rfl
  | write => exact writeCrd_call s _ u

theorem Filed.crdStep (h : Filed s) (hs : CrdStep s s') : Filed s' := by
  cases hs with
  | same => exact h
  | gone => exact h.of_fewer rfl rfl rfl rfl (fun k hk => by cases hk) fun _ _ he => he
  | write hk huid hpod hdel => exact h.writeCrd hk huid hpod hdel

end CrdSteps

/-! ### Pods -/

section Pods

variable {s s' : State}

/-- The pods that are known stay known, and those that do not run will not run again. -/
structure PodsMove (s s' : State) : Prop where
  known : ∀ uid ∈ s.podUids, uid ∈ s'.podUids
  stopped : ∀ uid ∈ s.podUids, s.running uid = false → s'.running uid = false

theorem PodsMove.of_eq (hpod : s'.pod = s.pod) (hlog : s'.podLog = s.podLog) : PodsMove s s' where
  known uid h := by
    rw [State.podUids, hlog]
    exact h
  stopped uid _ h := by
    unfold State.running at h ⊢
    rwa [hpod]

theorem mem_podUids_writePod {pod : StoredPod} {uid : String} :
    uid ∈ (s.writePod pod).podUids ↔ uid ∈ s.podUids ∨ uid = pod.uid := by
  simp [State.podUids, State.writePod]

/-- An edit that keeps the uid and does not bring the pod back. -/
theorem PodsMove.edit {pod pod' : StoredPod} (hpod : s.pod = some pod) (huid : pod'.uid = pod.uid)
    (hdel : pod.deleting = true → pod'.deleting = true)
    (hcompl : pod.completed = true → pod'.completed = true) : PodsMove s (s.writePod pod') where
  known uid h := mem_podUids_writePod.mpr (.inl h)
  stopped uid _ h := by
    unfold State.running at h
    rw [hpod] at h
    simp only [State.running, State.writePod, huid]
    by_contra hrun
    simp only [Bool.not_eq_false, decide_eq_true_eq] at hrun
    rw [decide_eq_false_iff_not] at h
    exact h ⟨hrun.1, fun h => hrun.2.1 (hdel h), fun h => hrun.2.2 (hcompl h)⟩

theorem PodsMove.editPod {f : StoredPod → StoredPod} (huid : ∀ p, (f p).uid = p.uid)
    (hdel : ∀ p, p.deleting = true → (f p).deleting = true)
    (hcompl : ∀ p, p.completed = true → (f p).completed = true) : PodsMove s (s.editPod f) := by
  unfold State.editPod
  split
  · next pod hpod => exact .edit hpod (huid pod) (hdel pod) (hcompl pod)
  · exact .of_eq rfl rfl

theorem PodsMove.create {pod : StoredPod} (huid : pod.uid ∉ s.podUids) :
    PodsMove s (s.writePod pod) where
  known uid h := mem_podUids_writePod.mpr (.inl h)
  stopped uid h _ := by
    have hne : ¬ pod.uid = uid := fun heq => huid (heq ▸ h)
    simp [State.running, State.writePod, hne]

theorem PodsMove.lose : PodsMove s { s with pod := none } := ⟨fun _ h => h, fun _ _ _ => rfl⟩

end Pods

/-! ### What a step does -/

/-- `on_finalize`, behind its check of the pod. -/
def Pc.pastCheck : Pc → Bool
  | .releasing _ _ | .crdFinalizer => true
  | _ => false

/-- Only the check leads past the check. -/
def Checked (s : State) (c : Call) (pc : Pc) : Prop :=
  pc.pastCheck = true → c.pc.pastCheck = true ∨ s.running c.crd.podUid = false

section Steps

variable {s s' : State} {u uid : String}

/-- What a request of `VIFHandler` does, besides going on with the call. -/
inductive VifEffect (s : State) (c : VifCall) (uid : String) : State → Prop
  | none : VifEffect s c uid s
  | pod {pod pod' : StoredPod} : s.pod = some pod → pod'.uid = pod.uid →
      (pod.deleting = true → pod'.deleting = true) →
      (pod.completed = true → pod'.completed = true) → VifEffect s c uid (s.writePod pod')
  | touch : c.pc = .annotate → VifEffect s c uid s.notify
  | delete : c.pc = .delete → VifEffect s c uid s.deleteCrd
  | create : s.crd = Option.none → uid ∉ s.crdUids →
      VifEffect s c uid ({ s with crdUids := s.crdUids ++ [uid] }.writeCrd
        ⟨uid, c.pod.uid, false, true, Dict.empty⟩)

theorem mem_setVifCall {x : State} {i : Nat} {c c' : VifCall} {pc : VifPc}
    (h : c' ∈ (x.setVifCall i c pc).vifCalls) : c' ∈ x.vifCalls ∨ c'.pod = c.pod := by
  rcases List.mem_or_eq_of_mem_set h with h | rfl
  · exact .inl h
  · exact .inr rfl

theorem mem_endVifCall {x : State} {i : Nat} {c' : VifCall} (h : c' ∈ (x.endVifCall i).vifCalls) :
    c' ∈ x.vifCalls := List.mem_of_mem_eraseIdx h

/-- **The requests of `VIFHandler`.** -/
theorem vifStep_spec {i : Nat} {c : VifCall} (h : vifStep s i c uid = some s') :
    ∃ x calls, VifEffect s c uid x ∧ s' = { x with vifCalls := calls } ∧
      ∀ c' ∈ calls, c' ∈ x.vifCalls ∨ c'.pod = c.pod := by
  unfold vifStep at h
  cases hpc : c.pc with
  | addFinalizer =>
    rw [hpc] at h
    dsimp only at h
    split at h
    · cases h
      exact ⟨s, _, .none, rfl, fun _ => mem_setVifCall⟩
    · split at h
      · next pod hpod =>
        split at h
        · cases h
        · cases h
          exact ⟨s.writePod { pod with finalizer := true }, _, .pod hpod rfl id id, rfl,
            fun _ => mem_setVifCall⟩
      · cases h
  | getKuryrPort =>
    rw [hpc] at h
    cases h
    split
    · exact ⟨s, _, .none, rfl, fun _ h => .inl (mem_endVifCall h)⟩
    · exact ⟨s, _, .none, rfl, fun _ => mem_setVifCall⟩
  | addKuryrPort =>
    rw [hpc] at h
    dsimp only at h
    split at h
    · next hnew =>
      cases h
      exact ⟨_, _, .create hnew.1 hnew.2, rfl, fun _ h => .inl (mem_endVifCall h)⟩
    · cases h
  | findKuryrPort =>
    rw [hpc] at h
    cases h
    exact ⟨s, _, .none, rfl, fun _ => mem_setVifCall⟩
  | annotate =>
    rw [hpc] at h
    cases h
    split
    · exact ⟨_, _, .touch hpc, rfl, fun _ h => .inl (mem_endVifCall h)⟩
    · exact ⟨s, _, .none, rfl, fun _ => mem_setVifCall⟩
  | delete =>
    rw [hpc] at h
    cases h
    split
    · exact ⟨_, _, .delete hpc, rfl, fun _ h => .inl (mem_endVifCall h)⟩
    · exact ⟨s, _, .none, rfl, fun _ => mem_setVifCall⟩
  | removeFinalizer =>
    rw [hpc] at h
    cases h
    unfold State.editPod
    split
    · next pod hpod =>
      exact ⟨s.writePod { pod with finalizer := false }, _, .pod hpod rfl id id, rfl,
        fun _ h => .inl (mem_endVifCall h)⟩
    · exact ⟨s, _, .none, rfl, fun _ h => .inl (mem_endVifCall h)⟩

/-- What a step of a call may do: a request to the KuryrPort, ports that come and go, an edit
of the pod; and the call goes on with its event, or ends. -/
structure CallEffect (s : State) (u : String) (c : Call) (x y s' : State) : Prop where
  crd : CrdStep s x
  crd_eq : y.crd = x.crd
  groups_eq : y.groups = x.groups
  uids_eq : y.crdUids = x.crdUids
  vif_eq : y.vifCalls = x.vifCalls
  pods : PodsMove s y
  pod : ∀ p, y.pod = some p → ∃ q, s.pod = some q ∧ q.uid = p.uid
  call : ∃ call, s' = y.setCall u call ∧
    ∀ c', call = some c' → c'.crd = c.crd ∧ Checked s c c'.pc

theorem CallEffect.of_crdStep {c : Call} {x y : State} {call : Option Call} (h : CrdStep s x)
    (hy : ∃ out, y = { x with out := out })
    (hcall : ∀ c', call = some c' → c'.crd = c.crd ∧ Checked s c c'.pc) :
    CallEffect s u c x y (y.setCall u call) := by
  obtain ⟨out, rfl⟩ := hy
  exact ⟨h, rfl, rfl, rfl, rfl, .of_eq h.pod h.podLog,
    fun p hp => ⟨p, h.pod ▸ hp, rfl⟩, call, rfl, hcall⟩

theorem CallEffect.goOn {c : Call} {x y : State} {pc : Pc} (h : CrdStep s x)
    (hy : ∃ out, y = { x with out := out }) (hpc : Checked s c pc) :
    CallEffect s u c x y (y.setPc u c pc) :=
  .of_crdStep h hy fun c' hc' => by
    cases hc'
    exact ⟨rfl, hpc⟩

theorem CallEffect.stop {c : Call} {x y : State} (h : CrdStep s x)
    (hy : ∃ out, y = { x with out := out }) : CallEffect s u c x y (y.setCall u none) :=
  .of_crdStep h hy fun c' hc' => by cases hc'

theorem Checked.of_not {c : Call} {pc : Pc} (h : pc.pastCheck = false) : Checked s c pc :=
  fun hpast => by cases h.symm.trans hpast

theorem CallEffect.finish {c : Call} {x y : State} (h : CrdStep s x)
    (hy : ∃ out, y = { x with out := out }) (raises : Bool) :
    CallEffect s u c x y (y.finish u c raises) := by
  unfold State.finish
  split
  · exact .goOn h hy (.of_not rfl)
  · exact .stop h hy

theorem CallEffect.editPod {c : Call} {f : StoredPod → StoredPod} {pc : Pc}
    (huid : ∀ p, (f p).uid = p.uid) (hdel : ∀ p, p.deleting = true → (f p).deleting = true)
    (hcompl : ∀ p, p.completed = true → (f p).completed = true) (hpc : Checked s c pc) :
    CallEffect s u c s (s.editPod f) ((s.editPod f).setPc u c pc) := by
  have hpods : PodsMove s (s.editPod f) := .editPod huid hdel hcompl
  unfold State.editPod at hpods ⊢
  cases hpod : s.pod with
  | none => exact .goOn .same ⟨_, rfl⟩ hpc
  | some pod =>
    rw [hpod] at hpods
    refine ⟨.same, rfl, rfl, rfl, rfl, hpods, fun p hp => ?_, _, rfl, fun c' hc' => ?_⟩
    · cases hp
      exact ⟨pod, hpod, (huid pod).symm⟩
    · cases hc'
      exact ⟨rfl, hpc⟩

theorem Call.start_pastCheck (k : StoredKuryrPort) : (Call.start k).pc.pastCheck = false := by
  unfold Call.start
  split
  · rfl
  · split <;> rfl

theorem keeps (s : State) : ∃ out, s = { s with out := out } := ⟨s.out, rfl⟩

/-- **The steps of `KuryrPortHandler`.** -/
theorem callStep_spec {c : Call} {r : Request} (h : callStep s u c r = some s') :
    ∃ x y, CallEffect s u c x y s' := by
  unfold callStep at h
  cases r with
  | readPod =>
    dsimp only at h
    split at h
    · cases h
      refine ⟨_, _, .goOn .same (keeps s) (.of_not ?_)⟩
      split <;> rfl
    · split at h
      · cases h
        exact ⟨_, _, .stop .same (keeps s)⟩
      · next hrun =>
        have hpc : ∀ pc, Checked s c pc := fun pc _ => .inr (by simpa using hrun)
        split at h
        · cases h
          exact ⟨_, _, .goOn .same (keeps s) (hpc _)⟩
        · split at h <;> cases h <;> exact ⟨_, _, .goOn .same (keeps s) (hpc _)⟩
    · cases h
  | orphan applied =>
    dsimp only at h
    split at h
    · cases h
      refine ⟨_, _, .stop ?_ (keeps _)⟩
      split
      · exact deleteCrd_crdStep s
      · exact .same
    · cases h
  | request q =>
    dsimp only at h
    split at h
    · split at h <;> cases h
      · exact ⟨_, _, .goOn .same ⟨_, rfl⟩ (.of_not rfl)⟩
      · exact ⟨_, _, .stop .same ⟨_, rfl⟩⟩
      · exact ⟨_, _, .goOn .same ⟨_, rfl⟩ (.of_not rfl)⟩
    · cases h
  | patch q applied =>
    dsimp only at h
    split at h
    · next vifs obtained _ =>
      split at h
      · split at h
        · cases h
          exact ⟨_, _, .finish (patchVifs_crdStep s vifs) (keeps _) _⟩
        · cases h
      · have hx : CrdStep s (if applied then s.patchVifs vifs else s) := by
          split
          · exact patchVifs_crdStep s vifs
          · exact .same
        split at h <;> cases h
        · exact ⟨_, _, .finish hx ⟨_, rfl⟩ _⟩
        · exact ⟨_, _, .finish hx (keeps _) true⟩
    · cases h
  | activate a =>
    dsimp only at h
    split at h
    · split at h
      · cases h
        exact ⟨_, _, .finish .same (keeps s) false⟩
      · split at h
        · cases h
          exact ⟨_, _, .finish (patchVifs_crdStep s _) (keeps _) _⟩
        · cases h
      · split at h
        · cases h
        · cases h
          exact ⟨_, _, .finish .same ⟨_, rfl⟩ _⟩
    · cases h
  | release ok =>
    dsimp only at h
    split at h
    · next hc =>
      have hpc : ∀ pc, Checked s c pc := fun pc _ => .inl (by rw [hc]; rfl)
      split at h
      · cases h
        exact ⟨_, _, .goOn .same ⟨_, rfl⟩ (hpc _)⟩
      · split at h <;> cases h
        exact ⟨_, _, .goOn .same (keeps s) (hpc _)⟩
    · cases h
  | freePod applied =>
    dsimp only at h
    split at h
    · next hc =>
      have hpc : Checked s c .crdFinalizer := fun _ => .inl (by rw [hc]; rfl)
      cases h
      split
      · exact ⟨_, _, .editPod (fun _ => rfl) (fun _ h => h) (fun _ h => h) hpc⟩
      · exact ⟨_, _, .goOn .same (keeps s) hpc⟩
    · cases h
  | freeCrd applied =>
    dsimp only at h
    split at h
    · cases h
      refine ⟨_, _, .stop ?_ (keeps _)⟩
      split
      · exact freeCrd_crdStep s
      · exact .same
    · cases h
  | raise =>
    dsimp only at h
    split at h
    · cases h
    · cases h
      exact ⟨_, _, .goOn .same (keeps s) (.of_not rfl)⟩
  | again =>
    dsimp only at h
    split at h
    · cases h
      exact ⟨s, s, .of_crdStep .same (keeps s) fun c' hc' => by
        cases hc'
        exact ⟨rfl, .of_not (Call.start_pastCheck _)⟩⟩
    · cases h
  | giveUp =>
    dsimp only at h
    split at h
    · cases h
      exact ⟨_, _, .stop .same (keeps s)⟩
    · cases h

end Steps

/-! ### The invariant -/

section Invariant

variable {s s' : State} {u uid : String}

theorem VifCall.start_pod {pod : StoredPod} {c : VifCall} (h : VifCall.start pod = some c) :
    c.pod = pod := by
  unfold VifCall.start at h
  split at h
  · cases h
    rfl
  · split at h
    · cases h
    · split at h
      · cases h
        rfl
      · split at h <;> cases h
        rfl

theorem Filed.writePod {pod : StoredPod} (h : Filed s) : Filed (s.writePod pod) := by
  have hlog : ∀ uid ∈ s.podUids, uid ∈ (s.writePod pod).podUids :=
    fun uid huid => mem_podUids_writePod.mpr (.inl huid)
  refine h.of_pods rfl rfl rfl hlog (fun p hp => ?_) fun c hc => hlog _ (h.vif_known c hc)
  cases hp
  exact mem_podUids_writePod.mpr (.inr rfl)

theorem Filed.editPod {f : StoredPod → StoredPod} (h : Filed s) : Filed (s.editPod f) := by
  unfold State.editPod
  split
  · exact h.writePod
  · exact h

/-- Calls of `VIFHandler` come and go. -/
theorem Filed.withVifCalls {calls : List VifCall} (h : Filed s)
    (hcalls : ∀ c ∈ calls, c.pod.uid ∈ s.podUids) : Filed { s with vifCalls := calls } :=
  h.of_pods rfl rfl rfl (fun _ hu => hu) h.pod_known hcalls

theorem Filed.create {c : VifCall} (h : Filed s) (hc : c.pod.uid ∈ s.podUids)
    (huid : uid ∉ s.crdUids) :
    Filed ({ s with crdUids := s.crdUids ++ [uid] }.writeCrd
      ⟨uid, c.pod.uid, false, true, Dict.empty⟩) where
  pod_known := h.pod_known
  vif_known := h.vif_known
  crd_known k hk := by
    cases hk
    exact ⟨List.mem_append_right _ List.mem_cons_self, hc⟩
  filed v e he := by
    rcases pending_writeCrd he with he | ⟨rfl, rfl⟩
    · obtain ⟨hv, hu, hp⟩ := h.filed v e he
      exact ⟨hv, List.mem_append_left _ hu, hp⟩
    · exact ⟨rfl, List.mem_append_right _ List.mem_cons_self, hc⟩
  same v e k he hk hv := by
    cases hk
    rcases pending_writeCrd he with he | ⟨rfl, rfl⟩
    · have hv : uid = v := hv
      exact absurd (hv ▸ (h.filed v e he).2.1) huid
    · exact ⟨rfl, id⟩

theorem Filed.vifEffect {c : VifCall} {x : State} (h : Filed s) (hc : c.pod.uid ∈ s.podUids)
    (hx : VifEffect s c uid x) : Filed x ∧ PodsMove s x := by
  cases hx with
  | none => exact ⟨h, .of_eq rfl rfl⟩
  | pod hpod huid hdel hcompl => exact ⟨h.writePod, .edit hpod huid hdel hcompl⟩
  | touch => exact ⟨h.crdStep (notify_crdStep s), .of_eq (notify_crdStep s).pod
      (notify_crdStep s).podLog⟩
  | delete => exact ⟨h.crdStep (deleteCrd_crdStep s), .of_eq (deleteCrd_crdStep s).pod
      (deleteCrd_crdStep s).podLog⟩
  | create _ huid => exact ⟨h.create hc huid, .of_eq rfl rfl⟩

theorem Filed.callEffect {c : Call} {x y : State} (h : Filed s)
    (hc : (s.groups u).call = some c) (he : CallEffect s u c x y s') : Filed s' := by
  have hx := h.crdStep he.crd
  have hlog : ∀ uid ∈ x.podUids, uid ∈ y.podUids := fun uid huid => by
    rw [State.podUids, he.crd.podLog] at huid
    exact he.pods.known uid huid
  have hy : Filed y := by
    refine hx.of_pods he.crd_eq he.uids_eq he.groups_eq hlog (fun p hp => ?_) fun c' hc' => ?_
    · obtain ⟨q, hq, huid⟩ := he.pod p hp
      exact huid ▸ he.pods.known _ (h.pod_known q hq)
    · exact hlog _ (hx.vif_known c' (he.vif_eq ▸ hc'))
  obtain ⟨call, rfl, hcall⟩ := he.call
  refine hy.advance ?_ fun c' hc' => (hcall c' hc').1
  rw [he.groups_eq, he.crd.call]
  exact hc

theorem PodsMove.callEffect {c : Call} {x y : State} (he : CallEffect s u c x y s') :
    PodsMove s s' := by
  obtain ⟨call, rfl, -⟩ := he.call
  exact ⟨he.pods.known, he.pods.stopped⟩

theorem take_eq {n : Nat} (h : step s (.take u n) = some s') :
    (s.groups u).call = none ∧ ∃ k rest, (s.groups u).queue.drop n = k :: rest ∧
      s' = { s with groups := Function.update s.groups u ⟨rest, some (.start k)⟩ } := by
  simp only [step] at h
  split at h
  · next hcall hqueue =>
    cases h
    exact ⟨hcall, _, _, hqueue, rfl⟩
  · cases h

theorem pending_take {n : Nat} {v : String} {e : StoredKuryrPort}
    (h : step s (.take u n) = some s') (he : s'.Pending v e) : s.Pending v e := by
  obtain ⟨-, k, rest, hqueue, rfl⟩ := take_eq h
  have hsub : ∀ e' ∈ k :: rest, e' ∈ (s.groups u).queue := fun e' he' =>
    List.mem_of_mem_drop (hqueue ▸ he')
  by_cases hv : v = u
  · subst hv
    simp only [State.Pending, Function.update_self] at he
    rcases he with he | ⟨c, hc, rfl⟩
    · exact .inl (hsub e (List.mem_cons_of_mem _ he))
    · cases hc
      exact .inl (hsub k List.mem_cons_self)
  · simpa only [State.Pending, Function.update_of_ne hv] using he

/-- **One step.** -/
theorem Filed.step {a : Act} (h : Filed s) (hs : PodLifecycle.step s a = some s') :
    Filed s' ∧ PodsMove s s' := by
  cases a with
  | createPod uid hostNetwork =>
    simp only [PodLifecycle.step] at hs
    split at hs
    · next hnew =>
      cases hs
      exact ⟨h.writePod, .create hnew.2⟩
    · cases hs
  | schedulePod =>
    cases hs
    exact ⟨h.editPod, .editPod (fun _ => rfl) (fun _ h => h) fun _ h => h⟩
  | completePod =>
    cases hs
    exact ⟨h.editPod, .editPod (fun _ => rfl) (fun _ h => h) fun _ _ => rfl⟩
  | deletePod =>
    cases hs
    exact ⟨h.editPod, .editPod (fun _ => rfl) (fun _ _ => rfl) fun _ h => h⟩
  | losePod =>
    cases hs
    exact ⟨h.of_pods rfl rfl rfl (fun _ hu => hu) (fun p hp => by cases hp) h.vif_known, .lose⟩
  | deleteCrd =>
    cases hs
    have hx := deleteCrd_crdStep s
    exact ⟨h.crdStep hx, .of_eq hx.pod hx.podLog⟩
  | touchCrd =>
    cases hs
    have hx := notify_crdStep s
    exact ⟨h.crdStep hx, .of_eq hx.pod hx.podLog⟩
  | vifEvent pod =>
    simp only [PodLifecycle.step] at hs
    split at hs
    · next hpod =>
      obtain ⟨c, hc, rfl⟩ := Option.map_eq_some_iff.mp hs
      refine ⟨h.withVifCalls fun c' hc' => ?_, .of_eq rfl rfl⟩
      rcases List.mem_append.mp hc' with hc' | hc'
      · exact h.vif_known c' hc'
      · rw [List.mem_singleton.mp hc', VifCall.start_pod hc]
        exact List.mem_map_of_mem hpod
    · cases hs
  | vifStep i uid =>
    obtain ⟨c, hc, hs⟩ := Option.bind_eq_some_iff.mp hs
    have hpod := h.vif_known c (List.mem_of_getElem? hc)
    obtain ⟨x, calls, hx, rfl, hcalls⟩ := vifStep_spec hs
    obtain ⟨hfiled, hmove⟩ := h.vifEffect hpod hx
    refine ⟨hfiled.withVifCalls fun c' hc' => ?_, ⟨hmove.known, hmove.stopped⟩⟩
    rcases hcalls c' hc' with hc' | heq
    · exact hfiled.vif_known c' hc'
    · rw [heq]
      exact hmove.known _ hpod
  | vifEnd i =>
    simp only [PodLifecycle.step] at hs
    split at hs
    · cases hs
      exact ⟨h.withVifCalls fun c hc => h.vif_known c (mem_endVifCall hc), .of_eq rfl rfl⟩
    · cases hs
  | take u n =>
    have hpending := fun v e (he : s'.Pending v e) => pending_take hs he
    obtain ⟨-, k, rest, -, rfl⟩ := take_eq hs
    exact ⟨h.of_fewer rfl rfl rfl rfl (fun _ hk => hk) hpending, .of_eq rfl rfl⟩
  | call u r =>
    obtain ⟨c, hc, hs⟩ := Option.bind_eq_some_iff.mp hs
    obtain ⟨x, y, he⟩ := callStep_spec hs
    exact ⟨h.callEffect hc he, .callEffect he⟩

theorem filed_empty : Filed State.empty where
  pod_known p hp := by cases hp
  vif_known c hc := by cases hc
  crd_known k hk := by cases hk
  filed u e he := by
    rcases he with he | ⟨c, hc, -⟩
    · cases he
    · cases hc
  same u e k _ hk := by cases hk

theorem filed_of_reach {ok : State → Act → Prop} (h : Reach system ok s) : Filed s :=
  h.invariant (fun s hs => by rw [show s = State.empty from hs]; exact filed_empty)
    fun _ _ _ hI _ hs => (hI.step hs).1

end Invariant

/-! ## Nothing is released while the pod runs -/

/-- The calls of `on_finalize` that are past the check have found their pod gone, deleted or
completed. -/
def PodsDone (s : State) : Prop :=
  ∀ u c, (s.groups u).call = some c → c.pc.pastCheck = true → s.running c.crd.podUid = false

section PodsDone

variable {s s' : State} {u v : String}

theorem setCall_call (s : State) (u v : String) (call : Option Call) :
    ((s.setCall u call).groups v).call = if v = u then call else (s.groups v).call := by
  unfold State.setCall
  by_cases hv : v = u
  · subst hv
    simp
  · simp [hv]

theorem VifEffect.call {c : VifCall} {uid : String} {x : State} (h : VifEffect s c uid x) :
    (x.groups u).call = (s.groups u).call := by
  cases h with
  | none => rfl
  | pod => rfl
  | touch => exact (notify_crdStep s).call u
  | delete => exact (deleteCrd_crdStep s).call u
  | create => exact writeCrd_call _ _ u

theorem editPod_groups (s : State) (f : StoredPod → StoredPod) :
    (s.editPod f).groups = s.groups := by
  unfold State.editPod
  split <;> rfl

/-- **The calls after a step**: a new one is at its start; one that was under way is past the
check only if it has passed it. -/
theorem step_call {a : Act} {c' : Call} (h : step s a = some s')
    (hc' : (s'.groups u).call = some c') :
    (∃ k, c' = .start k) ∨
      ∃ c, (s.groups u).call = some c ∧ c'.crd = c.crd ∧ Checked s c c'.pc := by
  have hsame : (s'.groups u).call = (s.groups u).call →
      ∃ c, (s.groups u).call = some c ∧ c'.crd = c.crd ∧ Checked s c c'.pc :=
    fun heq => ⟨c', heq ▸ hc', rfl, .inl⟩
  cases a with
  | createPod uid hostNetwork =>
    simp only [step] at h
    split at h <;> cases h
    exact .inr (hsame rfl)
  | schedulePod | completePod | deletePod =>
    cases h
    exact .inr (hsame (by rw [editPod_groups]))
  | losePod =>
    cases h
    exact .inr (hsame rfl)
  | deleteCrd =>
    cases h
    exact .inr (hsame ((deleteCrd_crdStep s).call u))
  | touchCrd =>
    cases h
    exact .inr (hsame ((notify_crdStep s).call u))
  | vifEvent pod =>
    simp only [step] at h
    split at h
    · obtain ⟨c, -, rfl⟩ := Option.map_eq_some_iff.mp h
      exact .inr (hsame rfl)
    · cases h
  | vifStep i uid =>
    obtain ⟨c, -, h⟩ := Option.bind_eq_some_iff.mp h
    obtain ⟨x, calls, hx, rfl, -⟩ := vifStep_spec h
    exact .inr (hsame hx.call)
  | vifEnd i =>
    simp only [step] at h
    split at h <;> cases h
    exact .inr (hsame rfl)
  | take v n =>
    obtain ⟨-, k, rest, -, rfl⟩ := take_eq h
    by_cases hu : u = v
    · subst hu
      simp only [Function.update_self] at hc'
      cases hc'
      exact .inl ⟨k, rfl⟩
    · exact .inr (hsame (by simp [hu]))
  | call v r =>
    obtain ⟨c, hc, h⟩ := Option.bind_eq_some_iff.mp h
    obtain ⟨x, y, he⟩ := callStep_spec h
    obtain ⟨call, rfl, hcall⟩ := he.call
    rw [setCall_call] at hc' hsame
    by_cases hu : u = v
    · subst hu
      rw [if_pos rfl] at hc'
      exact .inr ⟨c, hc, hcall c' hc'⟩
    · rw [if_neg hu] at hsame
      exact .inr (hsame (by rw [he.groups_eq, he.crd.call]))

theorem PodsDone.step {a : Act} (h : PodsDone s) (hf : Filed s)
    (hs : PodLifecycle.step s a = some s') : PodsDone s' := by
  intro u c' hc' hpast
  have hmove := (hf.step hs).2
  rcases step_call hs hc' with ⟨k, rfl⟩ | ⟨c, hc, hcrd, hchecked⟩
  · cases (Call.start_pastCheck k).symm.trans hpast
  · rw [hcrd]
    refine hmove.stopped _ (hf.filed u c.crd (.inr ⟨c, hc, rfl⟩)).2.2 ?_
    exact (hchecked hpast).elim (h u c hc) id

/-- **VIFs are released, and finalizers taken away, for pods only that have ended**: a call of
`on_finalize` that is past its check works for a pod that is gone, deleted or completed, and
this stays so until it ends. -/
theorem podsDone_of_reach {ok : State → Act → Prop} (h : Reach system ok s) : PodsDone s := by
  refine (h.invariant (I := fun s => Filed s ∧ PodsDone s) (fun s hs => ?_) ?_).2
  · rw [show s = State.empty from hs]
    exact ⟨filed_empty, fun u c hc => by cases hc⟩
  · exact fun s a s' hI _ hs => ⟨(hI.1.step hs).1, hI.2.step hI.1 hs⟩

end PodsDone

/-! ### A pod that is bound and deleted -/

def after (as : List Act) : State := (Transition.execute step State.empty as).getD State.empty

theorem reach_after {ok : State → Act → Prop} {as : List Act} (h : Along ok step State.empty as) :
    Reach system ok (after as) := by
  obtain ⟨s, hs, hreach⟩ := Reach.along (T := system) (fun _ _ _ h => h) (.init rfl) h
  rw [after, hs]
  exact hreach

/-- One VIF, and no additional interfaces. -/
def oneVif : Acquisition := { missingNad with drivers := [.noop] }

/-- A pod is made; its KuryrPort is made, and a VIF obtained for it. -/
def binding : List Act :=
  [.createPod "pod-1" false, .schedulePod, .vifEvent ⟨"pod-1", false, true, false, false, false⟩,
    .vifStep 0 "crd-1", .vifStep 0 "crd-1", .vifStep 0 "crd-1",
    .take "crd-1" 0, .call "crd-1" .readPod, .call "crd-1" (.request oneVif)]

/-- The VIF is recorded, the pod deleted, and the KuryrPort with it. -/
def ending : List Act :=
  [.call "crd-1" (.patch oneVif false), .deletePod,
    .vifEvent ⟨"pod-1", false, true, false, true, true⟩, .vifStep 0 "", .vifStep 0 "",
    .take "crd-1" 1, .call "crd-1" .readPod]

theorem podsDone_ending : ∃ c, ((after (binding ++ ending)).groups "crd-1").call = some c ∧
    c.pc = .releasing false [⟨"port-1", "net"⟩] ∧
    (after (binding ++ ending)).running c.crd.podUid = false := by
  have hreach : Reach system (fun _ _ => True) (after (binding ++ ending)) :=
    reach_after ⟨trivial, _, rfl, trivial, _, rfl, trivial, _, rfl, trivial, _, rfl, trivial, _, rfl,
      trivial, _, rfl, trivial, _, rfl, trivial, _, rfl, trivial, _, rfl, trivial, _, rfl,
      trivial, _, rfl, trivial, _, rfl, trivial, _, rfl, trivial, _, rfl, trivial, _, rfl,
      trivial, _, rfl, trivial⟩
  exact ⟨_, rfl, rfl, podsDone_of_reach hreach "crd-1" _ rfl rfl⟩

end PodLifecycle

end KuryrKubernetes
