import Mathlib.Data.List.Basic
import KuryrKubernetes.Lib.Transition

/-!
# The registry of the CNI daemon

The daemon keeps, under the name of a pod, an entry for its KuryrPort, or a sentinel that
says the pod was deleted before it got one. The entry is written by two watches and by the
CNI requests, each in its own process; a lock is held for a single read and write, not
from one to the next. This module has the slot of one name and everybody who uses it:

- the KuryrPort watch: `on_vif`, and `on_deleted`, which tests before it locks;
- the Pod watch: `on_finalize`;
- one ADD: find the entry, connect, record the container id, wait;
- any number of DELs: read under the lock, compare container ids, find, disconnect, and
  mark or remove the entry under the lock.

What runs under the lock, and each read outside it, is one `Action`; a run is any sequence
of them.
-/

namespace KuryrKubernetes

namespace Cni

open Transition

/-! ## The slot of a name -/

/-- A KuryrPort. Those of one name are numbered in the order of their creation: `uid`. -/
structure KuryrPort where
  uid : Nat
  podUid : String
  podStatic : Option Bool
deriving DecidableEq, Repr

/-- Interfaces, and whether their VIFs are active. -/
abbrev Vifs := List (String × Bool)

abbrev ContainerId := { s : String // s ≠ "" }

structure Entry where
  kp : KuryrPort
  vifs : Vifs
  containerid : Option ContainerId
  vifUnplugged : Bool
  delReceived : Bool
deriving DecidableEq, Repr

inductive Slot where
  /-- `CNI_DELETED_POD_SENTINEL` -/
  | sentinel
  | entry (e : Entry)
deriving DecidableEq, Repr

/-- The registry at the name; `none` where it raises a `KeyError`. -/
abbrev Registry := Option Slot

def Entry.fresh (kp : KuryrPort) (vifs : Vifs) : Entry := ⟨kp, vifs, none, false, false⟩

/-- Whether the loop of `on_vif` comes to a VIF that changed; an interface the entry does
not have ends it with a `KeyError`. -/
def vifChanged (old : Vifs) : Vifs → Bool
  | [] => false
  | (iface, active) :: rest =>
    match old.lookup iface with
    | none => false
    | some was => was != active || vifChanged old rest

/-- `CNIKuryrPortHandler.on_vif`. -/
def onVif (kp : KuryrPort) (vifs : Vifs) : Registry → Registry
  | some (.entry e) =>
    if e.kp.uid ≠ kp.uid then some (.entry (.fresh kp vifs))
    else if vifChanged e.vifs vifs then some (.entry { e with vifs := vifs })
    else some (.entry e)
  | _ => some (.entry (.fresh kp vifs))

/-- `CNIPodHandler.on_finalize`. -/
def onFinalize : Registry → Registry
  | none => some .sentinel
  | some slot => some slot

/-- The locked part of `on_deleted`: a `KeyError` is ignored, and a sentinel has no
`vif_unplugged` (a `TypeError`). -/
def onDeleted : Registry → Registry
  | none => none
  | some .sentinel => some .sentinel
  | some (.entry e) =>
    if e.vifUnplugged then none else some (.entry { e with delReceived := true })

inductive Found where
  /-- a `KeyError` or a uid that differs: `retrying` goes on until its time is over -/
  | retry
  /-- `CNIPodGone` -/
  | gone
  | raised
  | found (e : Entry)
deriving DecidableEq, Repr

/-- One attempt of `find` in `_get_vifs_from_registry`. `api` is what the API says of the
pod, where it has to be asked whether it is static. -/
def find (podUid : Option String) (api : Option Bool) : Registry → Found
  | none => .retry
  | some .sentinel => .gone
  | some (.entry e) =>
    match podUid with
    | none => .found e
    | some uid =>
      if e.kp.podUid = uid then .found e
      else match e.kp.podStatic.or api with
        | none => .raised
        | some true => .found e
        | some false => .retry

/-- A request can find the entry of the KuryrPort, if the API says so. -/
def Matches (podUid : Option String) (kp : KuryrPort) : Prop :=
  podUid = none ∨ podUid = some kp.podUid ∨ kp.podStatic ≠ some false

instance (podUid : Option String) (kp : KuryrPort) : Decidable (Matches podUid kp) :=
  inferInstanceAs (Decidable (_ ∨ _))

/-! ## The requests -/

/-- Where the ADD is. -/
inductive AddPc where
  | starting
  | finding (podUid : String)
  | connecting
  | waiting
  | returned
  | failed
deriving DecidableEq, Repr

/-- Where a DEL is. -/
inductive DelPc where
  | locking
  | checking
  | finding
  | disconnecting (kp : KuryrPort)
  | finishing
  | accepted
  | ignored
  | failed
deriving DecidableEq, Repr

/-- A DEL request; not every runtime passes `K8S_POD_UID`. -/
structure Del where
  containerid : ContainerId
  podUid : Option String
  pc : DelPc
deriving DecidableEq, Repr

/-- `delete`, up to its first read of the slot. -/
def Del.lock : Registry → DelPc × Registry
  | none => (.finding, none)
  | some .sentinel => (.ignored, none)
  | some (.entry e) => (.checking, some (.entry e))

/-- `delete`: the container ids, read without the lock. -/
def Del.check (id : ContainerId) : Registry → DelPc
  | none => .finding
  | some .sentinel => .failed
  | some (.entry e) =>
    match e.containerid with
    | none => .finding
    | some reg => if reg ≠ id then .ignored else .finding

/-- `delete`: an attempt to find the VIFs. -/
def Del.find (podUid : Option String) (api : Option Bool) (r : Registry) : Option DelPc :=
  match Cni.find podUid api r with
  | .retry => none
  | .gone | .raised => some .failed
  | .found e => some (.disconnecting e.kp)

/-- `delete`: the end, under the lock. -/
def Del.finish : Registry → DelPc × Registry
  | none => (.accepted, none)
  | some .sentinel => (.failed, some .sentinel)
  | some (.entry e) =>
    if e.delReceived then (.accepted, none)
    else (.accepted, some (.entry { e with vifUnplugged := true }))

/-- The ADD's container id, and the pod uid it was passed. -/
structure Setup where
  containerid : ContainerId
  podUid : Option String

structure State where
  registry : Registry
  /-- the KuryrPort of the name -/
  kp : KuryrPort
  /-- its DELETED event has not come yet -/
  live : Bool
  /-- `on_deleted` has seen an entry and waits for the lock -/
  deleting : Bool
  add : AddPc
  dels : List Del
  /-- an `on_vif` has been processed -/
  seen : Bool
  /-- entries removed so far -/
  removals : Nat
  /-- the KuryrPort whose VIFs the ADD connects or has connected -/
  taken : Option Nat

def State.setDel (s : State) (i : Nat) (pc : DelPc) : State :=
  { s with dels := s.dels.modify i fun d => { d with pc := pc } }

/-- Whether a write removes an entry. -/
def removed : Registry → Registry → Nat
  | some (.entry _), none => 1
  | _, _ => 0

def State.write (s : State) (r : Registry) : State :=
  { s with registry := r, removals := s.removals + removed s.registry r }

inductive Action where
  | onVif (vifs : Vifs)
  | deletedTest
  | deletedLock
  /-- a new KuryrPort is created under the name -/
  | recreate (podUid : String) (podStatic : Option Bool)
  | onFinalize
  | addStart (pod : Option String)
  | addFind (api : Option Bool)
  | addConnect (ok : Bool)
  | addRecord
  | addWait
  | addGiveUp
  | delArrive (id : ContainerId) (podUid : Option String)
  | delLock (i : Nat)
  | delCheck (i : Nat)
  | delFind (i : Nat) (api : Option Bool)
  | delGiveUp (i : Nat)
  | delDisconnect (i : Nat) (ok : Bool)
  | delFinish (i : Nat)
deriving DecidableEq, Repr

def Action.recreates : Action → Bool
  | .recreate _ _ => true
  | _ => false

instance {P : Entry → Prop} [DecidablePred P] (r : Registry) :
    Decidable (∀ e, r = some (.entry e) → P e) :=
  match r with
  | none => isTrue nofun
  | some .sentinel => isTrue nofun
  | some (.entry e) => decidable_of_iff (P e) ⟨fun h _ he => by cases he; exact h, fun h => h e rfl⟩

/-- A DEL at the given place. -/
def State.delAt (s : State) (i : Nat) (pc : DelPc) : Option Del :=
  s.dels[i]?.bind fun d => if d.pc = pc then some d else none

def step (cfg : Setup) (s : State) : Action → Option State
  | .onVif vifs =>
    if s.live ∧ ¬ s.deleting then
      -- `on_present` passes over a KuryrPort without VIFs
      if vifs = [] then some s
      else some { s with registry := Cni.onVif s.kp vifs s.registry, seen := true }
    else none
  | .deletedTest =>
    if s.live then
      match s.registry with
      | some (.entry _) => some { s with live := false, deleting := true }
      | _ => some { s with live := false }
    else none
  | .deletedLock =>
    if s.deleting then some { s.write (Cni.onDeleted s.registry) with deleting := false } else none
  | .recreate podUid podStatic =>
    if s.live ∨ s.deleting then none
    else some { s with kp := ⟨s.kp.uid + 1, podUid, podStatic⟩, live := true }
  | .onFinalize => some { s with registry := Cni.onFinalize s.registry }
  | .addStart pod =>
    if s.add = .starting then
      match cfg.podUid.or pod with
      | none => some { s with add := .failed }
      | some uid => some { s with add := .finding uid }
    else none
  | .addFind api =>
    match s.add with
    | .finding uid =>
      match find (some uid) api s.registry with
      | .retry => none
      | .gone | .raised => some { s with add := .failed }
      | .found e => some { s with add := .connecting, taken := some e.kp.uid }
    | _ => none
  | .addConnect ok =>
    -- the connected VIFs stay with the ADD; `addRecord` is next
    if s.add = .connecting ∧ ¬ ok then some { s with add := .failed } else none
  | .addRecord =>
    if s.add = .connecting then
      match s.registry with
      | some (.entry e) =>
        some { s with
          registry := some (.entry { e with containerid := some cfg.containerid })
          add := .waiting }
      | _ => some { s with add := .failed }
    else none
  | .addWait =>
    if s.add = .waiting then
      match s.registry with
      | some (.entry e) => if e.vifs.all Prod.snd then some { s with add := .returned } else none
      | _ => some { s with add := .failed }
    else none
  | .addGiveUp =>
    match s.add with
    | .finding _ | .waiting => some { s with add := .failed }
    | _ => none
  | .delArrive id podUid => some { s with dels := s.dels ++ [⟨id, podUid, .locking⟩] }
  | .delLock i =>
    (s.delAt i .locking).map fun _ =>
      (s.write (Del.lock s.registry).2).setDel i (Del.lock s.registry).1
  | .delCheck i =>
    (s.delAt i .checking).map fun d => s.setDel i (Del.check d.containerid s.registry)
  | .delFind i api =>
    (s.delAt i .finding).bind fun d => (Del.find d.podUid api s.registry).map (s.setDel i)
  | .delGiveUp i => (s.delAt i .finding).map fun _ => s.setDel i .failed
  | .delDisconnect i ok =>
    s.dels[i]?.bind fun d =>
      match d.pc with
      | .disconnecting _ => some (s.setDel i (if ok then .finishing else .failed))
      | _ => none
  | .delFinish i =>
    (s.delAt i .finishing).map fun _ =>
      (s.write (Del.finish s.registry).2).setDel i (Del.finish s.registry).1

def webSetup : Setup := ⟨⟨"c1", by decide⟩, none⟩

/-- The name before its KuryrPort. -/
def unknownPod : State where
  registry := none
  kp := ⟨0, "pod-uid", some false⟩
  live := true
  deleting := false
  add := .starting
  dels := []
  seen := false
  removals := 0
  taken := none

/-! ## What a step can do -/

/-- What a step of a DEL makes of its place and of the slot. -/
inductive DelStep (d : Del) : Registry → DelPc → Registry → Prop where
  | missing : d.pc = .locking ∨ d.pc = .checking → DelStep d none .finding none
  | sentinel : DelStep d (some .sentinel) .ignored none
  | read {e : Entry} : d.pc = .locking → DelStep d (some (.entry e)) .checking (some (.entry e))
  | pass {e : Entry} : d.pc = .checking → (∀ id, e.containerid = some id → id = d.containerid) →
      DelStep d (some (.entry e)) .finding (some (.entry e))
  | found {e : Entry} : d.pc = .finding → Matches d.podUid e.kp →
      DelStep d (some (.entry e)) (.disconnecting e.kp) (some (.entry e))
  | disconnected {kp : KuryrPort} {r : Registry} : d.pc = .disconnecting kp →
      DelStep d r .finishing r
  | late : d.pc = .finishing → DelStep d none .accepted none
  | remove {e : Entry} : d.pc = .finishing → e.delReceived = true →
      DelStep d (some (.entry e)) .accepted none
  | mark {e : Entry} : d.pc = .finishing → e.delReceived = false →
      DelStep d (some (.entry e)) .accepted (some (.entry { e with vifUnplugged := true }))
  | stop {pc : DelPc} {r : Registry} : pc = .ignored ∨ pc = .failed → DelStep d r pc r

/-- What a step makes of the state. -/
inductive Stepped (cfg : Setup) (s : State) : Action → State → Prop where
  | add {a : Action} (pc : AddPc) : Stepped cfg s a { s with add := pc }
  | vif {vifs : Vifs} : s.live = true → s.deleting = false →
      Stepped cfg s (.onVif vifs) { s with registry := onVif s.kp vifs s.registry, seen := true }
  | testEntry {e : Entry} : s.live = true → s.registry = some (.entry e) →
      Stepped cfg s .deletedTest { s with live := false, deleting := true }
  | testOther : s.live = true → (∀ e, s.registry ≠ some (.entry e)) →
      Stepped cfg s .deletedTest { s with live := false }
  | deleted : s.deleting = true →
      Stepped cfg s .deletedLock { s.write (onDeleted s.registry) with deleting := false }
  | recreate {podUid : String} {podStatic : Option Bool} : s.live = false → s.deleting = false →
      Stepped cfg s (.recreate podUid podStatic)
        { s with kp := ⟨s.kp.uid + 1, podUid, podStatic⟩, live := true }
  | finalize : Stepped cfg s .onFinalize { s with registry := onFinalize s.registry }
  | take {api : Option Bool} {e : Entry} : s.registry = some (.entry e) →
      Stepped cfg s (.addFind api) { s with add := .connecting, taken := some e.kp.uid }
  | record {e : Entry} : s.registry = some (.entry e) →
      Stepped cfg s .addRecord
        { s with
          registry := some (.entry { e with containerid := some cfg.containerid })
          add := .waiting }
  | arrive {id : ContainerId} {podUid : Option String} :
      Stepped cfg s (.delArrive id podUid) { s with dels := s.dels ++ [⟨id, podUid, .locking⟩] }
  | del {a : Action} {i : Nat} {d : Del} {pc : DelPc} {r : Registry} : s.dels[i]? = some d →
      (d.pc = .checking → a = .delCheck i) → DelStep d s.registry pc r →
      Stepped cfg s a ((s.write r).setDel i pc)

section

variable {cfg : Setup} {s s' : State} {a : Action}

theorem removed_self (r : Registry) : removed r r = 0 := by
  match r with
  | none => rfl
  | some .sentinel => rfl
  | some (.entry _) => rfl

theorem State.write_self (s : State) : s.write s.registry = s := by
  unfold State.write
  rw [removed_self]
  rfl

theorem find_found {podUid : Option String} {api : Option Bool} {r : Registry} {e : Entry}
    (h : find podUid api r = .found e) : r = some (.entry e) ∧ Matches podUid e.kp := by
  unfold find at h
  split at h
  · cases h
  · cases h
  · split at h
    · cases h
      exact ⟨rfl, .inl rfl⟩
    · split at h
      · rename_i heq
        cases h
        exact ⟨rfl, .inr (.inl (congrArg some heq.symm))⟩
      · split at h
        · cases h
        · rename_i hstatic
          cases h
          refine ⟨rfl, .inr (.inr fun hfalse => ?_)⟩
          rw [hfalse] at hstatic
          cases hstatic
        · cases h

theorem delAt_some {i : Nat} {pc : DelPc} {d : Del} (h : s.delAt i pc = some d) :
    s.dels[i]? = some d ∧ d.pc = pc := by
  obtain ⟨d', hd', h⟩ := Option.bind_eq_some_iff.mp h
  split at h
  · cases h
    exact ⟨hd', ‹_›⟩
  · cases h

/-- `on_vif` leaves an entry of the KuryrPort: the one that was there, or a new one. -/
theorem onVif_entry (kp : KuryrPort) (vifs : Vifs) (r : Registry) :
    ∃ e', onVif kp vifs r = some (.entry e') ∧ e'.kp.uid = kp.uid ∧
      ((∃ e, r = some (.entry e) ∧ e.kp.uid = kp.uid ∧ e' = { e with vifs := e'.vifs }) ∨
        (∀ e, r = some (.entry e) → e.kp.uid ≠ kp.uid) ∧ e' = .fresh kp vifs) := by
  match r with
  | none => exact ⟨_, rfl, rfl, .inr ⟨nofun, rfl⟩⟩
  | some .sentinel => exact ⟨_, rfl, rfl, .inr ⟨nofun, rfl⟩⟩
  | some (.entry e) =>
    unfold onVif
    simp only
    split
    · rename_i hne
      refine ⟨_, rfl, rfl, .inr ⟨fun e' he' => ?_, rfl⟩⟩
      cases he'
      exact hne
    · rename_i huid
      rw [not_not] at huid
      split
      · exact ⟨_, rfl, huid, .inl ⟨e, rfl, huid, rfl⟩⟩
      · exact ⟨_, rfl, huid, .inl ⟨e, rfl, huid, rfl⟩⟩

theorem onDeleted_entry {r : Registry} {e' : Entry} (h : onDeleted r = some (.entry e')) :
    ∃ e, r = some (.entry e) ∧ e' = { e with delReceived := true } := by
  match r with
  | some (.entry e) =>
    rw [onDeleted] at h
    split at h
    · cases h
    · cases h
      exact ⟨e, rfl, rfl⟩

theorem onFinalize_entry {r : Registry} {e : Entry} (h : onFinalize r = some (.entry e)) :
    r = some (.entry e) := by
  cases r with
  | none => cases h
  | some slot => exact h

/-- A DEL that leaves the slot alone. -/
theorem Stepped.delOnly {i : Nat} {d : Del} {pc : DelPc} (hd : s.dels[i]? = some d)
    (ha : d.pc = .checking → a = .delCheck i) (h : DelStep d s.registry pc s.registry) :
    Stepped cfg s a (s.setDel i pc) := by
  have hstep : Stepped cfg s a ((s.write s.registry).setDel i pc) := .del hd ha h
  rwa [State.write_self] at hstep

theorem Stepped.lock {i : Nat} {d : Del} (hd : s.dels[i]? = some d) (hpc : d.pc = .locking) :
    Stepped cfg s a ((s.write (Del.lock s.registry).2).setDel i (Del.lock s.registry).1) := by
  have hstep : DelStep d s.registry (Del.lock s.registry).1 (Del.lock s.registry).2 := by
    match s.registry with
    | none => exact .missing (.inl hpc)
    | some .sentinel => exact .sentinel
    | some (.entry e) => exact .read hpc
  refine .del hd (fun h => ?_) hstep
  rw [hpc] at h
  cases h

theorem Stepped.check {i : Nat} {d : Del} (hd : s.dels[i]? = some d) (hpc : d.pc = .checking) :
    Stepped cfg s (.delCheck i) (s.setDel i (Del.check d.containerid s.registry)) := by
  refine .delOnly hd (fun _ => rfl) ?_
  match s.registry with
  | none => exact .missing (.inr hpc)
  | some .sentinel => exact .stop (.inr rfl)
  | some (.entry e) =>
    unfold Del.check
    simp only
    split
    · rename_i hid
      exact .pass hpc fun id h => by rw [hid] at h; cases h
    · rename_i reg hid
      split
      · exact .stop (.inl rfl)
      · rename_i hreg
        refine .pass hpc fun id h => ?_
        rw [hid] at h
        cases h
        exact not_not.mp hreg

theorem Stepped.find {i : Nat} {d : Del} {pc : DelPc} {api : Option Bool}
    (hd : s.dels[i]? = some d) (hpc : d.pc = .finding)
    (h : Del.find d.podUid api s.registry = some pc) : Stepped cfg s a (s.setDel i pc) := by
  refine .delOnly hd (fun h => ?_) ?_
  · rw [hpc] at h
    cases h
  · unfold Del.find at h
    split at h
    · cases h
    · cases h
      exact .stop (.inr rfl)
    · cases h
      exact .stop (.inr rfl)
    · rename_i e hfound
      cases h
      obtain ⟨hreg, hmatches⟩ := find_found hfound
      rw [hreg]
      exact .found hpc hmatches

theorem Stepped.finish {i : Nat} {d : Del} (hd : s.dels[i]? = some d) (hpc : d.pc = .finishing) :
    Stepped cfg s a ((s.write (Del.finish s.registry).2).setDel i (Del.finish s.registry).1) := by
  have hstep : DelStep d s.registry (Del.finish s.registry).1 (Del.finish s.registry).2 := by
    match s.registry with
    | none => exact .late hpc
    | some .sentinel => exact .stop (.inr rfl)
    | some (.entry e) =>
      unfold Del.finish
      simp only
      split
      · exact .remove hpc ‹_›
      · rename_i hdel
        exact .mark hpc (Bool.eq_false_iff.mpr hdel)
  refine .del hd (fun h => ?_) hstep
  rw [hpc] at h
  cases h

/-- **Inversion of the step function.** -/
theorem stepped_of_step (h : step cfg s a = some s') : Stepped cfg s a s' := by
  cases a with
  | onVif vifs =>
    simp only [step] at h
    split at h
    · rename_i hlive
      split at h
      · cases h
        exact .add s.add
      · cases h
        exact .vif hlive.1 (by simpa using hlive.2)
    · cases h
  | deletedTest =>
    simp only [step] at h
    split at h
    · split at h
      · cases h
        exact .testEntry ‹_› ‹_›
      · cases h
        exact .testOther ‹_› fun e he => by simp_all
    · cases h
  | deletedLock =>
    simp only [step] at h
    split at h
    · cases h
      exact .deleted ‹_›
    · cases h
  | recreate podUid podStatic =>
    simp only [step] at h
    split at h
    · cases h
    · rename_i hnot
      cases h
      rw [not_or] at hnot
      exact .recreate (by simpa using hnot.1) (by simpa using hnot.2)
  | onFinalize =>
    cases h
    exact .finalize
  | addStart pod =>
    simp only [step] at h
    split at h
    · split at h
      · cases h
        exact .add _
      · cases h
        exact .add _
    · cases h
  | addFind api =>
    simp only [step] at h
    split at h
    · split at h
      · cases h
      · cases h
        exact .add _
      · cases h
        exact .add _
      · rename_i hfound
        cases h
        exact .take (find_found hfound).1
    · cases h
  | addConnect ok =>
    simp only [step] at h
    split at h
    · cases h
      exact .add _
    · cases h
  | addRecord =>
    simp only [step] at h
    split at h
    · split at h
      · cases h
        exact .record ‹_›
      · cases h
        exact .add _
    · cases h
  | addWait =>
    simp only [step] at h
    split at h
    · split at h
      · split at h
        · cases h
          exact .add _
        · cases h
      · cases h
        exact .add _
    · cases h
  | addGiveUp =>
    simp only [step] at h
    split at h
    · cases h
      exact .add _
    · cases h
      exact .add _
    · cases h
  | delArrive id podUid =>
    cases h
    exact .arrive
  | delLock i =>
    obtain ⟨d, hd, rfl⟩ := Option.map_eq_some_iff.mp h
    exact .lock (delAt_some hd).1 (delAt_some hd).2
  | delCheck i =>
    obtain ⟨d, hd, rfl⟩ := Option.map_eq_some_iff.mp h
    exact .check (delAt_some hd).1 (delAt_some hd).2
  | delFind i api =>
    obtain ⟨d, hd, h⟩ := Option.bind_eq_some_iff.mp h
    obtain ⟨pc, hpc, rfl⟩ := Option.map_eq_some_iff.mp h
    exact .find (delAt_some hd).1 (delAt_some hd).2 hpc
  | delGiveUp i =>
    obtain ⟨d, hd, rfl⟩ := Option.map_eq_some_iff.mp h
    refine .delOnly (delAt_some hd).1 (fun hpc => ?_) (.stop (.inr rfl))
    rw [(delAt_some hd).2] at hpc
    cases hpc
  | delDisconnect i ok =>
    obtain ⟨d, hd, h⟩ := Option.bind_eq_some_iff.mp h
    split at h
    · rename_i kp hpc
      cases h
      refine .delOnly hd (fun h => ?_) ?_
      · rw [hpc] at h
        cases h
      · split
        · exact .disconnected hpc
        · exact .stop (.inr rfl)
    · cases h
  | delFinish i =>
    obtain ⟨d, hd, rfl⟩ := Option.map_eq_some_iff.mp h
    exact .finish (delAt_some hd).1 (delAt_some hd).2

/-- After a step of a DEL. -/
theorem mem_setDel {i : Nat} {d d' : Del} {pc : DelPc} (hd : s.dels[i]? = some d)
    (h : d' ∈ (s.setDel i pc).dels) : d' ∈ s.dels ∨ d' = { d with pc := pc } := by
  obtain ⟨j, hj⟩ := List.mem_iff_getElem?.mp h
  have hj : (s.dels.modify i fun d => { d with pc := pc })[j]? = some d' := hj
  rw [List.getElem?_modify] at hj
  obtain ⟨d₀, hd₀, hd'⟩ := Option.map_eq_some_iff.mp hj
  by_cases hij : i = j
  · subst hij
    rw [hd] at hd₀
    cases hd₀
    exact .inr (by simpa using hd'.symm)
  · rw [if_neg hij] at hd'
    exact .inl (hd' ▸ List.mem_of_getElem? hd₀)

end

/-- The KuryrPort's DELETED event has been processed. -/
def State.Deleted (s : State) : Prop := s.live = false ∧ s.deleting = false

/-- A DEL has gone through to its end. -/
def State.Accepted (s : State) : Prop := ∃ d ∈ s.dels, d.pc = .accepted

end Cni

end KuryrKubernetes
