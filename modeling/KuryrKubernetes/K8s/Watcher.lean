import Mathlib.Data.Finset.Basic
import Mathlib.Logic.Function.Basic
import KuryrKubernetes.Lib.Dict
import KuryrKubernetes.Lib.Effect
import KuryrKubernetes.Lib.Transition

/-!
# The watcher

`Watcher` (`watcher.py`) in its asynchronous mode, with a positive
`watch_reconcile_period`: one watch loop and one reconcile timer for each path, both
run by the thread group.

- `State`: the fields of the watcher, and what the thread group runs.
- `add`, `remove`, `start`, `stop`: the calls. A loop is suspended when a call is
  made, so a call is one step.
- `loopStep`: a watch loop from one suspension to the next.
- `Bookkeeping`: the dictionaries say what is running.

A loop that is killed has its timer stopped before. A loop that leaves on its own
(`ownExit`) forgets its timer without stopping it, which goes unnoticed only when it
was the last one, since the process exits then. `bookkeeping_of_reach` is the run
theorem: nothing else breaks the bookkeeping, and this always does.
-/

namespace KuryrKubernetes

namespace Watcher

open Dicts Transition Effect

/-- Where a watch loop is suspended. -/
inductive Phase where
  /-- not entered yet -/
  | spawned
  /-- waiting for an event, or sleeping before a retry -/
  | idle
  /-- inside the handler -/
  | handling
deriving DecidableEq, Repr

/-- The watcher and its thread group. -/
structure State (π : Type) where
  running : Bool
  alive : Bool
  resources : Finset π
  /-- paths to threads -/
  watching : Dict π Nat
  /-- paths to timers -/
  timers : Dict π Nat
  idle : Dict π Bool
  /-- the live loops, by thread -/
  loops : Nat → Option (π × Phase)
  /-- the running timers -/
  ticking : Nat → Option π
  /-- the next thread or timer -/
  next : Nat
  /-- the process has exited -/
  exited : Bool

/-- What a call may end with besides returning. -/
inductive Fault where
  | keyError
  | systemExit
deriving DecidableEq, Repr

abbrev Call (π : Type) := EStateM Fault (State π)

variable {π : Type} [DecidableEq π]

/-! ## Threads and timers -/

/-- The loop of a thread is suspended somewhere else, or has ended. -/
def State.setLoop (s : State π) (t : Nat) (loop : Option (π × Phase)) : State π :=
  { s with loops := Function.update s.loops t loop }

/-- `self._watching.pop`, `self._timers.pop` and `self._idle.pop`. -/
def State.forget (s : State π) (path : π) : State π :=
  { s with
    watching := s.watching.erase path
    timers := s.timers.erase path
    idle := s.idle.erase path }

/-- The process exits. `stop` has been called before, and found nothing to stop. -/
def State.exit (s : State π) : State π :=
  { s with
    running := false
    loops := fun _ => none
    ticking := fun _ => none
    exited := true }

/-- `_graceful_watch_exit` (watcher.py:187–201). -/
def gracefulWatchExit (path : π) : Call π PUnit := do
  modify fun s => s.forget path
  let s ← get
  if s.watching.items = [] ∧ s.idle.items = [] then
    modify State.exit
    throw .systemExit

/-- `Thread.stop`: the thread is killed at once. A loop that has been entered runs its
`finally` clause, where `retry` is false. -/
def kill (t : Nat) : Call π PUnit := do
  let s ← get
  modify fun s => s.setLoop t none
  match s.loops t with
  | none | some (_, .spawned) => return
  | some (path, .idle) | some (path, .handling) => gracefulWatchExit path

/-- `Timer.stop`. -/
def stopTimer (i : Nat) : Call π PUnit :=
  modify fun s => { s with ticking := Function.update s.ticking i none }

/-- `d[path]`. -/
def subscript (d : Dict π Nat) (path : π) : Call π Nat :=
  match d.get? path with
  | some v => return v
  | none => throw .keyError

/-! ## Starting and stopping a watch -/

/-- `_start_watch` (watcher.py:159–173). -/
def startWatch (path : π) : Call π PUnit :=
  modify fun s => { s with
    idle := s.idle.set path true
    watching := s.watching.set path s.next
    loops := Function.update s.loops s.next (some (path, .spawned))
    timers := s.timers.set path (s.next + 1)
    ticking := Function.update s.ticking (s.next + 1) (some path)
    next := s.next + 2 }

/-- `_stop_watch` (watcher.py:175–185). -/
def stopWatch (path : π) : Call π PUnit := do
  let s ← get
  if s.idle.get? path = some true ∧ path ∈ s.watching.keys then
    stopTimer (← subscript s.timers path)
    kill (← subscript s.watching path)
    modify fun s => s.forget path

/-! ## The calls -/

/-- `add` (watcher.py:90–101). -/
def add (path : π) : Call π PUnit := do
  modify fun s => { s with resources := insert path s.resources }
  let s ← get
  if s.running ∧ path ∉ s.watching.keys then startWatch path

/-- `remove` (watcher.py:103–113). -/
def remove (path : π) : Call π PUnit := do
  modify fun s => { s with resources := s.resources.erase path }
  let s ← get
  if path ∈ s.watching.keys then stopWatch path

/-- `start` (watcher.py:118–126); `paths` are `self._resources - set(self._watching)`, in
some order. -/
def start (paths : List π) : Call π PUnit := do
  modify fun s => { s with running := true }
  paths.forM startWatch

/-- `stop` (watcher.py:128–135). -/
def stop : Call π PUnit := do
  modify fun s => { s with running := false }
  let s ← get
  s.watching.keys.forM stopWatch

/-! ## The watch loop -/

/-- What makes a loop go on. `K8sClient.watch` does not end by itself. -/
inductive LoopEvent where
  /-- the thread runs for the first time -/
  | enter
  /-- the client yields an event -/
  | event
  /-- the handler returns -/
  | returned
  /-- the client or the handler raises; `expired` if no time is left for a retry -/
  | failed (expired : Bool)
deriving DecidableEq, Repr

/-- The event meets a loop that is suspended there. -/
def LoopEvent.meets : LoopEvent → Phase → Bool
  | .enter, .spawned => true
  | .event, .idle => true
  | .returned, .handling => true
  | .failed _, .idle | .failed _, .handling => true
  | _, _ => false

/-- The condition of the `while` loop. -/
def State.wanted (s : State π) (path : π) : Prop := s.running = true ∧ path ∈ s.resources

instance (s : State π) (path : π) : Decidable (s.wanted path) := inferInstanceAs (Decidable (_ ∧ _))

/-- `_watch` (watcher.py:203–239), from one suspension to the next. A failed loop that is
no longer wanted ends in the condition of the `while` loop, without the `finally`
clause. -/
def loopStep (t : Nat) (path : π) : LoopEvent → Call π PUnit
  | .enter => modify fun s => s.setLoop t (if s.wanted path then some (path, .idle) else none)
  | .event => modify fun s =>
      { s with idle := s.idle.set path false }.setLoop t (some (path, .handling))
  | .returned => do
    modify fun s => { s with idle := s.idle.set path true }
    let s ← get
    if s.wanted path then modify fun s => s.setLoop t (some (path, .idle))
    else
      modify fun s => s.setLoop t none
      gracefulWatchExit path
  | .failed expired => do
    modify fun s => { s with idle := s.idle.set path true }
    let s ← get
    if ¬ s.wanted path then modify fun s => s.setLoop t none
    else if expired then
      modify fun s => { s with alive := false }.setLoop t none
      gracefulWatchExit path
    else modify fun s => s.setLoop t (some (path, .idle))

/-! ## Runs -/

inductive Action (π : Type) where
  | add (path : π)
  | remove (path : π)
  | start (paths : List π)
  | stop
  | loop (t : Nat) (e : LoopEvent)
deriving DecidableEq, Repr

/-- The state a call leaves, however it ends. -/
def after (x : Call π PUnit) (s : State π) : State π :=
  match x s with
  | .ok _ s' => s'
  | .error _ s' => s'

/-- One step of the process; `none` where the action cannot be taken. -/
def step (s : State π) (a : Action π) : Option (State π) :=
  if s.exited then none
  else
    match a with
    | .add path => some (after (add path) s)
    | .remove path => some (after (remove path) s)
    | .start paths =>
      if paths.Nodup ∧ paths.toFinset = s.resources \ s.watching.keys.toFinset then
        some (after (start paths) s)
      else none
    | .stop => some (after stop s)
    | .loop t e =>
      match s.loops t with
      | none => none
      | some (path, phase) => if e.meets phase then some (after (loopStep t path e) s) else none

/-- A new watcher. -/
def new : State π where
  running := false
  alive := true
  resources := ∅
  watching := Dict.empty
  timers := Dict.empty
  idle := Dict.empty
  loops := fun _ => none
  ticking := fun _ => none
  next := 0
  exited := false

def system (π : Type) [DecidableEq π] : System (State π) (Action π) where
  init := fun s => s = new
  step := fun s a s' => step s a = some s'

/-! ## The dictionaries and what is running -/

/-- **The bookkeeping matches reality.** -/
structure Bookkeeping (s : State π) : Prop where
  one_loop : ∀ path t t' phase phase', s.loops t = some (path, phase) →
    s.loops t' = some (path, phase') → t = t'
  one_timer : ∀ path i i', s.ticking i = some path → s.ticking i' = some path → i = i'
  unwatched : ∀ path ∉ s.watching.keys,
    (∀ t phase, s.loops t ≠ some (path, phase)) ∧ ∀ i, s.ticking i ≠ some path
  keys : ∀ path, path ∈ s.watching.keys ↔ path ∈ s.timers.keys

/-- What every step keeps: the handle of a live loop is the one in `_watching`, and the
timers in `_timers` are those that run. -/
structure Consistent (s : State π) : Prop where
  loops : ∀ t path phase, s.loops t = some (path, phase) → s.watching.get? path = some t
  owner : ∀ path t, s.watching.get? path = some t →
    t < s.next ∧ ∀ path' phase, s.loops t = some (path', phase) → path' = path
  ticking : ∀ i path, s.ticking i = some path ↔ s.timers.get? path = some i
  timers : ∀ path, path ∈ s.watching.keys ↔ path ∈ s.timers.keys
  idle : ∀ path, path ∈ s.watching.keys ↔ path ∈ s.idle.keys
  fresh : ∀ n, s.next ≤ n → s.loops n = none ∧ s.ticking n = none

theorem Consistent.watched {s : State π} (h : Consistent s) {t : Nat} {path : π} {phase : Phase}
    (ht : s.loops t = some (path, phase)) : path ∈ s.watching.keys :=
  Dict.mem_keys.mpr ⟨t, Dict.get?_eq_some.mp (h.loops t path phase ht)⟩

theorem Consistent.bookkeeping {s : State π} (h : Consistent s) : Bookkeeping s where
  one_loop := fun path t t' phase phase' ht ht' => by
    have hsame := (h.loops t path phase ht).symm.trans (h.loops t' path phase' ht')
    exact Option.some.inj hsame
  one_timer := fun path i i' hi hi' => by
    have hsame := ((h.ticking i path).mp hi).symm.trans ((h.ticking i' path).mp hi')
    exact Option.some.inj hsame
  unwatched := fun path hpath => by
    constructor
    · exact fun t phase ht => hpath (h.watched ht)
    · intro i hi
      have hget := (h.ticking i path).mp hi
      rw [Dict.get?_eq_none.mpr (mt (h.timers path).mpr hpath)] at hget
      cases hget
  keys := h.timers

theorem consistent_new : Consistent (new : State π) where
  loops := fun _ _ _ h => by cases h
  owner := fun _ _ h => by cases h
  ticking := fun _ _ => by simp [new, Dict.get?]
  timers := fun _ => Iff.rfl
  idle := fun _ => Iff.rfl
  fresh := fun _ _ => ⟨rfl, rfl⟩

/-- A process that has nothing to watch can exit. -/
theorem Consistent.exit {s : State π} (hw : s.watching.items = []) (ht : s.timers.items = [])
    (hi : s.idle.items = []) : Consistent s.exit where
  loops := fun _ _ _ h => by cases h
  owner := fun path t h => by
    have hnone : s.watching.get? path = none := by simp [Dict.get?, hw]
    change s.watching.get? path = some t at h
    rw [hnone] at h
    cases h
  ticking := fun i path => by
    have hnone : s.timers.get? path = none := by simp [Dict.get?, ht]
    show none = some path ↔ s.timers.get? path = some i
    simp [hnone]
  timers := fun path => by simp [State.exit, Dict.keys, hw, ht]
  idle := fun path => by simp [State.exit, Dict.keys, hw, hi]
  fresh := fun _ _ => ⟨rfl, rfl⟩

/-- The loop of a path is suspended somewhere else, or has ended. -/
theorem Consistent.setLoop {s : State π} (h : Consistent s) {t : Nat} {path : π} {phase : Phase}
    (ht : s.loops t = some (path, phase)) {loop : Option (π × Phase)}
    (hloop : ∀ e ∈ loop, e.1 = path) : Consistent (s.setLoop t loop) where
  loops := fun t' path' phase' ht' => by
    change Function.update s.loops t loop t' = _ at ht'
    by_cases he : t' = t
    · subst he
      rw [Function.update_self] at ht'
      obtain rfl : path' = path := hloop _ ht'
      exact h.loops t' path' phase ht
    · rw [Function.update_of_ne he] at ht'
      exact h.loops t' path' phase' ht'
  owner := fun path' t' hget => by
    obtain ⟨hlt, howner⟩ := h.owner path' t' hget
    refine ⟨hlt, fun path'' phase' ht' => ?_⟩
    change Function.update s.loops t loop t' = _ at ht'
    by_cases he : t' = t
    · subst he
      rw [Function.update_self] at ht'
      exact (hloop _ ht').trans (howner path phase ht)
    · rw [Function.update_of_ne he] at ht'
      exact howner path'' phase' ht'
  ticking := h.ticking
  timers := h.timers
  idle := h.idle
  fresh := fun n hn => by
    have hne : n ≠ t := by
      rintro rfl
      rw [(h.fresh n hn).1] at ht
      cases ht
    have hkeep : Function.update s.loops t loop n = s.loops n := Function.update_of_ne hne _ _
    exact ⟨hkeep.trans (h.fresh n hn).1, (h.fresh n hn).2⟩

/-- Writing to `_idle` for a path that is watched. -/
theorem Consistent.setIdle {s : State π} (h : Consistent s) {path : π}
    (hpath : path ∈ s.watching.keys) (b : Bool) :
    Consistent { s with idle := s.idle.set path b } where
  loops := h.loops
  owner := h.owner
  ticking := h.ticking
  timers := h.timers
  idle := fun path' => by
    rw [h.idle path', Dict.set, Dict.mem_keys_upsert]
    constructor
    · exact .inr
    · rintro (rfl | hmem)
      · exact (h.idle path').mp hpath
      · exact hmem
  fresh := h.fresh

/-- A path that is not watched gets a loop and a timer. -/
theorem Consistent.startWatch {s : State π} (h : Consistent s) {path : π}
    (hpath : path ∉ s.watching.keys) : Consistent (after (startWatch path) s) where
  loops := fun t path' phase ht => by
    change Function.update s.loops s.next (some (path, .spawned)) t = _ at ht
    show (s.watching.set path s.next).get? path' = some t
    by_cases hn : t = s.next
    · subst hn
      rw [Function.update_self] at ht
      cases ht
      exact Dict.get?_upsert_self _ _ _
    · rw [Function.update_of_ne hn] at ht
      have hget := h.loops t path' phase ht
      have hne : path' ≠ path := by
        rintro rfl
        rw [Dict.get?_eq_none.mpr hpath] at hget
        cases hget
      exact (Dict.get?_upsert_of_ne _ _ hne).trans hget
  owner := fun path' t hget => by
    change (s.watching.set path s.next).get? path' = some t at hget
    by_cases hp : path' = path
    · subst hp
      have hset : (s.watching.set path' s.next).get? path' = some s.next :=
        Dict.get?_upsert_self _ _ _
      obtain rfl : s.next = t := Option.some.inj (hset.symm.trans hget)
      refine ⟨Nat.lt_add_of_pos_right (by decide), fun path'' phase ht => ?_⟩
      change Function.update s.loops s.next (some (path', .spawned)) s.next = _ at ht
      rw [Function.update_self] at ht
      cases ht
      rfl
    · have hset : (s.watching.set path s.next).get? path' = s.watching.get? path' :=
        Dict.get?_upsert_of_ne _ _ hp
      obtain ⟨hlt, howner⟩ := h.owner path' t (hset.symm.trans hget)
      refine ⟨Nat.lt_add_right 2 hlt, fun path'' phase ht => ?_⟩
      change Function.update s.loops s.next (some (path, .spawned)) t = _ at ht
      rw [Function.update_of_ne hlt.ne] at ht
      exact howner path'' phase ht
  ticking := fun i path' => by
    show Function.update s.ticking (s.next + 1) (some path) i = some path' ↔
      (s.timers.set path (s.next + 1)).get? path' = some i
    have hnew : s.ticking (s.next + 1) = none := (h.fresh _ (Nat.le_succ _)).2
    by_cases hp : path' = path
    · subst hp
      have hold : s.ticking i ≠ some path' := fun hi => hpath
        ((h.timers path').mpr
          (Dict.mem_keys.mpr ⟨i, Dict.get?_eq_some.mp ((h.ticking i path').mp hi)⟩))
      have hget : (s.timers.set path' (s.next + 1)).get? path' = some (s.next + 1) :=
        Dict.get?_upsert_self _ _ _
      rw [hget]
      by_cases hi : i = s.next + 1
      · subst hi
        simp
      · rw [Function.update_of_ne hi]
        simp [hold, Ne.symm hi]
    · have hget : (s.timers.set path (s.next + 1)).get? path' = s.timers.get? path' :=
        Dict.get?_upsert_of_ne _ _ hp
      rw [hget, ← h.ticking]
      by_cases hi : i = s.next + 1
      · subst hi
        simp [hnew, Ne.symm hp]
      · rw [Function.update_of_ne hi]
  timers := fun path' => by
    show path' ∈ (s.watching.set path s.next).keys ↔ path' ∈ (s.timers.set path (s.next + 1)).keys
    rw [Dict.set, Dict.set, Dict.mem_keys_upsert, Dict.mem_keys_upsert, h.timers]
  idle := fun path' => by
    show path' ∈ (s.watching.set path s.next).keys ↔ path' ∈ (s.idle.set path true).keys
    rw [Dict.set, Dict.set, Dict.mem_keys_upsert, Dict.mem_keys_upsert, h.idle]
  fresh := fun n hn => by
    change s.next + 2 ≤ n at hn
    obtain ⟨hl, ht⟩ := h.fresh n (by omega)
    have hne : n ≠ s.next := by omega
    have hne' : n ≠ s.next + 1 := by omega
    exact ⟨(Function.update_of_ne hne _ _).trans hl, (Function.update_of_ne hne' _ _).trans ht⟩

/-- A path whose loop and timer have been stopped is forgotten. -/
theorem Consistent.silenced {s : State π} (h : Consistent s) {path : π} {t i : Nat}
    (hwatch : s.watching.get? path = some t) (htimer : s.timers.get? path = some i) :
    Consistent (({ s with ticking := Function.update s.ticking i none }.setLoop t none).forget
      path) where
  loops := fun t' path' phase ht' => by
    change Function.update s.loops t none t' = _ at ht'
    show (s.watching.erase path).get? path' = some t'
    have hne : t' ≠ t := by
      rintro rfl
      rw [Function.update_self] at ht'
      cases ht'
    rw [Function.update_of_ne hne] at ht'
    have hget := h.loops t' path' phase ht'
    have hpath : path' ≠ path := by
      rintro rfl
      exact hne (Option.some.inj (hget.symm.trans hwatch))
    exact (Dict.get?_erase_of_ne _ hpath).trans hget
  owner := fun path' t' hget => by
    change (s.watching.erase path).get? path' = some t' at hget
    obtain ⟨hpath, hget⟩ := Dict.get?_erase_eq_some.mp hget
    obtain ⟨hlt, howner⟩ := h.owner path' t' hget
    refine ⟨hlt, fun path'' phase ht' => ?_⟩
    change Function.update s.loops t none t' = _ at ht'
    by_cases he : t' = t
    · subst he
      rw [Function.update_self] at ht'
      cases ht'
    · rw [Function.update_of_ne he] at ht'
      exact howner path'' phase ht'
  ticking := fun i' path' => by
    show Function.update s.ticking i none i' = some path' ↔
      (s.timers.erase path).get? path' = some i'
    by_cases hp : path' = path
    · subst hp
      rw [Dict.get?_erase_self]
      by_cases hi : i' = i
      · subst hi
        simp
      · rw [Function.update_of_ne hi, h.ticking, htimer]
        simp [Ne.symm hi]
    · rw [Dict.get?_erase_of_ne _ hp, ← h.ticking]
      by_cases hi : i' = i
      · subst hi
        have hother : s.ticking i' = some path := (h.ticking i' path).mpr htimer
        simp [hother, Ne.symm hp]
      · rw [Function.update_of_ne hi]
  timers := fun path' => by
    show path' ∈ (s.watching.erase path).keys ↔ path' ∈ (s.timers.erase path).keys
    rw [Dict.mem_keys_erase, Dict.mem_keys_erase, h.timers]
  idle := fun path' => by
    show path' ∈ (s.watching.erase path).keys ↔ path' ∈ (s.idle.erase path).keys
    rw [Dict.mem_keys_erase, Dict.mem_keys_erase, h.idle]
  fresh := fun n hn => by
    obtain ⟨hl, ht⟩ := h.fresh n hn
    constructor
    · show Function.update s.loops t none n = none
      by_cases hnt : n = t
      · subst hnt
        exact Function.update_self ..
      · exact (Function.update_of_ne hnt _ _).trans hl
    · show Function.update s.ticking i none n = none
      by_cases hni : n = i
      · subst hni
        exact Function.update_self ..
      · exact (Function.update_of_ne hni _ _).trans ht

/-! ## The calls keep it -/

/-- However the call ends, the dictionaries say what is running; it raises nothing but
`SystemExit`. -/
def Keeps (P : State π → Prop) (x : Call π PUnit) (Q : State π → Prop) : Prop :=
  Triple P x (fun _ => Q) fun e s => e = .systemExit ∧ Consistent s

theorem Keeps.consistent_after {P : State π → Prop} {x : Call π PUnit} (h : Keeps P x Consistent)
    {s : State π} (hs : P s) : Consistent (after x s) := by
  have hx := h s hs
  unfold after
  cases hxs : x s with
  | ok a s' =>
    rw [hxs] at hx
    exact hx
  | error e s' =>
    rw [hxs] at hx
    exact hx.2

@[simp] theorem State.forget_forget (s : State π) (path : π) :
    (s.forget path).forget path = s.forget path := by
  have herase : ∀ {ν : Type} (d : Dict π ν), (d.erase path).erase path = d.erase path :=
    fun d => Dict.erase_of_get?_none (d.get?_erase_self path)
  simp only [State.forget, herase]

theorem gracefulWatchExit_keeps (path : π) :
    Keeps (fun s => Consistent (s.forget path)) (gracefulWatchExit path)
      fun s => Consistent (s.forget path) := by
  refine Triple.bind (Q := fun _ s => Consistent s ∧ s.forget path = s)
    (Triple.modify fun s hs => ⟨hs, s.forget_forget path⟩) fun _ => ?_
  refine Triple.get_bind fun s hs => ?_
  split
  · rename_i hempty
    refine Triple.bind (Triple.modify (Q := fun _ s' => Consistent s') ?_) fun _ =>
      Triple.throw fun s' hs' => ⟨rfl, hs'⟩
    rintro s' rfl
    have htimers : s'.timers.items = [] := by
      refine Dict.items_eq_nil fun path' hmem => ?_
      have hkey := (hs.1.timers path').mpr hmem
      rw [Dict.keys, hempty.1] at hkey
      cases hkey
    exact Consistent.exit hempty.1 htimers hempty.2
  · refine Triple.pure ?_
    rintro s' rfl
    rw [hs.2]
    exact hs.1

/-- A loop is killed after its timer has been stopped, before its path is forgotten. -/
theorem kill_keeps (path : π) (t : Nat) :
    Keeps (fun s => Consistent ((s.setLoop t none).forget path) ∧
        ∀ path' phase, s.loops t = some (path', phase) → path' = path) (kill t)
      fun s => Consistent (s.forget path) := by
  refine Triple.get_bind fun s hs => ?_
  refine Triple.bind (Q := fun _ s' => Consistent (s'.forget path))
    (Triple.modify fun s' hs' => hs' ▸ hs.1) fun _ => ?_
  rcases hloop : s.loops t with _ | ⟨path', phase⟩
  · exact Triple.pure fun _ h => h
  · obtain rfl := hs.2 path' phase hloop
    cases phase with
    | spawned => exact Triple.pure fun _ h => h
    | idle => exact gracefulWatchExit_keeps path'
    | handling => exact gracefulWatchExit_keeps path'

theorem Consistent.exists_handles {s : State π} (h : Consistent s) {path : π}
    (hpath : path ∈ s.watching.keys) :
    ∃ t i, s.watching.get? path = some t ∧ s.timers.get? path = some i := by
  obtain ⟨t, ht⟩ := Dict.mem_keys.mp hpath
  obtain ⟨i, hi⟩ := Dict.mem_keys.mp ((h.timers path).mp hpath)
  exact ⟨t, i, Dict.get?_eq_some.mpr ht, Dict.get?_eq_some.mpr hi⟩

theorem stopWatch_keeps (path : π) : Keeps Consistent (stopWatch path) Consistent := by
  refine Triple.get_bind fun s hs => ?_
  split
  · rename_i hstop
    obtain ⟨t, i, hwatch, htimer⟩ := hs.exists_handles hstop.2
    simp only [subscript, hwatch, htimer, pure_bind]
    refine Triple.bind (Q := fun _ s' => s' =
      { s with ticking := Function.update s.ticking i none })
      (Triple.modify fun s' hs' => by rw [hs']) fun _ => ?_
    refine Triple.bind ((kill_keeps path t).pre ?_) fun _ => Triple.modify fun s' hs' => hs'
    rintro s' rfl
    refine ⟨hs.silenced hwatch htimer, fun path' phase hloop => ?_⟩
    -- the thread in `_watching` runs the loop of its own path
    exact (hs.owner path t hwatch).2 path' phase hloop
  · exact Triple.pure fun s' hs' => hs' ▸ hs

/-- The flags and the resources are not part of the bookkeeping. -/
theorem Consistent.flags {s : State π} (h : Consistent s) (running alive : Bool)
    (resources : Finset π) :
    Consistent { s with running := running, alive := alive, resources := resources } :=
  ⟨h.loops, h.owner, h.ticking, h.timers, h.idle, h.fresh⟩

theorem startWatch_keeps (path : π) :
    Keeps (fun s => Consistent s ∧ path ∉ s.watching.keys) (startWatch path) Consistent :=
  Triple.modify fun _ hs => hs.1.startWatch hs.2

theorem add_keeps (path : π) : Keeps Consistent (add path) Consistent := by
  refine Triple.bind (Q := fun _ => Consistent)
    (Triple.modify fun s hs => hs.flags s.running s.alive _) fun _ => ?_
  refine Triple.get_bind fun s hs => ?_
  split
  · rename_i hstart
    refine (startWatch_keeps path).pre ?_
    rintro s' rfl
    exact ⟨hs, hstart.2⟩
  · exact Triple.pure fun s' hs' => hs' ▸ hs

theorem remove_keeps (path : π) : Keeps Consistent (remove path) Consistent := by
  refine Triple.bind (Q := fun _ => Consistent)
    (Triple.modify fun s hs => hs.flags s.running s.alive _) fun _ => ?_
  refine Triple.get_bind fun s hs => ?_
  split
  · exact (stopWatch_keeps path).pre fun s' hs' => hs' ▸ hs
  · exact Triple.pure fun s' hs' => hs' ▸ hs

/-- The paths still to start are not watched yet. -/
theorem start_keeps (paths : List π) :
    Keeps (fun s => Consistent s ∧ paths.Nodup ∧ ∀ path ∈ paths, path ∉ s.watching.keys)
      (start paths) Consistent := by
  refine Triple.bind (Triple.modify fun s hs => ⟨hs.1.flags true s.alive s.resources, hs.2⟩)
    fun _ => Triple.post (Triple.forM (I := fun paths s => Consistent s ∧ paths.Nodup ∧
      ∀ path ∈ paths, path ∉ s.watching.keys) (fun path rest => ?_) paths) fun _ _ h => h.1
  refine Triple.modify fun s hs => ?_
  obtain ⟨hcons, hnodup, hnew⟩ := hs
  obtain ⟨hpath, hrest⟩ := List.nodup_cons.mp hnodup
  refine ⟨hcons.startWatch (hnew path List.mem_cons_self), hrest, fun path' hpath' hmem => ?_⟩
  change path' ∈ (s.watching.set path s.next).keys at hmem
  rw [Dict.set, Dict.mem_keys_upsert] at hmem
  rcases hmem with rfl | hmem
  · exact hpath hpath'
  · exact hnew path' (List.mem_cons_of_mem _ hpath') hmem

theorem stop_keeps : Keeps Consistent (stop : Call π PUnit) Consistent := by
  refine Triple.bind (Q := fun _ => Consistent)
    (Triple.modify fun s hs => hs.flags false s.alive s.resources) fun _ => ?_
  refine Triple.get_bind fun s hs => ?_
  have hloop := Triple.forM (I := fun _ => Consistent) (f := stopWatch)
    (fun path _ => stopWatch_keeps path) s.watching.keys
  exact hloop.pre fun s' hs' => hs' ▸ hs

/-! ## Loops that leave on their own -/

/-- The path of a loop that leaves on its own: the handler returned and the path is no
longer wanted, or there was no time left for a retry. -/
def ownExit (s : State π) : Action π → Option π
  | .loop t .returned => (s.loops t).bind fun e => if s.wanted e.1 then none else some e.1
  | .loop t (.failed true) => (s.loops t).bind fun e => if s.wanted e.1 then some e.1 else none
  | _ => none

/-- A loop that leaves on its own is the last one. -/
def LeavesLast (s : State π) (a : Action π) : Prop :=
  ∀ path, ownExit s a = some path → ∀ path' ∈ s.watching.keys, path' = path

theorem after_modify_bind {π : Type} (f : State π → State π) (k : PUnit → Call π PUnit)
    (s : State π) : after (modify f >>= k) s = after (k ()) (f s) := rfl

theorem after_get_bind {π : Type} (k : State π → Call π PUnit) (s : State π) :
    after (get >>= k) s = after (k s) s := rfl

/-- The process exits with its last path; otherwise the path is forgotten. -/
theorem after_gracefulWatchExit (path : π) (s : State π) :
    after (gracefulWatchExit path) s =
      if (s.forget path).watching.items = [] ∧ (s.forget path).idle.items = [] then
        (s.forget path).exit else s.forget path := by
  unfold gracefulWatchExit
  rw [after_modify_bind, after_get_bind]
  by_cases hempty : (s.forget path).watching.items = [] ∧ (s.forget path).idle.items = []
  · rw [if_pos hempty, if_pos hempty]
    rfl
  · rw [if_neg hempty, if_neg hempty]
    rfl

theorem Consistent.leavesLast {s : State π} (h : Consistent s) {path : π}
    (hlast : ∀ path' ∈ s.watching.keys, path' = path) :
    Consistent (after (gracefulWatchExit path) s) := by
  have hnone : ∀ path', path' ∉ (s.watching.erase path).keys := fun path' hmem =>
    (Dict.mem_keys_erase.mp hmem).2 (hlast path' (Dict.mem_keys_erase.mp hmem).1)
  have hw : (s.forget path).watching.items = [] := Dict.items_eq_nil hnone
  have ht : (s.forget path).timers.items = [] := by
    refine Dict.items_eq_nil fun path' hmem => hnone path' ?_
    obtain ⟨hmem, hne⟩ := Dict.mem_keys_erase.mp hmem
    exact Dict.mem_keys_erase.mpr ⟨(h.timers path').mpr hmem, hne⟩
  have hi : (s.forget path).idle.items = [] := by
    refine Dict.items_eq_nil fun path' hmem => hnone path' ?_
    obtain ⟨hmem, hne⟩ := Dict.mem_keys_erase.mp hmem
    exact Dict.mem_keys_erase.mpr ⟨(h.idle path').mpr hmem, hne⟩
  rw [after_gracefulWatchExit, if_pos ⟨hw, hi⟩]
  exact Consistent.exit hw ht hi

/-- With another path watched, the forgotten timer goes on ticking. -/
theorem Consistent.not_bookkeeping_of_leaves {s : State π} (h : Consistent s) {path path' : π}
    (hpath : path ∈ s.watching.keys) (hother : path' ∈ s.watching.keys) (hne : path' ≠ path) :
    ¬ Bookkeeping (after (gracefulWatchExit path) s) := by
  have hleft : path' ∈ (s.watching.erase path).keys := Dict.mem_keys_erase.mpr ⟨hother, hne⟩
  have hstays : ¬ ((s.forget path).watching.items = [] ∧ (s.forget path).idle.items = []) := by
    rintro ⟨hempty, -⟩
    rw [Dict.keys, show (s.watching.erase path).items = [] from hempty] at hleft
    cases hleft
  rw [after_gracefulWatchExit, if_neg hstays]
  intro hbook
  obtain ⟨t, i, -, htimer⟩ := h.exists_handles hpath
  have hgone : path ∉ (s.watching.erase path).keys :=
    fun hmem => (Dict.mem_keys_erase.mp hmem).2 rfl
  exact (hbook.unwatched path hgone).2 i ((h.ticking i path).mpr htimer)

/-! ## Runs -/

/-- A loop goes on or ends quietly, or it leaves on its own. -/
theorem Consistent.loopStep {s : State π} (h : Consistent s) {t : Nat} {path : π} {phase : Phase}
    (ht : s.loops t = some (path, phase)) {e : LoopEvent} (hmeets : e.meets phase = true) :
    (ownExit s (.loop t e) = none ∧ Consistent (after (loopStep t path e) s)) ∨
      (ownExit s (.loop t e) = some path ∧ ∃ s₁, Consistent s₁ ∧ s₁.watching = s.watching ∧
        after (loopStep t path e) s = after (gracefulWatchExit path) s₁) := by
  have hwatched := h.watched ht
  have hgone : ∀ s₁ : State π, Consistent s₁ → s₁.loops t = some (path, phase) →
      Consistent (s₁.setLoop t none) := fun s₁ h₁ ht₁ => h₁.setLoop ht₁ fun _ he => by cases he
  have hgoes : ∀ (s₁ : State π) (phase' : Phase), Consistent s₁ → s₁.loops t = some (path, phase) →
      Consistent (s₁.setLoop t (some (path, phase'))) := fun s₁ phase' h₁ ht₁ =>
    h₁.setLoop ht₁ fun e he => by cases he; rfl
  have hidle : ∀ b, Consistent { s with idle := s.idle.set path b } := h.setIdle hwatched
  have hwanted : ({ s with idle := s.idle.set path true } : State π).wanted path ↔ s.wanted path :=
    Iff.rfl
  cases e with
  | enter =>
    refine .inl ⟨rfl, ?_⟩
    show Consistent (s.setLoop t (if s.wanted path then some (path, .idle) else none))
    split
    · exact hgoes s .idle h ht
    · exact hgone s h ht
  | event => exact .inl ⟨rfl, hgoes _ .handling (hidle false) ht⟩
  | returned =>
    simp only [Watcher.loopStep, after_modify_bind, after_get_bind, hwanted, ownExit, ht,
      Option.bind_some]
    by_cases hw : s.wanted path
    · refine .inl ⟨if_pos hw, ?_⟩
      rw [if_pos hw]
      exact hgoes _ .idle (hidle true) ht
    · refine .inr ⟨if_neg hw, _, hgone _ (hidle true) ht, rfl, ?_⟩
      rw [if_neg hw]
      rfl
  | failed expired =>
    simp only [Watcher.loopStep, after_modify_bind, after_get_bind, hwanted]
    by_cases hw : s.wanted path
    · rw [if_neg (not_not.mpr hw)]
      cases expired with
      | false =>
        exact .inl ⟨rfl, hgoes _ .idle (hidle true) ht⟩
      | true =>
        refine .inr ⟨?_, _, hgone _ ((hidle true).flags s.running false s.resources) ht, rfl, rfl⟩
        simp only [ownExit, ht, Option.bind_some, if_pos hw]
    · -- the condition of the `while` loop ends it
      rw [if_pos hw]
      refine .inl ⟨?_, hgone _ (hidle true) ht⟩
      cases expired with
      | false => rfl
      | true => simp only [ownExit, ht, Option.bind_some, if_neg hw]

/-- **One step** keeps the bookkeeping if and only if no loop leaves on its own while
another path is watched. -/
theorem Consistent.step {s s' : State π} {a : Action π} (h : Consistent s)
    (hstep : step s a = some s') :
    (LeavesLast s a → Consistent s') ∧ (¬ LeavesLast s a → ¬ Bookkeeping s') := by
  have hquiet : ownExit s a = none → Consistent s' →
      (LeavesLast s a → Consistent s') ∧ (¬ LeavesLast s a → ¬ Bookkeeping s') := by
    intro hown hcons
    refine ⟨fun _ => hcons, fun hnot => absurd ?_ hnot⟩
    intro path hpath
    rw [hown] at hpath
    cases hpath
  unfold Watcher.step at hstep
  split at hstep
  · cases hstep
  · cases a with
    | add path =>
      cases hstep
      exact hquiet rfl ((add_keeps path).consistent_after h)
    | remove path =>
      cases hstep
      exact hquiet rfl ((remove_keeps path).consistent_after h)
    | stop =>
      cases hstep
      exact hquiet rfl (stop_keeps.consistent_after h)
    | start paths =>
      dsimp only at hstep
      split at hstep
      · rename_i hpaths
        cases hstep
        refine hquiet rfl ((start_keeps paths).consistent_after
          ⟨h, hpaths.1, fun path hpath hmem => ?_⟩)
        have hdiff : path ∈ s.resources \ s.watching.keys.toFinset :=
          hpaths.2 ▸ List.mem_toFinset.mpr hpath
        exact (Finset.mem_sdiff.mp hdiff).2 (List.mem_toFinset.mpr hmem)
      · cases hstep
    | loop t e =>
      dsimp only at hstep
      rcases ht : s.loops t with _ | ⟨path, phase⟩
      · rw [ht] at hstep
        cases hstep
      · simp only [ht] at hstep
        split at hstep
        · rename_i hmeets
          cases hstep
          rcases h.loopStep ht hmeets with ⟨hown, hcons⟩ | ⟨hown, s₁, hcons, hsame, hafter⟩
          · exact hquiet hown hcons
          · rw [hafter]
            constructor
            · intro hlast
              exact hcons.leavesLast (hsame ▸ hlast path hown)
            · intro hnot
              obtain ⟨path', hother, hne⟩ : ∃ path' ∈ s.watching.keys, path' ≠ path := by
                by_contra hall
                refine hnot fun p hp path' hmem => ?_
                obtain rfl : path = p := Option.some.inj (hown.symm.trans hp)
                by_contra hne
                exact hall ⟨path', hmem, hne⟩
              exact hcons.not_bookkeeping_of_leaves (hsame ▸ h.watched ht) (hsame ▸ hother) hne
        · cases hstep

/-- **The bookkeeping matches reality** in every run where a loop leaves on its own only as
the last one; the first loop to leave otherwise breaks it. -/
theorem bookkeeping_of_reach {s : State π} (h : Reach (system π) LeavesLast s) :
    Bookkeeping s ∧ ∀ a s', step s a = some s' → (Bookkeeping s' ↔ LeavesLast s a) := by
  have hcons : Consistent s := by
    refine h.invariant (fun s₀ hs₀ => ?_) fun s₁ a s₂ h₁ hok hstep => (h₁.step hstep).1 hok
    cases hs₀
    exact consistent_new
  refine ⟨hcons.bookkeeping, fun a s' hstep => ?_⟩
  obtain ⟨hkeeps, hbreaks⟩ := hcons.step hstep
  constructor
  · intro hbook
    by_contra hnot
    exact hbreaks hnot hbook
  · exact fun hlast => (hkeeps hlast).bookkeeping

instance (s : State π) (a : Action π) : Decidable (LeavesLast s a) :=
  inferInstanceAs (Decidable (∀ path ∈ ownExit s a, ∀ path' ∈ s.watching.keys, path' = path))

/-- Two paths are watched; one is removed while its loop waits, and added again. -/
theorem bookkeeping_readded :
    ∃ s, Reach (system String) LeavesLast s ∧ s.watching.keys = ["/pods", "/services"] ∧
      s.next = 6 ∧ Bookkeeping s := by
  obtain ⟨s, hs, hkeys, hnext⟩ : ∃ s, execute (guarded LeavesLast step) new
      [.add "/services", .add "/pods", .start ["/services", "/pods"], .loop 0 .enter,
        .loop 2 .enter, .loop 2 .event, .loop 2 (.failed false), .remove "/services",
        .add "/services"] = some s ∧ s.watching.keys = ["/pods", "/services"] ∧ s.next = 6 :=
    ⟨_, rfl, by decide +kernel, rfl⟩
  have hinit : Reach (system String) LeavesLast new := .init rfl
  have hreach := Reach.execute (fun _ _ _ h => of_guarded h) hinit hs
  exact ⟨s, hreach, hkeys, hnext, (bookkeeping_of_reach hreach).1⟩

/-- A path is removed while its handler runs. Its timer outlives the loop, and when the
path is added again there are two. -/
theorem bookkeeping_broken_by_removal :
    ∃ s, Reach (system String) (fun _ _ => True) s ∧ ¬ Bookkeeping s := by
  obtain ⟨s, hs, hold, hnew⟩ : ∃ s, execute step new
      [.add "/services", .add "/pods", .start ["/services", "/pods"], .loop 2 .enter,
        .loop 2 .event, .remove "/pods", .loop 2 .returned, .add "/pods"] = some s ∧
      s.ticking 3 = some "/pods" ∧ s.ticking 5 = some "/pods" :=
    ⟨_, rfl, rfl, rfl⟩
  have hinit : Reach (system String) (fun _ _ => True) new := .init rfl
  refine ⟨s, Reach.execute (fun _ _ _ h => ⟨trivial, h⟩) hinit hs, fun hbook => ?_⟩
  have hsame := hbook.one_timer "/pods" 3 5 hold hnew
  cases hsame

end Watcher

end KuryrKubernetes
