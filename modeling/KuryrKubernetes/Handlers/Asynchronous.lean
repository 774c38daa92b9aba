import Mathlib.Logic.Function.Basic
import Mathlib.Data.List.Basic
import KuryrKubernetes.Lib.Transition

/-!
# Asynchronous handling of related events

`Async` gives each group of related events a queue and a worker thread. A call looks
the queue up, or makes it together with its worker, under the lock of the group, and
puts the event after it has released the lock. The worker leaves when its queue has
been empty for the grace period, and only then `_done` removes the queue.

`State` is one group. Events are numbered in the order their calls took the lock,
queues in the order they were made; a queue may outlive its registration in the hands
of a call that looked it up. Every step of a call, a worker or `_done` is one
`Action`, and `asyncSystem` is any interleaving of them.

Handler calls never overlap in any run. Nothing is lost, and order is kept, in the
runs whose steps meet `StepOk`: the two windows it closes are the ones between a
lookup and its put, and between a timeout and `_done`.
-/

namespace KuryrKubernetes

namespace Async

open Transition

/-- Where the worker of a queue is. -/
inductive Phase where
  /-- in `queue.get(timeout=...)` -/
  | waiting
  /-- has an event, and looks for a newer one -/
  | holding (e : Nat)
  /-- in the handler -/
  | handling (e : Nat)
  /-- timed out and left the loop; `_done` has not run -/
  | stopped
  | gone
deriving DecidableEq, Repr

/-- A queue and its worker. -/
structure Slot where
  items : List Nat
  phase : Phase
deriving DecidableEq, Repr

/-- A group of related events. -/
structure State where
  slots : Nat → Slot
  /-- the number of queues made so far -/
  made : Nat
  /-- `_queues.get(group)` -/
  registered : Option Nat
  /-- calls between lookup and put: the event and the queue -/
  calls : List (Nat × Nat)
  /-- the number of events accepted so far -/
  arrived : Nat
  /-- the events the handler was called with -/
  handled : List Nat

def State.setSlot (s : State) (q : Nat) (slot : Slot) : State :=
  { s with slots := Function.update s.slots q slot }

inductive Action where
  | lookUp (injected : Bool)
  | put (e q : Nat)
  | get (q : Nat)
  | timeOut (q : Nat)
  | skim (q : Nat)
  | handle (q : Nat)
  | finish (q : Nat)
  | done (q : Nat)
deriving DecidableEq, Repr

/-- The locked part of `__call__`. -/
def lookUp (s : State) (injected : Bool) : State :=
  match s.registered with
  | some q =>
    if injected then
      s
    else
      { s with calls := s.calls ++ [(s.arrived, q)], arrived := s.arrived + 1 }
  | none =>
    { s.setSlot s.made ⟨[], .waiting⟩ with
      made := s.made + 1
      registered := some s.made
      calls := s.calls ++ [(s.arrived, s.made)]
      arrived := s.arrived + 1 }

/-- `queue.put`, which waits while a bounded queue is full. -/
def put (depth : Nat) (s : State) (e q : Nat) : Option State :=
  if (e, q) ∈ s.calls ∧ (depth = 0 ∨ (s.slots q).items.length < depth) then
    some { s.setSlot q { s.slots q with items := (s.slots q).items ++ [e] } with
      calls := s.calls.erase (e, q) }
  else
    none

/-- A step of a call, of a worker (`_run`) or of `_done`. -/
def step (depth : Nat) (s : State) : Action → Option State
  | .lookUp injected => some (lookUp s injected)
  | .put e q => put depth s e q
  | .get q =>
    match s.slots q with
    | ⟨e :: es, .waiting⟩ => some (s.setSlot q ⟨es, .holding e⟩)
    | _ => none
  | .timeOut q =>
    match s.slots q with
    | ⟨[], .waiting⟩ => some (s.setSlot q ⟨[], .stopped⟩)
    | _ => none
  | .skim q =>
    match s.slots q with
    | ⟨e :: es, .holding _⟩ => some (s.setSlot q ⟨es, .holding e⟩)
    | _ => none
  | .handle q =>
    match s.slots q with
    | ⟨[], .holding e⟩ =>
      some { s.setSlot q ⟨[], .handling e⟩ with handled := s.handled ++ [e] }
    | _ => none
  | .finish q =>
    match s.slots q with
    | ⟨es, .handling _⟩ => some (s.setSlot q ⟨es, .waiting⟩)
    | _ => none
  | .done q =>
    match s.slots q with
    | ⟨es, .stopped⟩ => some { s.setSlot q ⟨es, .gone⟩ with registered := none }
    | _ => none

/-- No event has arrived. -/
def idle : State where
  slots := fun _ => ⟨[], .gone⟩
  made := 0
  registered := none
  calls := []
  arrived := 0
  handled := []

def asyncSystem (depth : Nat) : System State Action where
  init := fun s => s = idle
  step := fun s a s' => step depth s a = some s'

/-! ## What is promised -/

/-- The handler is in one call at a time. -/
def Serial (s : State) : Prop :=
  ∀ q q' e e', (s.slots q).phase = .handling e → (s.slots q').phase = .handling e' → q = q'

/-- The handled events are a subsequence of the arrivals. -/
def InOrder (s : State) : Prop := s.handled.Sublist (List.range s.arrived)

/-- What the worker has taken out and not yet handled. -/
def Slot.inHand (slot : Slot) : List Nat :=
  match slot.phase with
  | .holding e => [e]
  | _ => []

/-- The worker has not left its loop. -/
def Slot.Live (slot : Slot) : Prop := slot.phase ≠ .stopped ∧ slot.phase ≠ .gone

instance (slot : Slot) : Decidable slot.Live := inferInstanceAs (Decidable (_ ∧ _))

/-- The event waits in the registered queue, or in the hand of its worker, and the
worker is live. -/
def Waits (s : State) (e : Nat) : Prop :=
  ∃ q, s.registered = some q ∧ (s.slots q).Live ∧ e ∈ (s.slots q).inHand ++ (s.slots q).items

/-- Every event that was put is handled or waits, or a later one does. -/
def NoneLost (s : State) : Prop :=
  ∀ e < s.arrived, e ∉ s.calls.map Prod.fst → ∃ e' ≥ e, e' ∈ s.handled ∨ Waits s e'

/-! ## One step -/

variable {depth : Nat} {s s' : State} {a : Action}

@[simp] theorem setSlot_self (s : State) (q : Nat) (slot : Slot) :
    (s.setSlot q slot).slots q = slot :=
  Function.update_self ..

theorem setSlot_other {q q' : Nat} (h : q' ≠ q) (slot : Slot) :
    (s.setSlot q slot).slots q' = s.slots q' :=
  Function.update_of_ne h ..

/-- Everything a step can do. A worker's step acts on one slot. -/
inductive Stepped : State → Action → State → Prop where
  | dropped {s : State} {q : Nat} (hreg : s.registered = some q) : Stepped s (.lookUp true) s
  | found {s : State} {q : Nat} {injected : Bool} (hreg : s.registered = some q) :
      Stepped s (.lookUp injected)
        { s with calls := s.calls ++ [(s.arrived, q)], arrived := s.arrived + 1 }
  | created {s : State} (injected : Bool) (hreg : s.registered = none) :
      Stepped s (.lookUp injected)
        { s.setSlot s.made ⟨[], .waiting⟩ with
          made := s.made + 1
          registered := some s.made
          calls := s.calls ++ [(s.arrived, s.made)]
          arrived := s.arrived + 1 }
  | put {s : State} {e q : Nat} (hcall : (e, q) ∈ s.calls) :
      Stepped s (.put e q)
        { s.setSlot q { s.slots q with items := (s.slots q).items ++ [e] } with
          calls := s.calls.erase (e, q) }
  | get {s : State} {q e : Nat} {es : List Nat} (hslot : s.slots q = ⟨e :: es, .waiting⟩) :
      Stepped s (.get q) (s.setSlot q ⟨es, .holding e⟩)
  | timeOut {s : State} {q : Nat} (hslot : s.slots q = ⟨[], .waiting⟩) :
      Stepped s (.timeOut q) (s.setSlot q ⟨[], .stopped⟩)
  | skim {s : State} {q e e' : Nat} {es : List Nat} (hslot : s.slots q = ⟨e :: es, .holding e'⟩) :
      Stepped s (.skim q) (s.setSlot q ⟨es, .holding e⟩)
  | handle {s : State} {q e : Nat} (hslot : s.slots q = ⟨[], .holding e⟩) :
      Stepped s (.handle q) { s.setSlot q ⟨[], .handling e⟩ with handled := s.handled ++ [e] }
  | finish {s : State} {q e : Nat} {es : List Nat} (hslot : s.slots q = ⟨es, .handling e⟩) :
      Stepped s (.finish q) (s.setSlot q ⟨es, .waiting⟩)
  | done {s : State} {q : Nat} {es : List Nat} (hslot : s.slots q = ⟨es, .stopped⟩) :
      Stepped s (.done q) { s.setSlot q ⟨es, .gone⟩ with registered := none }

theorem stepped_of_step (h : step depth s a = some s') : Stepped s a s' := by
  cases a with
  | lookUp injected =>
    simp only [step, lookUp, Option.some.injEq] at h
    split at h
    · rename_i q hreg
      split at h
      · rename_i hinjected
        subst h hinjected
        exact .dropped hreg
      · subst h
        exact .found hreg
    · rename_i hreg
      subst h
      exact .created _ hreg
  | put e q =>
    simp only [step, put, Option.ite_none_right_eq_some, Option.some.injEq] at h
    obtain ⟨⟨hcall, _⟩, rfl⟩ := h
    exact .put hcall
  | get q =>
    simp only [step] at h
    split at h
    · rename_i e es hslot
      cases h
      exact .get hslot
    · cases h
  | timeOut q =>
    simp only [step] at h
    split at h
    · rename_i hslot
      cases h
      exact .timeOut hslot
    · cases h
  | skim q =>
    simp only [step] at h
    split at h
    · rename_i e es e' hslot
      cases h
      exact .skim hslot
    · cases h
  | handle q =>
    simp only [step] at h
    split at h
    · rename_i e hslot
      cases h
      exact .handle hslot
    · cases h
  | finish q =>
    simp only [step] at h
    split at h
    · rename_i es e hslot
      cases h
      exact .finish hslot
    · cases h
  | done q =>
    simp only [step] at h
    split at h
    · rename_i es hslot
      cases h
      exact .done hslot
    · cases h

/-! ## One worker -/

/-- Only the registered queue has a worker. -/
structure OneWorker (s : State) : Prop where
  gone : ∀ q, s.registered ≠ some q → (s.slots q).phase = .gone
  present : ∀ q, s.registered = some q → (s.slots q).phase ≠ .gone

theorem OneWorker.registered (h : OneWorker s) {q : Nat} (hq : (s.slots q).phase ≠ .gone) :
    s.registered = some q := by
  by_contra hne
  exact hq (h.gone q hne)

theorem OneWorker.serial (h : OneWorker s) : Serial s := by
  intro q q' e e' hq hq'
  have hreg := h.registered (q := q) (by rw [hq]; exact Phase.noConfusion)
  have hreg' := h.registered (q := q') (by rw [hq']; exact Phase.noConfusion)
  exact Option.some.inj (hreg.symm.trans hreg')

theorem OneWorker.congr (h : OneWorker s) (hslots : s'.slots = s.slots)
    (hreg : s'.registered = s.registered) : OneWorker s' := by
  constructor
  · rw [hslots, hreg]
    exact h.gone
  · rw [hslots, hreg]
    exact h.present

/-- A change of a slot that makes no worker and ends none. -/
theorem OneWorker.setSlot (h : OneWorker s) {q : Nat} {slot : Slot}
    (hslot : slot.phase = .gone ↔ (s.slots q).phase = .gone) : OneWorker (s.setSlot q slot) := by
  have hsame : ∀ q', ((s.setSlot q slot).slots q').phase = .gone ↔ (s.slots q').phase = .gone := by
    intro q'
    by_cases heq : q' = q
    · rw [heq, setSlot_self]
      exact hslot
    · rw [setSlot_other heq]
  exact ⟨fun q' hq' => (hsame q').mpr (h.gone q' hq'),
    fun q' hq' => mt (hsame q').mp (h.present q' hq')⟩

theorem OneWorker.step (h : OneWorker s) (hstep : Stepped s a s') : OneWorker s' := by
  cases hstep with
  | dropped => exact h
  | found => exact h.congr rfl rfl
  | created _ hreg =>
    have hgone : ∀ q, (s.slots q).phase = .gone := fun q => h.gone q (by rw [hreg]; exact nofun)
    constructor
    · intro q hq
      have hne : q ≠ s.made := fun heq => hq (by rw [heq])
      show ((s.setSlot s.made ⟨[], .waiting⟩).slots q).phase = .gone
      rw [setSlot_other hne]
      exact hgone q
    · intro q hq
      cases hq
      show ((s.setSlot s.made ⟨[], .waiting⟩).slots s.made).phase ≠ .gone
      rw [setSlot_self]
      exact nofun
  | @put e q =>
    have hset : OneWorker (s.setSlot q ⟨(s.slots q).items ++ [e], (s.slots q).phase⟩) :=
      h.setSlot Iff.rfl
    exact hset.congr rfl rfl
  | get hslot => exact h.setSlot (by simp [hslot])
  | timeOut hslot => exact h.setSlot (by simp [hslot])
  | skim hslot => exact h.setSlot (by simp [hslot])
  | @handle q e hslot =>
    have hset : OneWorker (s.setSlot q ⟨[], .handling e⟩) := h.setSlot (by simp [hslot])
    exact hset.congr rfl rfl
  | finish hslot => exact h.setSlot (by simp [hslot])
  | @done q es hslot =>
    have hreg := h.registered (q := q) (by rw [hslot]; exact nofun)
    refine ⟨fun q' _ => ?_, nofun⟩
    show ((s.setSlot q ⟨es, .gone⟩).slots q').phase = .gone
    by_cases heq : q' = q
    · rw [heq, setSlot_self]
    · rw [setSlot_other heq]
      exact h.gone q' fun hsome => heq (Option.some.inj (hsome.symm.trans hreg))

theorem oneWorker_idle : OneWorker idle := ⟨fun _ _ => rfl, nofun⟩

/-! ## Nothing lost -/

/-- What the registered worker has not handled yet, oldest first. -/
def State.line (s : State) : List Nat :=
  match s.registered with
  | none => []
  | some q => (s.slots q).inHand ++ (s.slots q).items

/-- No call looks up a queue whose worker has left; no worker leaves while a call has
its queue; calls put in the order of their lookups. -/
def StepOk (s : State) : Action → Prop
  | .lookUp _ => ∀ q, s.registered = some q → (s.slots q).phase ≠ .stopped
  | .timeOut q => q ∉ s.calls.map Prod.snd
  | .put e q => s.calls.head? = some (e, q)
  | _ => True

/-- What every step that meets `StepOk` keeps. -/
structure Orderly (s : State) : Prop extends OneWorker s where
  calls : ∀ c ∈ s.calls, s.registered = some c.2
  stopped : ∀ q, s.registered = some q → (s.slots q).phase = .stopped →
    s.calls = [] ∧ (s.slots q).items = []
  order : (s.handled ++ s.line ++ s.calls.map Prod.fst).Sublist (List.range s.arrived)
  /-- An event that was put is handled or in the line, or a later one is. -/
  cover : ∀ e < s.arrived, e ∈ s.calls.map Prod.fst ∨ ∃ e' ≥ e, e' ∈ s.handled ++ s.line

theorem line_of_registered {q : Nat} (h : s.registered = some q) :
    s.line = (s.slots q).inHand ++ (s.slots q).items := by
  rw [State.line, h]

theorem line_congr (hslots : s'.slots = s.slots) (hreg : s'.registered = s.registered) :
    s'.line = s.line := by
  rw [State.line, State.line, hslots, hreg]

theorem line_setSlot {q : Nat} (h : s.registered = some q) (slot : Slot) :
    (s.setSlot q slot).line = slot.inHand ++ slot.items := by
  have hreg : (s.setSlot q slot).registered = some q := h
  rw [line_of_registered hreg, setSlot_self]

/-- A worker goes on: it handles `hs`, and keeps the rest of its line or drops events
for later ones. -/
theorem Orderly.work (h : Orderly s) {q : Nat} {slot : Slot} (hs : List Nat)
    (hreg : s.registered = some q) (hlive : slot.Live)
    (hline : (hs ++ (slot.inHand ++ slot.items)).Sublist s.line)
    (hlater : ∀ e ∈ s.line, ∃ e' ≥ e, e' ∈ hs ++ (slot.inHand ++ slot.items)) :
    Orderly { s.setSlot q slot with handled := s.handled ++ hs } := by
  have hgone : slot.phase = .gone ↔ (s.slots q).phase = .gone :=
    ⟨fun hg => absurd hg hlive.2, fun hg => absurd hg (h.present q hreg)⟩
  have hnew : State.line { s.setSlot q slot with handled := s.handled ++ hs } =
      slot.inHand ++ slot.items :=
    (line_congr rfl rfl).trans (line_setSlot hreg slot)
  refine ⟨(h.toOneWorker.setSlot hgone).congr rfl rfl, h.calls, ?_, ?_, ?_⟩
  · intro q' hq' hstopped
    obtain rfl : q = q' := Option.some.inj (hreg.symm.trans hq')
    rw [show State.slots { s.setSlot q slot with handled := s.handled ++ hs } q = slot from
      setSlot_self ..] at hstopped
    exact absurd hstopped hlive.1
  · rw [hnew]
    refine List.Sublist.trans ?_ h.order
    show ((s.handled ++ hs) ++ (slot.inHand ++ slot.items) ++ s.calls.map Prod.fst).Sublist _
    rw [List.append_assoc s.handled]
    exact ((List.Sublist.refl _).append hline).append (List.Sublist.refl _)
  · intro e he
    refine (h.cover e he).imp id ?_
    rintro ⟨e', he', hmem⟩
    rw [hnew]
    show ∃ e' ≥ e, e' ∈ s.handled ++ hs ++ (slot.inHand ++ slot.items)
    rw [List.append_assoc]
    rcases List.mem_append.mp hmem with hmem | hmem
    · exact ⟨e', he', List.mem_append_left _ hmem⟩
    · obtain ⟨e'', he'', hmem⟩ := hlater e' hmem
      exact ⟨e'', Nat.le_trans he' he'', List.mem_append_right _ hmem⟩

/-- A worker that handles nothing and keeps its line. -/
theorem Orderly.keep (h : Orderly s) {q : Nat} {slot : Slot} (hreg : s.registered = some q)
    (hlive : slot.Live) (hline : slot.inHand ++ slot.items = s.line) :
    Orderly (s.setSlot q slot) := by
  have hwork := h.work [] hreg hlive (by rw [List.nil_append, hline])
    fun e he => ⟨e, Nat.le_refl e, by rw [List.nil_append, hline]; exact he⟩
  rw [List.append_nil] at hwork
  exact hwork

/-- The line is in the order of arrival. -/
theorem Orderly.line_sorted (h : Orderly s) : s.line.Pairwise (· < ·) := by
  refine List.Pairwise.sublist ?_ (List.pairwise_lt_range (n := s.arrived))
  refine List.Sublist.trans ?_ h.order
  exact (List.sublist_append_right _ _).trans (List.sublist_append_left _ _)

/-- A call that looks up the registered queue, new or not. -/
theorem Orderly.call (h : Orderly s) {q : Nat} (hreg : s.registered = some q)
    (hlive : (s.slots q).phase ≠ .stopped) :
    Orderly { s with calls := s.calls ++ [(s.arrived, q)], arrived := s.arrived + 1 } := by
  refine ⟨h.toOneWorker.congr rfl rfl, ?_, ?_, ?_, ?_⟩
  · intro c hc
    rcases List.mem_append.mp hc with hc | hc
    · exact h.calls c hc
    · rw [List.mem_singleton.mp hc]
      exact hreg
  · intro q' hq' hstopped
    obtain rfl : q = q' := Option.some.inj (hreg.symm.trans hq')
    exact absurd hstopped hlive
  · show (s.handled ++ s.line ++ (s.calls ++ [(s.arrived, q)]).map Prod.fst).Sublist _
    rw [List.map_append, ← List.append_assoc, List.range_succ]
    exact h.order.append (List.Sublist.refl _)
  · intro e he
    show e ∈ (s.calls ++ [(s.arrived, q)]).map Prod.fst ∨ _
    rw [List.map_append, List.mem_append]
    rcases Nat.lt_succ_iff_lt_or_eq.mp he with he | rfl
    · exact (h.cover e he).imp .inl id
    · exact .inl (.inr List.mem_cons_self)

/-- No queue is registered, so no call has one and nothing is under way. -/
theorem Orderly.create (h : Orderly s) (hreg : s.registered = none) :
    Orderly { s.setSlot s.made ⟨[], .waiting⟩ with
      made := s.made + 1
      registered := some s.made
      calls := s.calls ++ [(s.arrived, s.made)]
      arrived := s.arrived + 1 } := by
  have hcalls : s.calls = [] := by
    rw [List.eq_nil_iff_forall_not_mem]
    intro c hc
    have hsome := h.calls c hc
    rw [hreg] at hsome
    cases hsome
  have hline : s.line = [] := by rw [State.line, hreg]
  have hfresh : Orderly { s.setSlot s.made ⟨[], .waiting⟩ with
      made := s.made + 1, registered := some s.made } := by
    have hworker := h.toOneWorker.step (.created false hreg)
    have hslot : (s.setSlot s.made ⟨[], .waiting⟩).slots s.made = ⟨[], .waiting⟩ := setSlot_self ..
    refine ⟨hworker.congr rfl rfl, ?_, ?_, ?_, ?_⟩
    · intro c hc
      have hc : c ∈ s.calls := hc
      rw [hcalls] at hc
      cases hc
    · rintro q hq hstopped
      cases hq
      have hstopped : ((s.setSlot s.made ⟨[], .waiting⟩).slots s.made).phase = .stopped := hstopped
      rw [hslot] at hstopped
      cases hstopped
    · show (s.handled ++ (((s.setSlot s.made ⟨[], .waiting⟩).slots s.made).inHand ++
        ((s.setSlot s.made ⟨[], .waiting⟩).slots s.made).items) ++ _).Sublist _
      rw [hslot]
      have horder := h.order
      rw [hline] at horder
      exact horder
    · intro e he
      refine (h.cover e he).imp id ?_
      rintro ⟨e', he', hmem⟩
      rw [hline, List.append_nil] at hmem
      exact ⟨e', he', List.mem_append_left _ hmem⟩
  refine hfresh.call rfl ?_
  show ((s.setSlot s.made ⟨[], .waiting⟩).slots s.made).phase ≠ .stopped
  rw [setSlot_self]
  exact nofun

theorem Orderly.put {e q : Nat} (h : Orderly s) (hcall : (e, q) ∈ s.calls)
    (hok : s.calls.head? = some (e, q)) :
    Orderly { s.setSlot q { s.slots q with items := (s.slots q).items ++ [e] } with
      calls := s.calls.erase (e, q) } := by
  obtain ⟨rest, hcalls⟩ : ∃ rest, s.calls = (e, q) :: rest := List.head?_eq_some_iff.mp hok
  have hreg := h.calls _ hcall
  have herase : s.calls.erase (e, q) = rest := by rw [hcalls, List.erase_cons_head]
  have hset : OneWorker (s.setSlot q ⟨(s.slots q).items ++ [e], (s.slots q).phase⟩) :=
    h.toOneWorker.setSlot Iff.rfl
  have hslot : (s.setSlot q ⟨(s.slots q).items ++ [e], (s.slots q).phase⟩).slots q =
    ⟨(s.slots q).items ++ [e], (s.slots q).phase⟩ := setSlot_self ..
  have hline : State.line { s.setSlot q ⟨(s.slots q).items ++ [e], (s.slots q).phase⟩ with
      calls := s.calls.erase (e, q) } = s.line ++ [e] := by
    refine (line_congr rfl rfl).trans ((line_setSlot hreg _).trans ?_)
    rw [line_of_registered hreg, List.append_assoc]
    rfl
  refine ⟨hset.congr rfl rfl, ?_, ?_, ?_, ?_⟩
  · intro c hc
    exact h.calls c (List.mem_of_mem_erase hc)
  · intro q' hq' hstopped
    obtain rfl : q = q' := Option.some.inj (hreg.symm.trans hq')
    have hphase : ((s.setSlot q ⟨(s.slots q).items ++ [e], (s.slots q).phase⟩).slots q).phase =
      .stopped := hstopped
    rw [hslot] at hphase
    have hnil := (h.stopped q hreg hphase).1
    rw [hnil] at hcall
    cases hcall
  · rw [hline]
    show (s.handled ++ (s.line ++ [e]) ++ (s.calls.erase (e, q)).map Prod.fst).Sublist
      (List.range s.arrived)
    have horder := h.order
    rw [hcalls] at horder
    rw [herase]
    simpa using horder
  · intro e' he'
    rw [hline]
    show e' ∈ (s.calls.erase (e, q)).map Prod.fst ∨ ∃ x ≥ e', x ∈ s.handled ++ (s.line ++ [e])
    rw [← List.append_assoc, herase]
    rcases h.cover e' he' with hmem | ⟨x, hx, hmem⟩
    · rw [hcalls, List.map_cons, List.mem_cons] at hmem
      rcases hmem with rfl | hmem
      · exact .inr ⟨_, Nat.le_refl _, List.mem_append_right _ List.mem_cons_self⟩
      · exact .inl hmem
    · exact .inr ⟨x, hx, List.mem_append_left _ hmem⟩

theorem Orderly.timeOut {q : Nat} (h : Orderly s) (hslot : s.slots q = ⟨[], .waiting⟩)
    (hok : q ∉ s.calls.map Prod.snd) : Orderly (s.setSlot q ⟨[], .stopped⟩) := by
  have hreg := h.registered (q := q) (by rw [hslot]; exact nofun)
  have hcalls : s.calls = [] := by
    rw [List.eq_nil_iff_forall_not_mem]
    intro c hc
    have hq : c.2 = q := Option.some.inj ((h.calls c hc).symm.trans hreg)
    exact hok (hq ▸ List.mem_map_of_mem hc)
  have hself : (s.setSlot q ⟨[], .stopped⟩).slots q = ⟨[], .stopped⟩ := setSlot_self ..
  have hline : (s.setSlot q ⟨[], .stopped⟩).line = s.line := by
    rw [line_setSlot hreg, line_of_registered hreg, hslot]
    rfl
  refine ⟨h.toOneWorker.setSlot (by simp [hslot]), h.calls, ?_, ?_, ?_⟩
  · intro q' hq' _
    obtain rfl : q = q' := Option.some.inj (hreg.symm.trans hq')
    rw [hself]
    exact ⟨hcalls, rfl⟩
  · rw [hline]
    exact h.order
  · rw [hline]
    exact h.cover

/-- The event in hand is older than the one that takes its place. -/
theorem Orderly.skim {q e e' : Nat} {es : List Nat} (h : Orderly s)
    (hslot : s.slots q = ⟨e :: es, .holding e'⟩) : Orderly (s.setSlot q ⟨es, .holding e⟩) := by
  have hreg := h.registered (q := q) (by rw [hslot]; exact nofun)
  have hline : s.line = e' :: e :: es := by
    rw [line_of_registered hreg, hslot]
    rfl
  have hlt : e' < e := by
    have hsorted := h.line_sorted
    rw [hline] at hsorted
    exact List.rel_of_pairwise_cons hsorted List.mem_cons_self
  have hwork : Orderly { s.setSlot q ⟨es, .holding e⟩ with handled := s.handled ++ [] } :=
    h.work [] hreg ⟨nofun, nofun⟩ ?_ ?_
  · rw [List.append_nil] at hwork
    exact hwork
  · rw [hline]
    exact List.sublist_cons_self _ _
  · intro x hx
    rw [hline] at hx
    rcases List.mem_cons.mp hx with rfl | hx
    · exact ⟨e, Nat.le_of_lt hlt, List.mem_cons_self⟩
    · exact ⟨x, Nat.le_refl x, hx⟩

theorem Orderly.done {q : Nat} {es : List Nat} (h : Orderly s)
    (hslot : s.slots q = ⟨es, .stopped⟩) :
    Orderly { s.setSlot q ⟨es, .gone⟩ with registered := none } := by
  have hreg := h.registered (q := q) (by rw [hslot]; exact nofun)
  obtain ⟨hcalls, hitems⟩ := h.stopped q hreg (by rw [hslot])
  have hline : s.line = [] := by
    rw [line_of_registered hreg, hitems, Slot.inHand, hslot]
    rfl
  refine ⟨h.toOneWorker.step (.done hslot), ?_, nofun, ?_, ?_⟩
  · intro c hc
    have hc : c ∈ s.calls := hc
    rw [hcalls] at hc
    cases hc
  · have horder := h.order
    rw [hline] at horder
    exact horder
  · intro e he
    have hcover := h.cover e he
    rw [hline] at hcover
    exact hcover

theorem Orderly.step (h : Orderly s) (hok : StepOk s a) (hstep : Stepped s a s') : Orderly s' := by
  cases hstep with
  | dropped => exact h
  | found hreg => exact h.call hreg (hok _ hreg)
  | created _ hreg => exact h.create hreg
  | put hcall => exact h.put hcall hok
  | @get q e es hslot =>
    have hreg := h.registered (q := q) (by rw [hslot]; exact nofun)
    refine h.keep hreg ⟨nofun, nofun⟩ ?_
    rw [line_of_registered hreg, hslot]
    rfl
  | timeOut hslot => exact h.timeOut hslot hok
  | skim hslot => exact h.skim hslot
  | @handle q e hslot =>
    have hreg := h.registered (q := q) (by rw [hslot]; exact nofun)
    have hline : s.line = [e] := by
      rw [line_of_registered hreg, hslot]
      rfl
    refine h.work [e] hreg ⟨nofun, nofun⟩ ?_ ?_
    · rw [hline]
      exact List.Sublist.refl _
    · intro x hx
      rw [hline] at hx
      exact ⟨x, Nat.le_refl x, hx⟩
  | @finish q e es hslot =>
    have hreg := h.registered (q := q) (by rw [hslot]; exact nofun)
    refine h.keep hreg ⟨nofun, nofun⟩ ?_
    rw [line_of_registered hreg, hslot]
    rfl
  | done hslot => exact h.done hslot

theorem orderly_idle : Orderly idle :=
  ⟨oneWorker_idle, nofun, nofun, List.Sublist.refl _, nofun⟩

theorem Orderly.noneLost (h : Orderly s) : NoneLost s := by
  intro e he hcall
  obtain hmem | ⟨e', he', hmem⟩ := h.cover e he
  · exact absurd hmem hcall
  · refine ⟨e', he', ?_⟩
    rcases List.mem_append.mp hmem with hmem | hmem
    · exact .inl hmem
    · right
      cases hreg : s.registered with
      | none =>
        rw [State.line, hreg] at hmem
        cases hmem
      | some q =>
        rw [line_of_registered hreg] at hmem
        refine ⟨q, hreg, ⟨fun hstopped => ?_, h.present q hreg⟩, hmem⟩
        rw [(h.stopped q hreg hstopped).2, Slot.inHand, hstopped] at hmem
        cases hmem

/-- In every run, whatever the interleaving. -/
theorem oneWorker_of_reach {ok : State → Action → Prop} (h : Reach (asyncSystem depth) ok s) :
    OneWorker s :=
  h.invariant (fun s hs => (show s = idle from hs) ▸ oneWorker_idle)
    fun _ _ _ hI _ hstep => hI.step (stepped_of_step hstep)

/-- **Serial, in order, nothing lost**, in every run whose steps meet `StepOk`. -/
theorem asyncSystem_lossless {depth : Nat} {s : State} (h : Reach (asyncSystem depth) StepOk s) :
    Serial s ∧ InOrder s ∧ NoneLost s := by
  have horderly : Orderly s := h.invariant (fun s hs => (show s = idle from hs) ▸ orderly_idle)
    fun _ _ _ hI hok hstep => hI.step hok (stepped_of_step hstep)
  refine ⟨(oneWorker_of_reach h).serial, ?_, horderly.noneLost⟩
  exact (List.sublist_append_left _ _).trans
    ((List.sublist_append_left _ _).trans horderly.order)

instance (s : State) (a : Action) : Decidable (StepOk s a) :=
  match a with
  | .lookUp _ => decidable_of_iff (s.registered.all fun q => (s.slots q).phase ≠ .stopped) (by
      cases hreg : s.registered with
      | none => simp [StepOk, hreg]
      | some q => simp [StepOk, hreg])
  | .timeOut q => inferInstanceAs (Decidable (q ∉ s.calls.map Prod.snd))
  | .put e q => inferInstanceAs (Decidable (s.calls.head? = some (e, q)))
  | .get _ | .skim _ | .handle _ | .finish _ | .done _ => inferInstanceAs (Decidable True)

/-- Two events, of which the worker skims the first, up to the end of the worker. -/
def twoEvents : List Action :=
  [.lookUp false, .put 0 0, .get 0, .lookUp false, .put 1 0, .skim 0, .handle 0, .finish 0,
    .timeOut 0, .done 0]

theorem asyncSystem_lossless_twoEvents :
    ∃ s, Reach (asyncSystem 100) StepOk s ∧ s.handled = [1] ∧ NoneLost s := by
  obtain ⟨s, hs, hhandled⟩ : ∃ s, execute (guarded StepOk (step 100)) idle twoEvents = some s ∧
      s.handled = [1] := ⟨_, rfl, rfl⟩
  have hreach : Reach (asyncSystem 100) StepOk s :=
    Reach.execute (fun _ _ _ h => of_guarded h) (.init rfl) hs
  exact ⟨s, hreach, hhandled, (asyncSystem_lossless hreach).2.2⟩

/-- A second event whose call has the queue when the worker times out. -/
def lateEvent : List Action :=
  [.lookUp false, .put 0 0, .get 0, .handle 0, .finish 0, .lookUp false, .timeOut 0, .put 1 0,
    .done 0]

/-- The second event is put into a queue without a worker, and stays there. -/
theorem asyncSystem_loses_lateEvent :
    ∃ s, Reach (asyncSystem 100) (fun _ _ => True) s ∧ ¬ NoneLost s := by
  obtain ⟨s, hs, hstate⟩ : ∃ s, execute (step 100) idle lateEvent = some s ∧
      s.arrived = 2 ∧ s.calls = [] ∧ s.handled = [0] ∧ s.registered = none :=
    ⟨_, rfl, rfl, rfl, rfl, rfl⟩
  obtain ⟨harrived, hcalls, hhandled, hreg⟩ := hstate
  refine ⟨s, Reach.execute (fun _ _ _ h => ⟨trivial, h⟩) (.init rfl) hs, fun hlost => ?_⟩
  obtain ⟨e, he, hmem | ⟨q, hq, _⟩⟩ := hlost 1 (by omega) (by rw [hcalls]; exact List.not_mem_nil)
  · rw [hhandled, List.mem_singleton] at hmem
    omega
  · rw [hreg] at hq
    cases hq

end Async

end KuryrKubernetes
