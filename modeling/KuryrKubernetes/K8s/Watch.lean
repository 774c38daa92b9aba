import Mathlib.Data.List.Sort
import Mathlib.Data.List.Dedup
import Mathlib.Data.List.Induction
import Mathlib.Data.String.Basic
import KuryrKubernetes.Lib.Replay
import KuryrKubernetes.Lib.Transition

/-!
# Watching a collection

`K8sClient.watch` yields the events of a collection over connections that may break at
any point, and resumes with the version of the object it yielded last.

- The server: a history of changes in the order of their versions. A watch without a
  version first sends one `ADDED` event for each existing object, in the order of the
  keys, a watch with a version the changes after it; then both send what happens.
- `WatchState`: the history, what the connection has still to send, and the client.

The run theorem holds under `ConnectionOk`: a connection that breaks while the initial
events are being sent loses the objects that are still to come and older than the one
yielded last, unless they have changed since.
-/

namespace KuryrKubernetes

namespace Watch

open Transition Replay

inductive EventType where
  | ADDED | MODIFIED | DELETED
deriving DecidableEq, Repr

/-- An event, with the key and the `resourceVersion` of its object. -/
structure Event (κ : Type) where
  type : EventType
  key : κ
  version : Nat
deriving DecidableEq, Repr

/-- The version of the object after the event. -/
def Event.value {κ : Type} (e : Event κ) : Option Nat :=
  if e.type = .DELETED then none else some e.version

section Server

variable {κ : Type} [LinearOrder κ]

/-- The latest versions, by key. -/
def collection (es : List (Event κ)) : κ → Option Nat :=
  replay Event.key Event.value (fun _ => none) es

/-- The initial events of a watch without a version. -/
def snapshot (history : List (Event κ)) : List (Event κ) :=
  ((history.map Event.key).dedup.insertionSort (· ≤ ·)).filterMap fun k =>
    (collection history k).map fun v => ⟨.ADDED, k, v⟩

/-- What a new connection has to send. -/
def listen (history : List (Event κ)) : Option Nat → List (Event κ)
  | none => snapshot history
  | some v => history.filter fun e => v < e.version

/-- The change is newer than all others, and adds what is not there or changes what is. -/
def Fits (history : List (Event κ)) (e : Event κ) : Prop :=
  (∀ e' ∈ history, e'.version < e.version) ∧ (e.type = .ADDED ↔ collection history e.key = none)

instance (history : List (Event κ)) (e : Event κ) : Decidable (Fits history e) :=
  inferInstanceAs (Decidable (_ ∧ _))

end Server

/-- The server and the client. -/
structure WatchState (κ : Type) where
  history : List (Event κ)
  /-- what the connection has still to send; `none` between connections -/
  connection : Option (List (Event κ))
  resourceVersion : Option Nat
  yielded : List (Event κ)

inductive WatchAction (κ : Type) where
  | change (e : Event κ)
  | connect
  | deliver
  | disconnect
deriving DecidableEq, Repr

section Client

variable {κ : Type} [LinearOrder κ]

/-- `watch`, event by event, beside the server. -/
def watchStep (s : WatchState κ) : WatchAction κ → Option (WatchState κ)
  | .change e =>
    if Fits s.history e then
      some { s with
        history := s.history ++ [e]
        connection := s.connection.map fun pending => pending ++ [e] }
    else
      none
  | .connect =>
    match s.connection with
    | none => some { s with connection := some (listen s.history s.resourceVersion) }
    | some _ => none
  | .deliver =>
    match s.connection with
    | some (e :: pending) =>
      some { s with
        connection := some pending
        yielded := s.yielded ++ [e]
        resourceVersion := some e.version }
    | _ => none
  | .disconnect =>
    match s.connection with
    | some _ => some { s with connection := none }
    | none => none

/-- A server with any history, before the first connection. -/
inductive Recorded : List (Event κ) → Prop where
  | nil : Recorded []
  | snoc {history : List (Event κ)} {e : Event κ} :
      Recorded history → Fits history e → Recorded (history ++ [e])

def watchSystem (κ : Type) [LinearOrder κ] : System (WatchState κ) (WatchAction κ) where
  init := fun s => Recorded s.history ∧ s.connection = none ∧ s.resourceVersion = none ∧
    s.yielded = []
  step := fun s a s' => watchStep s a = some s'

/-- If the connection has sent all it had to, the yielded events give the collection. -/
def UpToDate (s : WatchState κ) : Prop :=
  s.connection = some [] → collection s.yielded = collection s.history

/-- When a connection breaks after an event was yielded, every object still to come has
a change to come that is newer than that event. -/
def ConnectionOk (s : WatchState κ) : WatchAction κ → Prop
  | .disconnect => ∀ v, s.resourceVersion = some v → ∀ pending, s.connection = some pending →
      ∀ e ∈ pending, ∃ e' ∈ pending, e'.key = e.key ∧ v < e'.version
  | _ => True

/-! ## The server's answers -/

variable {history : List (Event κ)} {s s' : WatchState κ} {a : WatchAction κ}

theorem Recorded.sorted (h : Recorded history) :
    history.Pairwise fun e e' => e.version < e'.version := by
  induction h with
  | nil => exact List.Pairwise.nil
  | snoc _ hfits ih =>
    rw [List.pairwise_append]
    refine ⟨ih, List.pairwise_singleton _ _, ?_⟩
    intro e he e' he'
    rw [List.mem_singleton.mp he']
    exact hfits.1 e he

theorem key_mem_of_collection {k : κ} {v : Nat} (h : collection history k = some v) :
    k ∈ history.map Event.key := by
  by_contra hk
  rw [collection, replay_of_notMem hk] at h
  cases h

theorem mem_snapshot {e : Event κ} :
    e ∈ snapshot history ↔ e.type = .ADDED ∧ collection history e.key = some e.version := by
  rw [snapshot, List.mem_filterMap]
  constructor
  · rintro ⟨k, _, hk⟩
    obtain ⟨v, hv, rfl⟩ := Option.map_eq_some_iff.mp hk
    exact ⟨rfl, hv⟩
  · rintro ⟨htype, hv⟩
    refine ⟨e.key, ?_, ?_⟩
    · rw [List.mem_insertionSort, List.mem_dedup]
      exact key_mem_of_collection hv
    · rw [hv, Option.map_some, ← htype]

theorem nodup_snapshot : ((snapshot history).map Event.key).Nodup := by
  have hkeys : ((history.map Event.key).dedup.insertionSort (· ≤ ·)).Nodup := by
    rw [(List.perm_insertionSort _ _).nodup_iff]
    exact List.nodup_dedup _
  rw [List.Nodup, List.pairwise_map, snapshot, List.pairwise_filterMap]
  refine List.Pairwise.imp (fun hne e he e' he' => ?_) hkeys
  obtain ⟨_, _, rfl⟩ := Option.map_eq_some_iff.mp he
  obtain ⟨_, _, rfl⟩ := Option.map_eq_some_iff.mp he'
  exact hne

/-- The initial events give the collection. -/
theorem collection_snapshot : collection (snapshot history) = collection history := by
  funext k
  by_cases hk : k ∈ (snapshot history).map Event.key
  · obtain ⟨e, he, rfl⟩ := List.mem_map.mp hk
    obtain ⟨htype, hv⟩ := mem_snapshot.mp he
    rw [collection, replay_of_mem nodup_snapshot he, hv, Event.value, htype]
    rfl
  · rw [collection, replay_of_notMem hk]
    cases hv : collection history k with
    | none => rfl
    | some v =>
      have he : (⟨.ADDED, k, v⟩ : Event κ) ∈ snapshot history := mem_snapshot.mpr ⟨rfl, hv⟩
      exact absurd (List.mem_map_of_mem he) hk

/-- An initial event is the last change of its object. -/
theorem change_of_snapshot {e : Event κ} (he : e ∈ snapshot history) :
    ∃ e' ∈ history, e'.key = e.key ∧ e'.version = e.version := by
  have hv := (mem_snapshot.mp he).2
  -- by induction from the last change on: it is the one, or it is about another object
  induction history using List.reverseRecOn with
  | nil => cases hv
  | append_singleton history last ih =>
    rw [collection, replay_append, replay_singleton] at hv
    by_cases hkey : e.key = last.key
    · rw [hkey, Function.update_self, Event.value] at hv
      split at hv
      · cases hv
      · exact ⟨last, by simp, hkey.symm, Option.some.inj hv⟩
    · rw [Function.update_of_ne hkey] at hv
      have hmem : e ∈ snapshot history := mem_snapshot.mpr ⟨(mem_snapshot.mp he).1, hv⟩
      obtain ⟨e', he', h⟩ := ih hmem hv
      exact ⟨e', List.mem_append_left _ he', h⟩

/-- The changes after a version are the end of the history. -/
theorem listen_some (h : history.Pairwise fun e e' => e.version < e'.version) (v : Nat) :
    ∃ before, history = before ++ listen history (some v) := by
  induction history with
  | nil => exact ⟨[], rfl⟩
  | cons e es ih =>
    obtain ⟨hhead, htail⟩ := List.pairwise_cons.mp h
    obtain ⟨before, hbefore⟩ := ih htail
    by_cases hv : v < e.version
    · refine ⟨[], ?_⟩
      rw [List.nil_append, listen, List.filter_eq_self.mpr]
      intro x hx
      rcases List.mem_cons.mp hx with rfl | hx
      · exact decide_eq_true hv
      · exact decide_eq_true (Nat.lt_trans hv (hhead x hx))
    · refine ⟨e :: before, ?_⟩
      rw [listen, List.filter_cons_of_neg (by simpa using hv), List.cons_append]
      exact congrArg _ hbefore

/-- Replaying the changes after a version brings every object they are about to its
current version. -/
theorem replay_listen (h : history.Pairwise fun e e' => e.version < e'.version) {v : Nat} {k : κ}
    (hk : k ∈ (listen history (some v)).map Event.key) (m : κ → Option Nat) :
    replay Event.key Event.value m (listen history (some v)) k = collection history k := by
  obtain ⟨before, hbefore⟩ := listen_some h v
  have hcollection : collection history k = replay Event.key Event.value
      (replay Event.key Event.value (fun _ => none) before) (listen history (some v)) k := by
    rw [← replay_append, ← hbefore]
    rfl
  rw [hcollection]
  exact replay_congr hk

/-! ## The invariant -/

/-- What is yielded and what is still to come give the collection together. -/
structure Resumable (s : WatchState κ) : Prop where
  recorded : Recorded s.history
  /-- before the first event nothing was yielded -/
  fresh : s.resourceVersion = none → s.yielded = []
  known : ∀ v, s.resourceVersion = some v → ∃ e ∈ s.history, v ≤ e.version
  connected : ∀ pending, s.connection = some pending →
    collection (s.yielded ++ pending) = collection s.history
  /-- what is to come has happened -/
  happened : ∀ pending, s.connection = some pending →
    ∀ e ∈ pending, ∃ e' ∈ s.history, e'.key = e.key ∧ e'.version = e.version
  disconnected : s.connection = none → ∀ v, s.resourceVersion = some v →
    collection (s.yielded ++ listen s.history (some v)) = collection s.history

theorem collection_append {es es' : List (Event κ)} :
    collection (es ++ es') = replay Event.key Event.value (collection es) es' :=
  replay_append

theorem Resumable.upToDate (h : Resumable s) : UpToDate s := by
  intro hconn
  have hconnected := h.connected [] hconn
  rw [List.append_nil] at hconnected
  exact hconnected

theorem Resumable.change (h : Resumable s) {e : Event κ} (hfits : Fits s.history e) :
    Resumable { s with
      history := s.history ++ [e]
      connection := s.connection.map fun pending => pending ++ [e] } := by
  have hcollection : ∀ {es : List (Event κ)}, collection es = collection s.history →
      collection (es ++ [e]) = collection (s.history ++ [e]) := by
    intro es hes
    rw [collection_append, collection_append, hes]
  refine ⟨.snoc h.recorded hfits, h.fresh, ?_, ?_, ?_, ?_⟩
  · intro v hv
    obtain ⟨e', he', hle⟩ := h.known v hv
    exact ⟨e', List.mem_append_left _ he', hle⟩
  · intro pending hpending
    obtain ⟨old, hold, rfl⟩ := Option.map_eq_some_iff.mp hpending
    show collection (s.yielded ++ (old ++ [e])) = _
    rw [← List.append_assoc]
    exact hcollection (h.connected old hold)
  · intro pending hpending x hx
    obtain ⟨old, hold, rfl⟩ := Option.map_eq_some_iff.mp hpending
    rcases List.mem_append.mp hx with hx | hx
    · obtain ⟨e', he', hsame⟩ := h.happened old hold x hx
      exact ⟨e', List.mem_append_left _ he', hsame⟩
    · rw [List.mem_singleton.mp hx]
      exact ⟨e, List.mem_append_right _ List.mem_cons_self, rfl, rfl⟩
  · intro hnone v hv
    obtain ⟨e', he', hle⟩ := h.known v hv
    have hlt : v < e.version := Nat.lt_of_le_of_lt hle (hfits.1 e' he')
    have hlisten : listen (s.history ++ [e]) (some v) = listen s.history (some v) ++ [e] := by
      rw [listen, List.filter_append, List.filter_singleton, decide_eq_true hlt]
      rfl
    show collection (s.yielded ++ listen (s.history ++ [e]) (some v)) = _
    rw [hlisten, ← List.append_assoc]
    exact hcollection (h.disconnected (Option.map_eq_none_iff.mp hnone) v hv)

theorem Resumable.connect (h : Resumable s) (hnone : s.connection = none) :
    Resumable { s with connection := some (listen s.history s.resourceVersion) } := by
  refine ⟨h.recorded, h.fresh, h.known, ?_, ?_, nofun⟩
  · intro pending hpending
    cases hpending
    cases hv : s.resourceVersion with
    | none =>
      show collection (s.yielded ++ snapshot s.history) = _
      rw [h.fresh hv, List.nil_append]
      exact collection_snapshot
    | some v => exact h.disconnected hnone v hv
  · intro pending hpending e he
    cases hpending
    cases hv : s.resourceVersion with
    | none =>
      rw [hv] at he
      exact change_of_snapshot he
    | some v =>
      rw [hv] at he
      exact ⟨e, List.mem_of_mem_filter he, rfl, rfl⟩

theorem Resumable.deliver (h : Resumable s) {e : Event κ} {pending : List (Event κ)}
    (hconn : s.connection = some (e :: pending)) :
    Resumable { s with
      connection := some pending
      yielded := s.yielded ++ [e]
      resourceVersion := some e.version } := by
  refine ⟨h.recorded, nofun, ?_, ?_, ?_, nofun⟩
  · rintro v hv
    cases hv
    obtain ⟨e', he', _, hversion⟩ := h.happened _ hconn e List.mem_cons_self
    exact ⟨e', he', Nat.le_of_eq hversion.symm⟩
  · rintro _ hpending
    cases hpending
    show collection (s.yielded ++ [e] ++ pending) = _
    rw [List.append_assoc]
    exact h.connected _ hconn
  · rintro _ hpending x hx
    cases hpending
    exact h.happened _ hconn x (List.mem_cons_of_mem _ hx)

theorem Resumable.disconnect (h : Resumable s) {pending : List (Event κ)}
    (hconn : s.connection = some pending) (hok : ConnectionOk s .disconnect) :
    Resumable { s with connection := none } := by
  refine ⟨h.recorded, h.fresh, h.known, nofun, nofun, ?_⟩
  intro _ v hv
  have hv : s.resourceVersion = some v := hv
  funext k
  show collection (s.yielded ++ listen s.history (some v)) k = collection s.history k
  rw [collection_append]
  by_cases hk : k ∈ (listen s.history (some v)).map Event.key
  · exact replay_listen h.recorded.sorted hk _
  · -- an object that was still to come would have a newer change, so `k` was not
    have hpending : k ∉ pending.map Event.key := by
      intro hmem
      obtain ⟨e, he, rfl⟩ := List.mem_map.mp hmem
      obtain ⟨e', he', hkey, hlt⟩ := hok v hv pending hconn e he
      obtain ⟨x, hx, hxkey, hversion⟩ := h.happened pending hconn e' he'
      refine hk (List.mem_map.mpr ⟨x, List.mem_filter.mpr ⟨hx, ?_⟩, hxkey.trans hkey⟩)
      rw [hversion]
      exact decide_eq_true hlt
    have hconnected := congrFun (h.connected pending hconn) k
    rw [collection_append, replay_of_notMem hpending] at hconnected
    rw [replay_of_notMem hk]
    exact hconnected

theorem Resumable.step (h : Resumable s) (hok : ConnectionOk s a)
    (hstep : watchStep s a = some s') :
    Resumable s' := by
  cases a with
  | change e =>
    simp only [watchStep, Option.ite_none_right_eq_some, Option.some.injEq] at hstep
    obtain ⟨hfits, rfl⟩ := hstep
    exact h.change hfits
  | connect =>
    simp only [watchStep] at hstep
    split at hstep
    · rename_i hnone
      cases hstep
      exact h.connect hnone
    · cases hstep
  | deliver =>
    simp only [watchStep] at hstep
    split at hstep
    · rename_i e pending hconn
      cases hstep
      exact h.deliver hconn
    · cases hstep
  | disconnect =>
    simp only [watchStep] at hstep
    split at hstep
    · rename_i pending hconn
      cases hstep
      exact h.disconnect hconn hok
    · cases hstep

/-- **Watching loses no object** in the runs whose disconnections meet `ConnectionOk`. -/
theorem watchSystem_upToDate {κ : Type} [LinearOrder κ] {s : WatchState κ}
    (h : Reach (watchSystem κ) ConnectionOk s) : UpToDate s := by
  have hresumable : Resumable s := h.invariant ?_ fun _ _ _ hI hok hstep => hI.step hok hstep
  · exact hresumable.upToDate
  · rintro s ⟨hrecorded, hconn, hversion, hyielded⟩
    refine ⟨hrecorded, fun _ => hyielded, ?_, ?_, ?_, ?_⟩
    · intro v hv
      rw [hversion] at hv
      cases hv
    · intro pending hpending
      rw [hconn] at hpending
      cases hpending
    · intro pending hpending
      rw [hconn] at hpending
      cases hpending
    · intro _ v hv
      rw [hversion] at hv
      cases hv

end Client

instance {κ : Type} [LinearOrder κ] (s : WatchState κ) (a : WatchAction κ) :
    Decidable (ConnectionOk s a) :=
  match a with
  | .disconnect => decidable_of_iff
      (∀ v ∈ s.resourceVersion, ∀ pending ∈ s.connection, ∀ e ∈ pending, ∃ e' ∈ pending,
        e'.key = e.key ∧ v < e'.version) Iff.rfl
  | .change _ | .connect | .deliver => inferInstanceAs (Decidable True)

/-- A client of a server with the given history, before the first connection. -/
def newWatch (history : List (Event String)) : WatchState String := ⟨history, none, none, []⟩

theorem watchSystem_upToDate_resumed :
    ∃ s, Reach (watchSystem String) ConnectionOk s ∧ s.connection = some [] ∧
      collection s.yielded "b" = some 7 ∧ UpToDate s := by
  obtain ⟨s, hs, hconn, hb⟩ : ∃ s, execute (guarded ConnectionOk watchStep)
      (newWatch [⟨.ADDED, "a", 5⟩])
      [.connect, .deliver, .disconnect, .change ⟨.ADDED, "b", 7⟩, .connect, .deliver] = some s ∧
      s.connection = some [] ∧ collection s.yielded "b" = some 7 := ⟨_, rfl, rfl, by decide +kernel⟩
  have hinit : Reach (watchSystem String) ConnectionOk (newWatch [⟨.ADDED, "a", 5⟩]) :=
    .init ⟨.snoc .nil (by decide +kernel), rfl, rfl, rfl⟩
  have hreach := Reach.execute (fun _ _ _ h => of_guarded h) hinit hs
  exact ⟨s, hreach, hconn, hb, watchSystem_upToDate hreach⟩

/-- The connection breaks after the first of two initial events, and that event is the
newer one: the other object is never yielded. -/
theorem watchSystem_loses_older_object :
    ∃ s, Reach (watchSystem String) (fun _ _ => True) s ∧ ¬ UpToDate s := by
  obtain ⟨s, hs, hconn, hyielded, hhistory⟩ : ∃ s, execute watchStep
      (newWatch [⟨.ADDED, "b", 5⟩, ⟨.ADDED, "a", 10⟩])
      [.connect, .deliver, .disconnect, .connect] = some s ∧ s.connection = some [] ∧
      collection s.yielded "b" = none ∧ collection s.history "b" = some 5 :=
    ⟨_, rfl, rfl, by decide +kernel, by decide +kernel⟩
  have hinit : Reach (watchSystem String) (fun _ _ => True)
      (newWatch [⟨.ADDED, "b", 5⟩, ⟨.ADDED, "a", 10⟩]) :=
    .init ⟨.snoc (.snoc .nil (by decide +kernel)) (by decide +kernel), rfl, rfl, rfl⟩
  refine ⟨s, Reach.execute (fun _ _ _ h => ⟨trivial, h⟩) hinit hs, fun hup => ?_⟩
  have hsame := congrFun (hup hconn) "b"
  rw [hyielded, hhistory] at hsame
  cases hsame

end Watch

end KuryrKubernetes
