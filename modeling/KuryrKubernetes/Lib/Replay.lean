import Mathlib.Logic.Function.Basic
import Mathlib.Data.List.Basic

/-!
# Replaying keyed events into a map

An event assigns a value to its key, or removes the key. What a list of events says
about a key depends on its last event for that key only: a key without events keeps
its value (`replay_of_notMem`), and a key with one forgets what was there before
(`replay_congr`).
-/

namespace Replay

variable {ε κ ν : Type} [DecidableEq κ] (key : ε → κ) (value : ε → Option ν)

/-- Replay events into a map, in order. -/
def replay (m : κ → Option ν) (es : List ε) : κ → Option ν :=
  es.foldl (fun m e => Function.update m (key e) (value e)) m

variable {key value} {m m' : κ → Option ν} {es es' : List ε} {k : κ}

theorem replay_append :
    replay key value m (es ++ es') = replay key value (replay key value m es) es' :=
  List.foldl_append ..

theorem replay_singleton {e : ε} :
    replay key value m [e] = Function.update m (key e) (value e) :=
  rfl

theorem replay_of_notMem (h : k ∉ es.map key) : replay key value m es k = m k := by
  induction es generalizing m with
  | nil => rfl
  | cons e es ih =>
    rw [List.map_cons, List.mem_cons, not_or] at h
    show replay key value (Function.update m (key e) (value e)) es k = m k
    rw [ih h.2, Function.update_of_ne h.1]

theorem replay_congr (h : k ∈ es.map key) : replay key value m es k = replay key value m' es k := by
  induction es generalizing m m' with
  | nil => cases h
  | cons e es ih =>
    show replay key value (Function.update m (key e) (value e)) es k =
      replay key value (Function.update m' (key e) (value e)) es k
    by_cases hmem : k ∈ es.map key
    · exact ih hmem
    · have hk : k = key e := by
        rw [List.map_cons, List.mem_cons] at h
        exact h.resolve_right hmem
      rw [replay_of_notMem hmem, replay_of_notMem hmem, hk, Function.update_self,
        Function.update_self]

/-- With distinct keys, every event stands. -/
theorem replay_of_mem (hnd : (es.map key).Nodup) {e : ε} (he : e ∈ es) :
    replay key value m es (key e) = value e := by
  obtain ⟨before, after, rfl⟩ := List.append_of_mem he
  rw [List.map_append, List.map_cons, List.nodup_append] at hnd
  have hafter : key e ∉ after.map key := (List.nodup_cons.mp hnd.2.1).1
  rw [replay_append]
  show replay key value (Function.update _ (key e) (value e)) after (key e) = value e
  rw [replay_of_notMem hafter, Function.update_self]

end Replay
