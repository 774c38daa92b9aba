import Mathlib.Data.List.Induction

/-!
# Positional removals

The array operations of a JSON patch (RFC 6902), and the removal of the chosen
entries of an array by their positions, the last one first.
-/

namespace ArrayPatches

variable {α : Type}

/-- `add` at `-`. -/
def addLast (l : List α) (a : α) : List α := l ++ [a]

/-- `remove` at a position, which must exist. -/
def removeAt (l : List α) (i : Nat) : Option (List α) :=
  if i < l.length then some (l.eraseIdx i) else none

/-- A sequence of removals. -/
def removeAll : List α → List Nat → Option (List α)
  | l, [] => some l
  | l, i :: is => do
    let l ← removeAt l i
    removeAll l is

/-- The positions of the entries to remove, in order. -/
def positions (p : α → Bool) (l : List α) : List Nat :=
  (l.zipIdx.filter fun e => p e.1).map Prod.snd

theorem positions_concat (p : α → Bool) (l : List α) (a : α) :
    positions p (l ++ [a]) = positions p l ++ if p a then [l.length] else [] := by
  rw [positions, List.zipIdx_append, List.filter_append, List.map_append]
  cases h : p a <;> simp [positions, h]

theorem removeAt_length (l rest : List α) (a : α) :
    removeAt (l ++ a :: rest) l.length = some (l ++ rest) := by
  rw [removeAt, if_pos (by simp), List.eraseIdx_append_of_length_le (Nat.le_refl _)]
  simp

/-- Removing from the last position on keeps the earlier positions valid, whatever
follows the list. -/
theorem removeAll_positions (p : α → Bool) (l : List α) :
    ∀ rest : List α, removeAll (l ++ rest) (positions p l).reverse =
      some (l.filter (fun a => !p a) ++ rest) := by
  induction l using List.reverseRec with
  | nil => intro rest; rfl
  | append_singleton l a ih =>
    intro rest
    rw [positions_concat, List.reverse_append, List.filter_append, List.append_assoc]
    cases h : p a with
    | true =>
      show (removeAt (l ++ a :: rest) l.length).bind _ = _
      rw [removeAt_length]
      simpa [h] using ih rest
    | false =>
      simpa [h] using ih (a :: rest)

end ArrayPatches
