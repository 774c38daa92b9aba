import Mathlib.Data.List.Basic

/-!
# Registers with versions

A register that numbers its values, as stores with optimistic concurrency do: a writer names
the version it has read, and the write is accepted only while that version is the latest.

- `History`: all values so far; the version of a value is its place.
- `Snapshot`: a value with its version. `Genuine` says that the register once had it; a write
  does not change that (`Genuine.write`).
- `Genuine.eq_current`: a snapshot of the latest version has the current value. This is what
  makes a read and a later write one step.
- `Since v P`: some value from version `v` on has `P`.
-/

namespace Versions

universe u

variable {α : Type u}

/-- The values of a register, oldest first. -/
structure History (α : Type u) where
  values : List α
  nonempty : values ≠ []

/-- A value that was read, with its version. -/
structure Snapshot (α : Type u) where
  version : Nat
  value : α
deriving DecidableEq, Repr

namespace History

def latest (h : History α) : Nat := h.values.length - 1

def current (h : History α) : α := h.values.getLast h.nonempty

def write (h : History α) (a : α) : History α := ⟨h.values ++ [a], by simp⟩

def snapshot (h : History α) : Snapshot α := ⟨h.latest, h.current⟩

/-- The register once had the value, under this version. -/
def Genuine (h : History α) (s : Snapshot α) : Prop := h.values[s.version]? = some s.value

instance [DecidableEq α] (h : History α) (s : Snapshot α) : Decidable (h.Genuine s) :=
  inferInstanceAs (Decidable (_ = _))

/-- Some value from a version on has the property. -/
def Since (h : History α) (version : Nat) (P : α → Prop) : Prop :=
  ∃ n a, version ≤ n ∧ h.values[n]? = some a ∧ P a

variable {h : History α} {s : Snapshot α} {P : α → Prop} {version : Nat}

@[simp] theorem current_write (h : History α) (a : α) : (h.write a).current = a := by
  simp [current, write]

theorem get?_latest (h : History α) : h.values[h.latest]? = some h.current := by
  rw [current, ← List.getLast?_eq_some_getLast, List.getLast?_eq_getElem?]
  rfl

theorem get?_write {n : Nat} {a : α} (hn : h.values[n]? = some a) (b : α) :
    (h.write b).values[n]? = some a := by
  obtain ⟨hlt, -⟩ := List.getElem?_eq_some_iff.mp hn
  rw [write, List.getElem?_append_left hlt]
  exact hn

theorem genuine_snapshot (h : History α) : h.Genuine h.snapshot := h.get?_latest

theorem Genuine.write (hs : h.Genuine s) (a : α) : (h.write a).Genuine s := get?_write hs a

theorem Genuine.le_latest (hs : h.Genuine s) : s.version ≤ h.latest := by
  obtain ⟨hlt, -⟩ := List.getElem?_eq_some_iff.mp hs
  exact Nat.le_sub_one_of_lt hlt

theorem Genuine.eq_current (hs : h.Genuine s) (hv : s.version = h.latest) :
    s.value = h.current := by
  have heq := hs.symm.trans (hv ▸ h.get?_latest)
  exact Option.some.inj heq

theorem latest_write (h : History α) (a : α) : (h.write a).latest = h.latest + 1 := by
  have hpos : 0 < h.values.length := List.length_pos_iff.mpr h.nonempty
  simp only [latest, write, List.length_append, List.length_singleton]
  omega

theorem Since.write (hs : h.Since version P) (a : α) : (h.write a).Since version P := by
  obtain ⟨n, b, hn, hget, hP⟩ := hs
  exact ⟨n, b, hn, get?_write hget a, hP⟩

theorem Since.current (hv : version ≤ h.latest) (hP : P h.current) : h.Since version P :=
  ⟨h.latest, h.current, hv, h.get?_latest, hP⟩

theorem Genuine.since (hs : h.Genuine s) (hP : P s.value) : h.Since s.version P :=
  ⟨s.version, s.value, Nat.le_refl _, hs, hP⟩

end History

end Versions
