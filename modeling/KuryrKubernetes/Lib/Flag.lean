import Mathlib.Data.List.Basic

/-!
# A flag that goes through a loop

Each step may raise the flag or take it back. The flag is up in the end when some step
raised it and no later one took it back.
-/

namespace Flags

variable {α : Type} (raises clears : α → Bool)

/-- The flag after one step. -/
def step (flag : Bool) (a : α) : Bool := if clears a then false else flag || raises a

/-- The flag after the loop. -/
def run (flag : Bool) (l : List α) : Bool := l.foldl (step raises clears) flag

/-- Some step raises the flag, no later one takes it back. -/
def StaysUp (l : List α) : Prop :=
  ∃ before a after, l = before ++ a :: after ∧ raises a = true ∧ clears a = false ∧
    ∀ x ∈ after, clears x = false

variable {raises clears}

theorem staysUp_cons {a : α} {l : List α} :
    StaysUp raises clears (a :: l) ↔
      (raises a = true ∧ clears a = false ∧ ∀ x ∈ l, clears x = false) ∨
        StaysUp raises clears l := by
  constructor
  · rintro ⟨before, x, after, hsplit, hx⟩
    cases before with
    | nil =>
      cases hsplit
      exact .inl hx
    | cons y before =>
      cases hsplit
      exact .inr ⟨before, x, after, rfl, hx⟩
  · rintro (h | ⟨before, x, after, rfl, hx⟩)
    · exact ⟨[], a, l, rfl, h⟩
    · exact ⟨a :: before, x, after, rfl, hx⟩

/-- **The flag in the end.** -/
theorem run_eq_true : ∀ {l : List α} {flag : Bool}, run raises clears flag l = true ↔
    (flag = true ∧ ∀ a ∈ l, clears a = false) ∨ StaysUp raises clears l
  | [], flag => by simp [run, StaysUp]
  | a :: l, flag => by
    have hstep : step raises clears flag a = true ↔
        clears a = false ∧ (flag = true ∨ raises a = true) := by
      unfold step
      cases clears a <;> simp
    show run raises clears (step raises clears flag a) l = true ↔ _
    rw [run_eq_true, staysUp_cons, hstep]
    simp only [List.mem_cons, forall_eq_or_imp]
    tauto

instance (l : List α) : Decidable (StaysUp raises clears l) :=
  decidable_of_iff (run raises clears false l = true) (by rw [run_eq_true]; simp)

theorem run_append (flag : Bool) (l m : List α) :
    run raises clears flag (l ++ m) = run raises clears (run raises clears flag l) m :=
  List.foldl_append

/-- A loop that only takes the flag back. -/
theorem foldl_keep {keeps : α → Bool} {l : List α} {flag : Bool} :
    l.foldl (fun flag a => if keeps a then flag else false) flag =
      if l.any fun a => !keeps a then false else flag := by
  induction l generalizing flag with
  | nil => rfl
  | cons a l ih =>
    rw [List.foldl_cons, ih, List.any_cons]
    cases keeps a <;> simp

end Flags
