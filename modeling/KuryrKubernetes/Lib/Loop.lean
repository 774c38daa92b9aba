import Mathlib.Data.List.Basic

/-!
# Loops that an exception ends

`each f as s` runs `f` for the elements of a list, one after the other, on a state. An
iteration answers whether the loop goes on; if it does not, the state stays as it is.

- `Iterates f as s a rest s'`: the loop gets to the element `a`, in state `s'`, with `rest`
  still to come.
- `each_rule`: an invariant indexed by the elements still to come, for iterations that are
  reached; an iteration that ends the loop leaves another condition instead.
- `each_keeps`, `each_invariant`: what holds after the loop, however it ends.

`attempts step` repeats an attempt until one of them answers. Each attempt leaves acts.

- `attempts_eq`: when the first attempt to answer is known, so is what the loop does, with
  any fuel that is enough to get there.
- `exists_first`: there is a first answer when the attempts without one are bounded.
-/

namespace Loop

variable {α σ : Type} {f : α → σ → σ × Bool}

/-- A loop; `false` when an iteration has ended it. -/
def each (f : α → σ → σ × Bool) : List α → σ → σ × Bool
  | [], s => (s, true)
  | a :: as, s =>
    match f a s with
    | (s, true) => each f as s
    | (s, false) => (s, false)

/-- The iterations that take place. -/
def Iterates (f : α → σ → σ × Bool) (as : List α) (s : σ) (a : α) (rest : List α) (s' : σ) : Prop :=
  ∃ before, as = before ++ a :: rest ∧ each f before s = (s', true)

theorem each_cons_true {a : α} {as : List α} {s : σ} (h : (f a s).2 = true) :
    each f (a :: as) s = each f as (f a s).1 := by
  rw [each]
  rcases hf : f a s with ⟨s', ok⟩
  rw [hf] at h
  cases h
  rfl

theorem each_cons_false {a : α} {as : List α} {s : σ} (h : (f a s).2 = false) :
    each f (a :: as) s = ((f a s).1, false) := by
  rw [each]
  rcases hf : f a s with ⟨s', ok⟩
  rw [hf] at h
  cases h
  rfl

theorem Iterates.first (a : α) (as : List α) (s : σ) : Iterates f (a :: as) s a as s :=
  ⟨[], rfl, rfl⟩

theorem Iterates.later {a b : α} {as rest : List α} {s s' : σ} (h : (f a s).2 = true)
    (hr : Iterates f as (f a s).1 b rest s') : Iterates f (a :: as) s b rest s' := by
  obtain ⟨before, rfl, hb⟩ := hr
  exact ⟨a :: before, rfl, (each_cons_true h).trans hb⟩

theorem not_iterates_nil {a : α} {rest : List α} {s s' : σ} : ¬ Iterates f [] s a rest s' := by
  rintro ⟨before, h, -⟩
  simp at h

theorem iterates_singleton {a b : α} {rest : List α} {s s' : σ} (h : Iterates f [b] s a rest s') :
    s' = s := by
  obtain ⟨before, heq, hrun⟩ := h
  obtain rfl : before = [] := by
    rw [List.singleton_eq_append_iff] at heq
    rcases heq with ⟨h, -⟩ | ⟨-, h⟩
    · exact h
    · simp at h
  exact (congrArg Prod.fst hrun).symm

/-- **The rule for loops.** -/
theorem each_rule {I : List α → σ → Prop} {E : σ → Prop} {as : List α} {s : σ}
    (hstep : ∀ a rest s', Iterates f as s a rest s' → I (a :: rest) s' →
      ((f a s').2 = true → I rest (f a s').1) ∧ ((f a s').2 = false → E (f a s').1))
    (h : I as s) :
    ((each f as s).2 = true → I [] (each f as s).1) ∧
      ((each f as s).2 = false → E (each f as s).1) := by
  induction as generalizing s with
  | nil => exact ⟨fun _ => h, nofun⟩
  | cons a as ih =>
    have hfirst := hstep a as s (.first a as s) h
    cases hok : (f a s).2 with
    | true =>
      rw [each_cons_true hok]
      exact ih (fun b rest s' hr => hstep b rest s' (hr.later hok)) (hfirst.1 hok)
    | false =>
      rw [each_cons_false hok]
      exact ⟨nofun, fun _ => hfirst.2 hok⟩

/-- What every iteration that is reached keeps holds after the loop. `P` is about the
elements still to come. -/
theorem each_keeps {P : List α → σ → Prop} {K : σ → Prop} {as : List α} {s : σ}
    (hstep : ∀ a rest s', Iterates f as s a rest s' → P (a :: rest) s' → K s' →
      P rest (f a s').1 ∧ K (f a s').1)
    (hP : P as s) (hK : K s) : K (each f as s).1 := by
  have hrule := each_rule (I := fun rest s' => P rest s' ∧ K s') (E := K)
    (fun a rest s' hr hi => by
      have hnext := hstep a rest s' hr hi.1 hi.2
      exact ⟨fun _ => hnext, fun _ => hnext.2⟩) ⟨hP, hK⟩
  cases hok : (each f as s).2 with
  | true => exact (hrule.1 hok).2
  | false => exact hrule.2 hok

theorem each_invariant {K : σ → Prop} {as : List α} {s : σ}
    (hstep : ∀ a rest s', Iterates f as s a rest s' → K s' → K (f a s').1) (h : K s) :
    K (each f as s).1 :=
  each_keeps (P := fun _ _ => True) (fun a rest s' hr _ hs => ⟨trivial, hstep a rest s' hr hs⟩)
    trivial h

/-! ## Attempts -/

section Attempts

variable {γ : Type} {step : Nat → List α × Option γ}

/-- The loop from attempt `k` on; `none` when the fuel runs out. -/
def attempts (step : Nat → List α × Option γ) : Nat → Nat → Option (List α × γ)
  | 0, _ => none
  | fuel + 1, k =>
    match step k with
    | (acts, some r) => some (acts, r)
    | (acts, none) => (attempts step fuel (k + 1)).map fun (rest, r) => (acts ++ rest, r)

/-- What the attempts up to `k` leave. -/
def trace (step : Nat → List α × Option γ) (k : Nat) : List α :=
  (List.range k).flatMap fun j => (step j).1

theorem trace_succ (k : Nat) : trace step (k + 1) = trace step k ++ (step k).1 := by
  rw [trace, List.range_succ, List.flatMap_append, List.flatMap_singleton]
  rfl

theorem attempts_from {r : γ} :
    ∀ (m k fuel : Nat), (∀ j, k ≤ j → j < k + m → (step j).2 = none) → (step (k + m)).2 = some r →
      m < fuel → attempts step fuel k =
        some ((List.range' k (m + 1)).flatMap fun j => (step j).1, r)
  | _, _, 0, _, _, hfuel => absurd hfuel (Nat.not_lt_zero _)
  | 0, k, fuel + 1, _, hstop, _ => by
    rw [Nat.add_zero] at hstop
    rw [attempts]
    rcases hk : step k with ⟨acts, out⟩
    rw [hk] at hstop
    cases hstop
    simp [hk]
  | m + 1, k, fuel + 1, hgo, hstop, hfuel => by
    have hk : (step k).2 = none := hgo k (Nat.le_refl k) (by omega)
    have ih := attempts_from m (k + 1) fuel (fun j hj hlt => hgo j (by omega) (by omega))
      (by rw [← hstop]; congr 2; omega) (by omega)
    rw [attempts, List.range'_succ, List.flatMap_cons]
    rcases hstep : step k with ⟨acts, out⟩
    rw [hstep] at hk
    cases hk
    dsimp only
    rw [ih, Option.map_some]

/-- **What the loop does when attempt `k` is the first to answer.** -/
theorem attempts_eq {k fuel : Nat} {r : γ} (hgo : ∀ j < k, (step j).2 = none)
    (hstop : (step k).2 = some r) (hfuel : k < fuel) :
    attempts step fuel 0 = some (trace step (k + 1), r) := by
  have h := attempts_from k 0 fuel (fun j _ hj => hgo j (by omega)) (by rwa [Nat.zero_add]) hfuel
  rw [h, trace, List.range_eq_range']

/-- **There is a first answer**, and it comes within the bound. -/
theorem exists_first {B : Nat} (hB : ∀ k, (∀ j < k, (step j).2 = none) → k ≤ B) :
    ∃ k r, (∀ j < k, (step j).2 = none) ∧ (step k).2 = some r ∧ k ≤ B := by
  by_contra hnot
  have hgo : ∀ k, ∀ j < k, (step j).2 = none := by
    intro k
    -- without a first answer no attempt answers, by induction on their number
    induction k with
    | zero => exact fun j hj => absurd hj (Nat.not_lt_zero _)
    | succ k ih =>
      intro j hj
      rcases Nat.lt_succ_iff_lt_or_eq.mp hj with hj | rfl
      · exact ih j hj
      · cases hstop : (step j).2 with
        | none => rfl
        | some r => exact absurd ⟨j, r, ih, hstop, hB j ih⟩ hnot
  have := hB (B + 1) (hgo _)
  omega

end Attempts

end Loop
