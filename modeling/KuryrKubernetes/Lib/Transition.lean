/-!
# Guarded runs of a transition system

A system is a set of initial states and a labelled step relation. `Reach T ok s`
says that `s` is reached from an initial state by steps that all satisfy the
guard `ok`, a condition on the state *before* the step and on its label; the
guard `fun _ _ => True` gives plain reachability.

`Reach.invariant` is the rule every safety theorem is an instance of: what holds
initially and is preserved by every guarded step holds in every reached state.
`Reach.regard` turns an invariant of the runs under one guard into a stronger guard they
all keep, and `Reach.simulate` carries runs of one system over to another, more abstract
one: each step is matched by any number of steps there.
-/

namespace Transition

universe u v

/-- A labelled transition system. -/
structure System (σ : Type u) (α : Type v) where
  init : σ → Prop
  step : σ → α → σ → Prop

variable {σ : Type u} {α : Type v}

/-- States reached by steps that all meet the guard `ok`. -/
inductive Reach (T : System σ α) (ok : σ → α → Prop) : σ → Prop where
  | init {s : σ} : T.init s → Reach T ok s
  | step {s s' : σ} {a : α} : Reach T ok s → ok s a → T.step s a s' → Reach T ok s'

/-- **The invariant rule.** -/
theorem Reach.invariant {T : System σ α} {ok : σ → α → Prop} {I : σ → Prop}
    (hinit : ∀ s, T.init s → I s)
    (hstep : ∀ s a s', I s → ok s a → T.step s a s' → I s')
    {s : σ} (h : Reach T ok s) : I s := by
  induction h with
  | init hs => exact hinit _ hs
  | step _ hok hs ih => exact hstep _ _ _ ih hok hs

/-- **Runs under one guard keep another**, where an invariant of theirs says so. -/
theorem Reach.regard {T : System σ α} {ok ok' : σ → α → Prop} {I : σ → Prop}
    (hinit : ∀ s, T.init s → I s)
    (hstep : ∀ s a s', I s → ok s a → T.step s a s' → I s')
    (hok : ∀ s a s', I s → ok s a → T.step s a s' → ok' s a)
    {s : σ} (h : Reach T ok s) : Reach T ok' s := by
  suffices h' : Reach T ok' s ∧ I s from h'.1
  induction h with
  | init hs => exact ⟨.init hs, hinit _ hs⟩
  | step _ ha hs ih => exact ⟨ih.1.step (hok _ _ _ ih.2 ha hs) hs, hstep _ _ _ ih.2 ha hs⟩

/-- **Forward simulation** under an invariant: what stands for the state is reached, too. -/
theorem Reach.simulate {τ : Type u} {β : Type v} {T : System σ α} {U : System τ β}
    {ok : σ → α → Prop} {ok' : τ → β → Prop} {I : σ → Prop} (abs : σ → τ)
    (hinit : ∀ s, T.init s → I s ∧ U.init (abs s))
    (hstep : ∀ s a s', I s → ok s a → T.step s a s' →
      I s' ∧ (Reach U ok' (abs s) → Reach U ok' (abs s')))
    {s : σ} (h : Reach T ok s) : I s ∧ Reach U ok' (abs s) := by
  induction h with
  | init hs => exact ⟨(hinit _ hs).1, .init (hinit _ hs).2⟩
  | step _ ha hs ih => exact ⟨(hstep _ _ _ ih.1 ha hs).1, (hstep _ _ _ ih.1 ha hs).2 ih.2⟩

/-- A run of a step function. -/
def execute (f : σ → α → Option σ) : σ → List α → Option σ
  | s, [] => some s
  | s, a :: as => (f s a).bind fun s' => execute f s' as

/-- A run whose steps all meet a guard. -/
def Along (ok : σ → α → Prop) (f : σ → α → Option σ) : σ → List α → Prop
  | _, [] => True
  | s, a :: as => ok s a ∧ ∃ s', f s a = some s' ∧ Along ok f s' as

theorem Reach.along {T : System σ α} {ok : σ → α → Prop} {f : σ → α → Option σ}
    (hf : ∀ s a s', f s a = some s' → T.step s a s') :
    ∀ {as : List α} {s : σ}, Reach T ok s → Along ok f s as →
      ∃ s', Transition.execute f s as = some s' ∧ Reach T ok s'
  | [], s, hs, _ => ⟨s, rfl, hs⟩
  | a :: as, s, hs, ⟨hok, t, ht, h⟩ => by
    obtain ⟨s', heq, hs'⟩ := Reach.along hf (hs.step hok (hf s a t ht)) h
    refine ⟨s', ?_, hs'⟩
    rw [Transition.execute, ht]
    exact heq

/-- A step function that refuses steps outside the guard. -/
def guarded (ok : σ → α → Prop) [∀ s a, Decidable (ok s a)] (f : σ → α → Option σ) (s : σ)
    (a : α) : Option σ :=
  if ok s a then f s a else none

theorem of_guarded {ok : σ → α → Prop} [∀ s a, Decidable (ok s a)] {f : σ → α → Option σ} {s s' : σ}
    {a : α} (h : guarded ok f s a = some s') : ok s a ∧ f s a = some s' := by
  unfold guarded at h
  split at h
  · rename_i hok
    exact ⟨hok, h⟩
  · cases h

/-- A run of the step function of a system reaches its last state. -/
theorem Reach.execute {T : System σ α} {ok : σ → α → Prop} {f : σ → α → Option σ}
    (hf : ∀ s a s', f s a = some s' → ok s a ∧ T.step s a s') :
    ∀ {as : List α} {s s' : σ}, Reach T ok s →
      Transition.execute f s as = some s' → Reach T ok s'
  | [], s, s', hs, h => by
    cases h
    exact hs
  | a :: as, s, s', hs, h => by
    obtain ⟨t, ht, h⟩ := Option.bind_eq_some_iff.mp h
    exact Reach.execute hf (hs.step (hf s a t ht).1 (hf s a t ht).2) h

end Transition
