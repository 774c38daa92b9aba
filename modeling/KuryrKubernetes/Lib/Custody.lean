import Mathlib.Data.Set.Lattice
import KuryrKubernetes.Lib.Transition

/-!
# Custody of resources

Resources are obtained from a provider, recorded in objects and given back when the object
goes. Whoever obtains a resource has it *in hand* until it is recorded, and an object that is
forgotten takes its record along. What must not happen is that a resource is out and nobody
knows of it any more.

- `Ledger`: what is out, what is in hand and what the objects record.
- `Move`: the moves. `drop` and `forget` are the two that lose knowledge of resources.
- `Move.Allowed`: they may only do so for resources that have been given back.
- `Ledger.Kept`: everything that is out is in hand or recorded; `kept_of_reach` says that
  allowed moves keep it so.
-/

namespace Custody

open Transition

universe u v

/-- Who knows of which resources. -/
@[ext] structure Ledger (ρ : Type u) (ο : Type v) where
  out : Set ρ
  hand : Set ρ
  recorded : ο → Set ρ

inductive Move (ρ : Type u) (ο : Type v) where
  | obtain (rs : Set ρ)
  /-- An object records resources, besides those it has. -/
  | record (o : ο) (rs : Set ρ)
  | giveBack (rs : Set ρ)
  | drop (rs : Set ρ)
  | forget (o : ο)

variable {ρ : Type u} {ο : Type v} [DecidableEq ο]

namespace Ledger

def move (l : Ledger ρ ο) : Move ρ ο → Ledger ρ ο
  | .obtain rs => { l with out := l.out ∪ rs, hand := l.hand ∪ rs }
  | .record o rs => { l with recorded := Function.update l.recorded o (l.recorded o ∪ rs) }
  | .giveBack rs => { l with out := l.out \ rs }
  | .drop rs => { l with hand := l.hand \ rs }
  | .forget o => { l with recorded := Function.update l.recorded o ∅ }

/-- Some object records the resource. -/
def Recorded (l : Ledger ρ ο) (r : ρ) : Prop := ∃ o, r ∈ l.recorded o

/-- Nothing that is out has been lost. -/
def Kept (l : Ledger ρ ο) : Prop := ∀ r ∈ l.out, r ∈ l.hand ∨ l.Recorded r

/-- Knowledge of a resource ends when another has it, or when it is not out any more. -/
def Allowed (l : Ledger ρ ο) : Move ρ ο → Prop
  | .drop rs => ∀ r ∈ rs, r ∈ l.out → l.Recorded r
  | .forget o => ∀ r ∈ l.recorded o, r ∈ l.out → r ∈ l.hand ∨ ∃ o', o' ≠ o ∧ r ∈ l.recorded o'
  | _ => True

theorem Recorded.record {l : Ledger ρ ο} {r : ρ} (h : l.Recorded r) (o : ο) (rs : Set ρ) :
    (l.move (.record o rs)).Recorded r := by
  obtain ⟨o', ho'⟩ := h
  refine ⟨o', ?_⟩
  by_cases heq : o' = o
  · subst heq
    simpa [move] using Or.inl ho'
  · simpa [move, heq] using ho'

theorem Kept.move {l : Ledger ρ ο} {m : Move ρ ο} (h : l.Kept) (hm : l.Allowed m) :
    (l.move m).Kept := by
  intro r hr
  cases m with
  | obtain rs =>
    rcases hr with hr | hr
    · exact (h r hr).imp_left .inl
    · exact .inl (.inr hr)
  | record o rs => exact (h r hr).imp_right fun hrec => hrec.record o rs
  | giveBack rs => exact h r hr.1
  | drop rs =>
    by_cases hrs : r ∈ rs
    · exact .inr (hm r hrs hr)
    · exact (h r hr).imp_left fun hh => ⟨hh, hrs⟩
  | forget o =>
    have hother : ∀ {o'}, o' ≠ o → r ∈ l.recorded o' → (l.move (.forget o)).Recorded r :=
      fun {o'} hne ho' => ⟨o', by simpa [Ledger.move, hne] using ho'⟩
    rcases h r hr with hh | ⟨o', ho'⟩
    · exact .inl hh
    · by_cases heq : o' = o
      · subst heq
        exact (hm r ho' hr).imp_right fun ⟨o'', hne, ho''⟩ => hother hne ho''
      · exact .inr (hother heq ho')

end Ledger

/-- Nothing is out at first. -/
def system (ρ : Type u) (ο : Type v) [DecidableEq ο] : System (Ledger ρ ο) (Move ρ ο) where
  init l := l.out = ∅
  step l m l' := l' = l.move m

theorem reach_move {l : Ledger ρ ο} {m : Move ρ ο} (h : Reach (system ρ ο) Ledger.Allowed l)
    (hm : l.Allowed m) : Reach (system ρ ο) Ledger.Allowed (l.move m) := h.step hm rfl

/-- **Allowed moves lose nothing.** -/
theorem kept_of_reach {l : Ledger ρ ο} (h : Reach (system ρ ο) Ledger.Allowed l) : l.Kept := by
  refine h.invariant (fun l hl r hr => ?_) fun l m l' hl hm hs => ?_
  · rw [show l.out = ∅ from hl] at hr
    exact hr.elim
  · rw [show l' = l.move m from hs]
    exact hl.move hm

end Custody
