import Mathlib.Data.List.Basic

/-!
# Programs that act and may raise

What a program leaves is the acts it has carried out and the exception that ended it, if
one did.

- `andThen`: one program after another; an exception of the first ends both.
- `each`: a loop. `Gets f bs b`: it comes to `b`, since nothing before raises.
- `Listing`: a listing read piece by piece, which may raise after any of its items.
- `mem_each`, `mem_over`: what a loop has done is what its iterations have, of those it
  comes to.
-/

namespace Acts

universe u v w

variable {ε : Type u} {α : Type v} {β : Type w}

structure Program (ε : Type u) (α : Type v) where
  acts : List α
  raised : Option ε

/-- Nothing is done. -/
def done : Program ε α := ⟨[], none⟩

def raise (e : ε) : Program ε α := ⟨[], some e⟩

def Program.andThen (x y : Program ε α) : Program ε α :=
  match x.raised with
  | some e => ⟨x.acts, some e⟩
  | none => ⟨x.acts ++ y.acts, y.raised⟩

theorem mem_andThen {x y : Program ε α} {a : α} :
    a ∈ (x.andThen y).acts ↔ a ∈ x.acts ∨ (x.raised = none ∧ a ∈ y.acts) := by
  unfold Program.andThen
  cases x.raised with
  | some e => simp
  | none => simp

/-- A loop. -/
def each (f : β → Program ε α) : List β → Program ε α
  | [] => done
  | b :: bs => (f b).andThen (each f bs)

/-- The loop comes to `b`: no iteration before it raises. -/
def Gets (f : β → Program ε α) (bs : List β) (b : β) : Prop :=
  ∃ front back, bs = front ++ b :: back ∧ ∀ c ∈ front, (f c).raised = none

theorem Gets.mem {f : β → Program ε α} {bs : List β} {b : β} (h : Gets f bs b) : b ∈ bs := by
  obtain ⟨front, back, rfl, -⟩ := h
  exact List.mem_append_right _ List.mem_cons_self

theorem gets_cons {f : β → Program ε α} {b c : β} {bs : List β} :
    Gets f (c :: bs) b ↔ b = c ∨ ((f c).raised = none ∧ Gets f bs b) := by
  constructor
  · rintro ⟨front, back, heq, hfront⟩
    cases front with
    | nil => exact .inl (List.cons.inj heq).1.symm
    | cons d front =>
      obtain ⟨rfl, rfl⟩ := List.cons.inj heq
      exact .inr ⟨hfront c List.mem_cons_self, front, back, rfl,
        fun x hx => hfront x (List.mem_cons_of_mem _ hx)⟩
  · rintro (rfl | ⟨hc, front, back, rfl, hfront⟩)
    · exact ⟨[], bs, rfl, by simp⟩
    · exact ⟨c :: front, back, rfl, List.forall_mem_cons.mpr ⟨hc, hfront⟩⟩

/-- **What a loop has done.** -/
theorem mem_each {f : β → Program ε α} {a : α} : ∀ {bs : List β},
    a ∈ (each f bs).acts ↔ ∃ b, Gets f bs b ∧ a ∈ (f b).acts
  | [] => by
    refine iff_of_false (by simp [each, done]) ?_
    rintro ⟨b, hb, -⟩
    cases hb.mem
  | c :: bs => by
    rw [each, mem_andThen, mem_each]
    constructor
    · rintro (ha | ⟨hc, b, hb, ha⟩)
      · exact ⟨c, gets_cons.mpr (.inl rfl), ha⟩
      · exact ⟨b, gets_cons.mpr (.inr ⟨hc, hb⟩), ha⟩
    · rintro ⟨b, hb, ha⟩
      rcases gets_cons.mp hb with rfl | ⟨hc, hb⟩
      · exact .inl ha
      · exact .inr ⟨hc, b, hb, ha⟩

/-- A listing: the items it yields, and what it raises behind them. -/
structure Listing (ε : Type u) (β : Type w) where
  items : List β
  fails : Option ε

/-- The listing of some items that is cut short, or not. -/
def Listing.of (items : List β) : Option (Nat × ε) → Listing ε β
  | none => ⟨items, none⟩
  | some (n, e) => ⟨items.take n, some e⟩

theorem Listing.mem_of {items : List β} {cut : Option (Nat × ε)} {b : β}
    (h : b ∈ (Listing.of items cut).items) : b ∈ items := by
  cases cut with
  | none => exact h
  | some c => exact List.mem_of_mem_take h

/-- A loop over a listing. -/
def Listing.over (l : Listing ε β) (f : β → Program ε α) : Program ε α :=
  (each f l.items).andThen ⟨[], l.fails⟩

theorem mem_over {l : Listing ε β} {f : β → Program ε α} {a : α} :
    a ∈ (l.over f).acts ↔ ∃ b, Gets f l.items b ∧ a ∈ (f b).acts := by
  rw [Listing.over, mem_andThen, mem_each]
  simp

end Acts
