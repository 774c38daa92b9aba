import Mathlib.Data.Set.Insert

/-!
# Maintaining a derived view

A view is what the derivations over a base give. Each derivation rests on some items, and a base
without an item has exactly the derivations that do not rest on it. The view is held somewhere,
and kept up to date by computing it again when that seems necessary. Items come and go, and what
keeps the view hears of it later: an item that has come calls for a new view unless it is
dispensable, one that has gone calls for it when the view that is held mentions it.

- `Derivations`: the derivations, and the law for bases without an item.
- `Kept`: a base, the view that is held for it, and the items that have not been heard of yet.
- `Step`: the ways these change, in any order.
- `Maintained`: the view is due to be computed again, or it has been given by derivations that
  are there, apart from those that rest on items that have gone unheard of; and what is derived
  without the items that have come unheard of is in it. `Maintained.step` is the step lemma.
- `Maintained.held_eq`: a view that is not due is right once everything has been heard of.

An item may come and go any number of times before it is heard of.
-/

namespace Views

universe u v w x

structure Derivations (κ : Type u) (ι : Type v) (δ : Type w) (β : Type x) where
  without : κ → ι → κ
  valid : κ → δ → Prop
  rests : δ → ι → Prop
  gives : δ → β
  valid_without : ∀ {c i w}, valid (without c i) w ↔ valid c w ∧ ¬ rests w i

variable {κ : Type u} {ι : Type v} {δ : Type w} {β : Type x} (F : Derivations κ ι δ β)

/-- What the derivations over a base give. -/
def view (c : κ) : Set β := {b | ∃ w, F.valid c w ∧ F.gives w = b}

/-- The derivation rests on none of the items. -/
def Free (items : Set ι) (w : δ) : Prop := ∀ i ∈ items, ¬ F.rests w i

/-- What rests on the item is also given by something that does not, as far as the items that
come with it are left aside. -/
def Dispensable (c : κ) (items : Set ι) (i : ι) : Prop :=
  ∀ w, F.valid c w → F.rests w i → Free F (items \ {i}) w →
    ∃ w', F.valid c w' ∧ F.gives w' = F.gives w ∧ Free F (insert i items) w'

/-- A base, the view that is held for it and the items this mentions, whether the view is due to
be computed again, and the items that have come or gone and have not been heard of. -/
structure Kept (κ : Type u) (ι : Type v) (β : Type x) where
  base : κ
  held : Set β
  mentioned : Set ι
  due : Prop
  come : Set ι
  gone : Set ι

/-- What may happen. -/
inductive Step : Kept κ ι β → Kept κ ι β → Prop
  | change {s s'} (hdue : s'.due) : Step s s'
  | unseen {s c due} (hdue : s.due → due) (hc : ∀ w, F.valid c w ↔ F.valid s.base w) :
      Step s { s with base := c, due := due }
  | comes {s c i} (hc : s.base = F.without c i) :
      Step s { s with base := c, come := insert i s.come }
  | goes {s i} :
      Step s { s with base := F.without s.base i, come := s.come \ {i}, gone := insert i s.gone }
  | heardCome {s i due} (hdue : s.due → due) (hi : due ∨ Dispensable F s.base s.come i) :
      Step s { s with due := due, come := s.come \ {i} }
  | heardGone {s items due} (hdue : s.due → due) (hi : ∀ i ∈ items, i ∈ s.mentioned → due) :
      Step s { s with due := due, gone := s.gone \ items }
  | compute {s mentioned due} (hm : ∀ w i, F.valid s.base w → F.rests w i → i ∈ mentioned) :
      Step s { s with held := view F s.base, mentioned := mentioned, due := due }

/-- The view is due, or some derivations account for it. -/
def Maintained (s : Kept κ ι β) : Prop :=
  s.due ∨ ∃ ws : Set δ, s.held = F.gives '' ws ∧
    (∀ w ∈ ws, ∀ i, F.rests w i → i ∈ s.mentioned) ∧
    (∀ w ∈ ws, F.valid s.base w ∨ ∃ i ∈ s.gone, F.rests w i) ∧
    ∀ w, F.valid s.base w → Free F s.come w → F.gives w ∈ s.held

variable {F}

/-- **One step.** -/
theorem Maintained.step {s s' : Kept κ ι β} (h : Maintained F s) (hs : Step F s s') :
    Maintained F s' := by
  cases hs with
  | change hdue => exact .inl hdue
  | unseen hdue hc =>
    refine h.imp hdue ?_
    rintro ⟨ws, hheld, hment, hwhy, hall⟩
    exact ⟨ws, hheld, hment, fun w hw => (hwhy w hw).imp (hc w).mpr id,
      fun w hw hfree => hall w ((hc w).mp hw) hfree⟩
  | compute hm =>
    refine .inr ⟨{w | F.valid s.base w}, rfl, fun w hw i => hm w i hw, fun w hw => .inl hw, ?_⟩
    exact fun w hw _ => ⟨w, hw, rfl⟩
  | @comes c i hc =>
    refine h.imp id ?_
    rintro ⟨ws, hheld, hment, hwhy, hall⟩
    refine ⟨ws, hheld, hment, fun w hw => ?_, fun w hw hfree => ?_⟩
    · refine (hwhy w hw).imp (fun hvalid => ?_) id
      rw [hc, F.valid_without] at hvalid
      exact hvalid.1
    · -- what does not rest on the new item was there before
      refine hall w ?_ fun j hj => hfree j (Set.mem_insert_of_mem i hj)
      rw [hc, F.valid_without]
      exact ⟨hw, hfree i (Set.mem_insert i s.come)⟩
  | @goes i =>
    refine h.imp id ?_
    rintro ⟨ws, hheld, hment, hwhy, hall⟩
    refine ⟨ws, hheld, hment, fun w hw => ?_, fun w hw hfree => ?_⟩
    · rcases hwhy w hw with hvalid | ⟨j, hj, hrests⟩
      · by_cases hrests : F.rests w i
        · exact .inr ⟨i, Set.mem_insert i s.gone, hrests⟩
        · exact .inl (F.valid_without.mpr ⟨hvalid, hrests⟩)
      · exact .inr ⟨j, Set.mem_insert_of_mem i hj, hrests⟩
    · obtain ⟨hvalid, hnot⟩ := F.valid_without.mp hw
      refine hall w hvalid fun j hj => ?_
      by_cases hji : j = i
      · exact hji ▸ hnot
      · exact hfree j ⟨hj, hji⟩
  | @heardCome i due hdue hi =>
    rcases h with h | ⟨ws, hheld, hment, hwhy, hall⟩
    · exact .inl (hdue h)
    rcases hi with hi | hi
    · exact .inl hi
    refine .inr ⟨ws, hheld, hment, hwhy, fun w hw hfree => ?_⟩
    by_cases hrests : F.rests w i
    · obtain ⟨w', hw', heq, hfree'⟩ := hi w hw hrests hfree
      rw [← heq]
      exact hall w' hw' fun j hj => hfree' j (Set.mem_insert_of_mem i hj)
    · refine hall w hw fun j hj => ?_
      by_cases hji : j = i
      · exact hji ▸ hrests
      · exact hfree j ⟨hj, hji⟩
  | @heardGone items due hdue hi =>
    rcases h with h | ⟨ws, hheld, hment, hwhy, hall⟩
    · exact .inl (hdue h)
    by_cases hsilent : due
    · exact .inl hsilent
    refine .inr ⟨ws, hheld, hment, fun w hw => ?_, hall⟩
    refine (hwhy w hw).imp id ?_
    rintro ⟨j, hj, hrests⟩
    -- an item that is not mentioned is no excuse for anything that is held
    exact ⟨j, ⟨hj, fun hji => hsilent (hi j hji (hment w hw j hrests))⟩, hrests⟩

/-- **A view that is not due is right**, once no item is outstanding that matters. -/
theorem Maintained.held_eq {s : Kept κ ι β} (h : Maintained F s) (hdue : ¬ s.due)
    (hgone : s.gone = ∅) (hcome : ∀ w, F.valid s.base w → Free F s.come w) :
    s.held = view F s.base := by
  obtain ⟨ws, hheld, -, hwhy, hall⟩ := h.resolve_left hdue
  refine Set.Subset.antisymm ?_ ?_
  · rw [hheld]
    rintro b ⟨w, hw, rfl⟩
    refine ⟨w, (hwhy w hw).resolve_right ?_, rfl⟩
    rintro ⟨i, hi, -⟩
    rw [hgone] at hi
    exact hi
  · rintro b ⟨w, hw, rfl⟩
    exact hall w hw (hcome w hw)

end Views
