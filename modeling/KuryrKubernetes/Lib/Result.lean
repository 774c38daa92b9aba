import Mathlib.Data.List.Basic

/-!
# Rules for computations that may fail

Postconditions of `Except` computations. A failing run meets every postcondition.

- `Holds P x`: if `x` returns `a`, then `P a`.
- `each`: the loop that returns one result per element, or the first failure.
- `collect`: the loop that joins the results of its iterations; its rules are
  `Holds.collect` for one loop and `collect_rel` for two side by side.
-/

namespace Results

variable {ε α β : Type}

/-- Postcondition of one run. -/
def Holds (P : α → Prop) (x : Except ε α) : Prop := ∀ a, x = .ok a → P a

theorem bind_eq_ok {x : Except ε α} {f : α → Except ε β} {b : β} :
    (x >>= f) = .ok b ↔ ∃ a, x = .ok a ∧ f a = .ok b := by
  cases x with
  | error e =>
    constructor
    · intro h
      cases h
    · rintro ⟨_, h, _⟩
      cases h
  | ok a =>
    constructor
    · intro h
      exact ⟨a, rfl, h⟩
    · rintro ⟨_, h, hf⟩
      cases h
      exact hf

/-- Computations that return, one after the other. -/
theorem exists_bind {x : Except ε α} {f : α → Except ε β} (hx : ∃ a, x = .ok a)
    (hf : ∀ a, ∃ b, f a = .ok b) : ∃ b, (x >>= f) = .ok b := by
  obtain ⟨a, ha⟩ := hx
  obtain ⟨b, hb⟩ := hf a
  exact ⟨b, bind_eq_ok.mpr ⟨a, ha, hb⟩⟩

theorem Holds.ok {P : α → Prop} {a : α} (h : P a) : Holds P (.ok a : Except ε α) := by
  intro b hb
  cases hb
  exact h

theorem Holds.bind {P : α → Prop} {Q : β → Prop} {x : Except ε α} {f : α → Except ε β}
    (hx : Holds P x) (hf : ∀ a, P a → Holds Q (f a)) : Holds Q (x >>= f) := by
  intro b hb
  obtain ⟨a, ha, hfa⟩ := bind_eq_ok.mp hb
  exact hf a (hx a ha) b hfa

theorem Holds.mono {P Q : α → Prop} {x : Except ε α} (hx : Holds P x) (h : ∀ a, P a → Q a) :
    Holds Q x :=
  fun a ha => h a (hx a ha)

theorem Holds.trivial {x : Except ε α} : Holds (fun _ => True) x := fun _ _ => True.intro

/-- Map over a list with a function that may fail. -/
def each (f : α → Except ε β) : List α → Except ε (List β)
  | [] => .ok []
  | a :: as => do
    let b ← f a
    let bs ← each f as
    return b :: bs

/-- The loop succeeds exactly with the results of its iterations. -/
theorem each_eq_ok {f : α → Except ε β} : ∀ {as : List α} {bs : List β},
    each f as = .ok bs ↔ List.Forall₂ (fun a b => f a = .ok b) as bs
  | [], bs => by
    constructor
    · intro h
      cases h
      exact .nil
    · intro h
      cases h
      rfl
  | a :: as, bs => by
    constructor
    · intro h
      obtain ⟨b, hb, h⟩ := bind_eq_ok.mp h
      obtain ⟨rest, hrest, h⟩ := bind_eq_ok.mp h
      cases h
      exact .cons hb (each_eq_ok.mp hrest)
    · intro h
      cases h with
      | cons hb hrest => exact bind_eq_ok.mpr ⟨_, hb, bind_eq_ok.mpr ⟨_, each_eq_ok.mpr hrest, rfl⟩⟩

/-- What the steps make has what each makes of its element. -/
theorem mem_of_each_eq_ok {f : α → Except ε β} {l : List α} {bs : List β} {a : α} {b : β}
    (h : each f l = .ok bs) (ha : a ∈ l) (hb : f a = .ok b) : b ∈ bs := by
  have hrel := each_eq_ok.mp h
  clear h
  induction hrel with
  | nil => cases ha
  | cons hhead _ ih =>
    rcases List.mem_cons.mp ha with rfl | ha
    · rw [hb] at hhead
      cases hhead
      exact List.mem_cons_self
    · exact List.mem_cons_of_mem _ (ih ha)

theorem each_map {γ : Type} {f : γ → α} {g : α → Except ε β} :
    ∀ {l : List γ}, each g (l.map f) = each (fun c => g (f c)) l
  | [] => rfl
  | c :: l => by rw [List.map_cons, each, each, each_map]

theorem each_ok {f : α → Except ε β} {g : α → β} {l : List α} (h : ∀ a, f a = .ok (g a)) :
    each f l = .ok (l.map g) := by
  induction l with
  | nil => rfl
  | cons a l ih =>
    rw [each, h, ih]
    rfl

/-- Two loops one after the other are one loop, where they succeed. -/
theorem each_each_eq_ok {γ : Type} {f : α → Except ε β} {g : β → Except ε γ} :
    ∀ {as : List α} {cs : List γ},
      (∃ bs, each f as = .ok bs ∧ each g bs = .ok cs) ↔ each (fun a => f a >>= g) as = .ok cs
  | [], cs => by
    constructor
    · rintro ⟨bs, hbs, hcs⟩
      cases hbs
      exact hcs
    · intro h
      exact ⟨[], rfl, h⟩
  | a :: as, cs => by
    constructor
    · rintro ⟨bs, hbs, hcs⟩
      rw [each_eq_ok] at hbs hcs
      cases hbs with
      | cons hb hbs =>
        cases hcs with
        | cons hc hcs =>
          have hrest := each_each_eq_ok.mp ⟨_, each_eq_ok.mpr hbs, each_eq_ok.mpr hcs⟩
          exact each_eq_ok.mpr (.cons (bind_eq_ok.mpr ⟨_, hb, hc⟩) (each_eq_ok.mp hrest))
    · intro h
      rw [each_eq_ok] at h
      cases h with
      | cons hc hcs =>
        obtain ⟨b, hb, hc⟩ := bind_eq_ok.mp hc
        obtain ⟨bs, hbs, hcs⟩ := each_each_eq_ok.mpr (each_eq_ok.mpr hcs)
        exact ⟨b :: bs, each_eq_ok.mpr (.cons hb (each_eq_ok.mp hbs)),
          each_eq_ok.mpr (.cons hc (each_eq_ok.mp hcs))⟩

/-- Loops whose iterations succeed with the same results. -/
theorem each_congr {δ : Type} {f : α → Except ε β} {g : α → Except δ β} :
    ∀ {as : List α}, (∀ a ∈ as, ∃ b, f a = .ok b ∧ g a = .ok b) →
      ∃ bs, each f as = .ok bs ∧ each g as = .ok bs
  | [], _ => ⟨[], rfl, rfl⟩
  | a :: as, h => by
    obtain ⟨b, hf, hg⟩ := h a List.mem_cons_self
    obtain ⟨bs, hfs, hgs⟩ := each_congr fun x hx => h x (List.mem_cons_of_mem _ hx)
    rw [each_eq_ok] at hfs hgs
    exact ⟨b :: bs, each_eq_ok.mpr (.cons hf hfs), each_eq_ok.mpr (.cons hg hgs)⟩

/-- Map over a list with a function that may fail, joining the results. -/
def collect (f : α → Except ε (List β)) : List α → Except ε (List β)
  | [] => .ok []
  | a :: as => do
    let bs ← f a
    let rest ← collect f as
    return bs ++ rest

theorem collect_cons {f : α → Except ε (List β)} {a : α} {as : List α} {bs : List β}
    (h : collect f (a :: as) = .ok bs) :
    ∃ b rest, f a = .ok b ∧ collect f as = .ok rest ∧ bs = b ++ rest := by
  obtain ⟨b, hb, h⟩ := bind_eq_ok.mp h
  obtain ⟨rest, hrest, h⟩ := bind_eq_ok.mp h
  cases h
  exact ⟨b, rest, hb, hrest, rfl⟩

/-- Every result comes from some iteration, and every iteration succeeded. -/
theorem mem_collect {f : α → Except ε (List β)} :
    ∀ {as : List α} {bs : List β}, collect f as = .ok bs →
      (∀ a ∈ as, ∃ l, f a = .ok l) ∧
      ∀ b, b ∈ bs ↔ ∃ a ∈ as, ∃ l, f a = .ok l ∧ b ∈ l
  | [], bs, h => by
    cases h
    simp
  | a :: as, bs, h => by
    obtain ⟨l, rest, hl, hrest, rfl⟩ := collect_cons h
    obtain ⟨hall, hmem⟩ := mem_collect hrest
    refine ⟨fun x hx => ?_, fun b => ?_⟩
    · rcases List.mem_cons.mp hx with rfl | hx
      · exact ⟨l, hl⟩
      · exact hall x hx
    · rw [List.mem_append, hmem]
      constructor
      · rintro (hb | ⟨x, hx, m, hm, hb⟩)
        · exact ⟨a, List.mem_cons_self, l, hl, hb⟩
        · exact ⟨x, List.mem_cons_of_mem _ hx, m, hm, hb⟩
      · rintro ⟨x, hx, m, hm, hb⟩
        rcases List.mem_cons.mp hx with rfl | hx
        · rw [hl] at hm
          cases hm
          exact .inl hb
        · exact .inr ⟨x, hx, m, hm, hb⟩

/-- A loop whose iterations all succeed. -/
theorem exists_collect {f : α → Except ε (List β)} {as : List α}
    (h : ∀ a ∈ as, ∃ l, f a = .ok l) : ∃ bs, collect f as = .ok bs := by
  induction as with
  | nil => exact ⟨[], rfl⟩
  | cons a as ih =>
    obtain ⟨l, hl⟩ := h a List.mem_cons_self
    obtain ⟨rest, hrest⟩ := ih fun x hx => h x (List.mem_cons_of_mem _ hx)
    exact ⟨l ++ rest, by rw [collect, hl, hrest]; rfl⟩

theorem Holds.collect {P : β → Prop} {f : α → Except ε (List β)} {as : List α}
    (hf : ∀ a ∈ as, Holds (fun bs => ∀ b ∈ bs, P b) (f a)) :
    Holds (fun bs => ∀ b ∈ bs, P b) (collect f as) := by
  intro bs hbs b hb
  obtain ⟨a, ha, l, hl, hb⟩ := ((mem_collect hbs).2 b).mp hb
  exact hf a ha l hl b hb

/-- Two loops that succeed, related step by step. -/
theorem collect_rel {R : List β → List β → Prop} {f g : α → Except ε (List β)} (hnil : R [] [])
    (happend : ∀ {l l' m m'}, R l l' → R m m' → R (l ++ m) (l' ++ m')) :
    ∀ {as : List α} {bs cs : List β},
      (∀ a ∈ as, ∀ l l', f a = .ok l → g a = .ok l' → R l l') →
      collect f as = .ok bs → collect g as = .ok cs → R bs cs
  | [], _, _, _, hf, hg => by
    cases hf
    cases hg
    exact hnil
  | a :: as, _, _, h, hf, hg => by
    obtain ⟨l, m, hl, hm, rfl⟩ := collect_cons hf
    obtain ⟨l', m', hl', hm', rfl⟩ := collect_cons hg
    exact happend (h a List.mem_cons_self l l' hl hl')
      (collect_rel hnil happend (fun x hx => h x (List.mem_cons_of_mem _ hx)) hm hm')

/-- A filter on every iteration is a filter on the whole. -/
theorem collect_filter {f g : α → Except ε (List β)} {p : β → Bool} :
    ∀ {as : List α}, (∀ a ∈ as, g a = (f a).map (List.filter p)) →
      collect g as = (collect f as).map (List.filter p)
  | [], _ => rfl
  | a :: as, h => by
    rw [collect, collect, h a List.mem_cons_self,
      collect_filter fun x hx => h x (List.mem_cons_of_mem _ hx)]
    cases f a with
    | error e => rfl
    | ok l =>
      cases collect f as with
      | error e => rfl
      | ok rest =>
        show Except.ok _ = Except.ok _
        rw [List.filter_append]

end Results
