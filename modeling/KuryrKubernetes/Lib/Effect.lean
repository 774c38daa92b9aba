import Mathlib.Data.List.Basic
import Mathlib.Logic.Relation

/-!
# Rules for stateful programs that may fail

A program is an `EStateM ε σ α`: it reads and writes a state, and it may stop
with a fault, which keeps the state reached so far.

- `Triple P x Q E`: started where `P` holds, `x` either returns, with `Q` of its
  value and state, or fails, with `E` of its fault and state. With
  `E := fun _ _ => False` it is total correctness.
- `sweep`: a loop over a list that can leave the enclosing function early. Its
  rule takes an invariant indexed by the elements *still to come*, so a loop
  nested in another is the same invariant on a longer list of elements to come.
- `gather`: a loop that collects what some of its iterations return.
- `Moves R halt F x G`: all `x` does to its state is a path of `R`-moves. Said once
  for a program, it gives every invariant of the moves (`Moves.invariant`), also in
  the state of a run that failed.
-/

namespace Effect

variable {ε σ α β : Type}

/-- Pre- and postconditions of a program; `E` is the postcondition of a fault. -/
def Triple (P : σ → Prop) (x : EStateM ε σ α) (Q : α → σ → Prop) (E : ε → σ → Prop) : Prop :=
  ∀ s, P s → match x s with
    | .ok a t => Q a t
    | .error e t => E e t

variable {P P' : σ → Prop} {Q Q' : α → σ → Prop} {E E' : ε → σ → Prop} {x : EStateM ε σ α}

theorem Triple.pure {a : α} (h : ∀ s, P s → Q a s) :
    Triple P (Pure.pure a : EStateM ε σ α) Q E :=
  fun s hs => h s hs

theorem Triple.throw {e : ε} (h : ∀ s, P s → E e s) :
    Triple P (throw e : EStateM ε σ α) Q E :=
  fun s hs => h s hs

theorem run_bind_ok {f : α → EStateM ε σ β} {s t : σ} {a : α} (h : x s = .ok a t) :
    (x >>= f) s = f a t := by
  show EStateM.bind x f s = _
  rw [EStateM.bind, h]

theorem run_bind_error {f : α → EStateM ε σ β} {s t : σ} {e : ε} (h : x s = .error e t) :
    (x >>= f) s = .error e t := by
  show EStateM.bind x f s = _
  rw [EStateM.bind, h]

theorem Triple.bind {R : β → σ → Prop} {f : α → EStateM ε σ β}
    (hx : Triple P x Q E) (hf : ∀ a, Triple (Q a) (f a) R E) : Triple P (x >>= f) R E := by
  intro s hs
  have h := hx s hs
  cases hxs : x s with
  | ok a t =>
    rw [hxs] at h
    rw [run_bind_ok hxs]
    exact hf a t h
  | error e t =>
    rw [hxs] at h
    rw [run_bind_error hxs]
    exact h

/-- The state read by `get` is the one the precondition is about. -/
theorem Triple.get_bind {f : σ → EStateM ε σ α}
    (h : ∀ s, P s → Triple (fun t => t = s) (f s) Q E) : Triple P (get >>= f) Q E :=
  fun s hs => h s hs s rfl

theorem Triple.modify {g : σ → σ} {Q : Unit → σ → Prop} (h : ∀ s, P s → Q () (g s)) :
    Triple P (modify g : EStateM ε σ Unit) Q E :=
  fun s hs => h s hs

theorem Triple.conseq (h : Triple P x Q E) (hP : ∀ s, P' s → P s)
    (hQ : ∀ a s, Q a s → Q' a s) (hE : ∀ e s, E e s → E' e s) : Triple P' x Q' E' := by
  intro s hs
  have hx := h s (hP s hs)
  cases hxs : x s with
  | ok a t =>
    rw [hxs] at hx
    exact hQ a t hx
  | error e t =>
    rw [hxs] at hx
    exact hE e t hx

theorem Triple.pre (h : Triple P x Q E) (hP : ∀ s, P' s → P s) : Triple P' x Q E :=
  fun s hs => h s (hP s hs)

theorem Triple.post (h : Triple P x Q E) (hQ : ∀ a s, Q a s → Q' a s) : Triple P x Q' E :=
  h.conseq (fun _ hs => hs) hQ fun _ _ he => he

/-- A program that cannot fail returns. -/
theorem Triple.returns (h : Triple P x Q fun _ _ => False) {s : σ} (hs : P s) :
    ∃ a t, x s = .ok a t ∧ Q a t := by
  have hx := h s hs
  cases hxs : x s with
  | ok a t =>
    rw [hxs] at hx
    exact ⟨a, t, rfl, hx⟩
  | error e t =>
    rw [hxs] at hx
    exact hx.elim

/-- A handler for faults takes over in the state the fault left. -/
theorem Triple.tryCatch {F : ε → σ → Prop} {handle : ε → EStateM ε σ α} (hx : Triple P x Q F)
    (hhandle : ∀ e, Triple (F e) (handle e) Q E) : Triple P (tryCatch x handle) Q E := by
  intro s hs
  have h := hx s hs
  show match EStateM.tryCatch x handle s with
    | .ok a t => Q a t
    | .error e t => E e t
  rw [EStateM.tryCatch]
  cases hxs : x s with
  | ok a t =>
    rw [hxs] at h
    exact h
  | error e t =>
    rw [hxs] at h
    exact hhandle e t h

/-- A program that keeps the invariant, and says something about its value. -/
theorem Triple.keep {I : σ → Prop} {S : α → Prop} {R : β → σ → Prop} {f : α → EStateM ε σ β}
    (hx : Triple I x (fun a s => I s ∧ S a) E) (hf : ∀ a, S a → Triple I (f a) R E) :
    Triple I (x >>= f) R E :=
  Triple.bind hx fun a s hs => hf a hs.2 s hs.1

/-! ## Loops -/

/-- A loop that carries a flag; an iteration that returns `none` leaves it. -/
def sweep (f : α → Bool → EStateM ε σ (Option Bool)) : List α → Bool → EStateM ε σ (Option Bool)
  | [], c => Pure.pure (some c)
  | a :: as, c => do
    match ← f a c with
    | none => return none
    | some c => sweep f as c

/-- What an iteration or a loop leaves behind: `stop` if it left early, `next` if not. -/
def Exit (stop : σ → Prop) (next : Bool → σ → Prop) : Option Bool → σ → Prop
  | none => stop
  | some c => next c

/-- **The loop rule**, by induction on the elements to come. -/
theorem Triple.sweep {f : α → Bool → EStateM ε σ (Option Bool)} {stop : σ → Prop}
    {I : List α → Bool → σ → Prop}
    (hstep : ∀ a as c, Triple (I (a :: as) c) (f a c) (Exit stop (I as)) E) :
    ∀ as c, Triple (I as c) (sweep f as c) (Exit stop (I [])) E
  | [], c => Triple.pure fun _ hs => hs
  | a :: as, c => by
    refine Triple.bind (hstep a as c) fun r => ?_
    cases r with
    | none => exact Triple.pure fun _ hs => hs
    | some c => exact Triple.sweep hstep as c

/-- Iterations that do nothing. -/
theorem sweep_of_some {f : α → Bool → EStateM ε σ (Option Bool)} {s : σ} :
    ∀ {as : List α} {c : Bool}, (∀ a ∈ as, ∀ c, f a c s = .ok (some c) s) →
      sweep f as c s = .ok (some c) s
  | [], _, _ => rfl
  | a :: as, c, h => by
    rw [sweep, run_bind_ok (h a List.mem_cons_self c)]
    exact sweep_of_some fun b hb => h b (List.mem_cons_of_mem _ hb)

/-- A loop over a list, with an invariant that may speak of the elements to come. -/
theorem Triple.forM {f : α → EStateM ε σ PUnit} {I : List α → σ → Prop}
    (hstep : ∀ a as, Triple (I (a :: as)) (f a) (fun _ => I as) E) :
    ∀ as, Triple (I as) (as.forM f) (fun _ => I []) E
  | [] => Triple.pure fun _ hs => hs
  | a :: as => Triple.bind (hstep a as) fun _ => Triple.forM hstep as

/-- A loop whose iterations may return something; their results in order. -/
def gather (f : α → EStateM ε σ (Option β)) : List α → EStateM ε σ (List β)
  | [] => Pure.pure []
  | a :: as => do
    let b ← f a
    let bs ← gather f as
    return b.toList ++ bs

theorem gather_of_none {f : α → EStateM ε σ (Option β)} {s : σ} :
    ∀ {as : List α}, (∀ a ∈ as, f a s = .ok none s) → gather f as s = .ok [] s
  | [], _ => rfl
  | a :: as, h => by
    have hrest := gather_of_none fun b hb => h b (List.mem_cons_of_mem _ hb)
    rw [gather, run_bind_ok (h a List.mem_cons_self), run_bind_ok hrest]
    rfl

/-- `bs` are results of iterations over `as`, each allowed by `R`. -/
inductive Gathered (R : α → Option β → Prop) : List α → List β → Prop where
  | nil : Gathered R [] []
  | cons {a : α} {b : Option β} {as : List α} {bs : List β} :
      R a b → Gathered R as bs → Gathered R (a :: as) (b.toList ++ bs)

theorem Triple.gather {f : α → EStateM ε σ (Option β)} {R : α → Option β → Prop}
    {I : σ → Prop} : ∀ {as : List α},
    (∀ a ∈ as, Triple I (f a) (fun b s => I s ∧ R a b) E) →
      Triple I (gather f as) (fun bs s => I s ∧ Gathered R as bs) E
  | [], _ => Triple.pure fun _ hs => ⟨hs, .nil⟩
  | a :: as, h => by
    refine Triple.bind (h a List.mem_cons_self) fun b => ?_
    intro s hs
    have hrest := Triple.gather (fun a ha => h a (List.mem_cons_of_mem _ ha))
    have hR := hs.2
    refine Triple.bind hrest (fun bs => Triple.pure ?_) s hs.1
    intro t ht
    exact ⟨ht.1, .cons hR ht.2⟩

/-- Where every result is returned by some iteration. -/
theorem Gathered.mem {R : α → Option β → Prop} {as : List α} {bs : List β}
    (h : Gathered R as bs) : ∀ b ∈ bs, ∃ a ∈ as, R a (some b) := by
  induction h with
  | nil => simp
  | @cons a b as bs hR _ ih =>
    intro x hx
    rcases List.mem_append.mp hx with hx | hx
    · rw [Option.mem_toList] at hx
      cases hx
      exact ⟨a, List.mem_cons_self, hR⟩
    · obtain ⟨a', ha', hR'⟩ := ih x hx
      exact ⟨a', List.mem_cons_of_mem _ ha', hR'⟩

/-- Iterations that return what a function says gather its values. -/
theorem Gathered.eq_filterMap {g : α → Option β} {as : List α} {bs : List β}
    (h : Gathered (fun a b => b = g a) as bs) : bs = as.filterMap g := by
  induction h with
  | nil => rfl
  | @cons a b as bs hR _ ih =>
    subst hR ih
    cases hg : g a with
    | none => simp [hg]
    | some b => simp [hg]

/-! ## Programs as paths of moves -/

open Relation (ReflTransGen)

/-- From `F`, the program takes a path of moves to `G`, or takes a path of moves and
then fails; `halt e t s` relates the end `t` of that path to the state `s` left by
the fault `e`. -/
def Moves (R : σ → σ → Prop) (halt : ε → σ → σ → Prop) (F : σ → Prop) (x : EStateM ε σ α)
    (G : α → σ → Prop) : Prop :=
  ∀ s₀, Triple (fun s => s = s₀ ∧ F s) x (fun a s => ReflTransGen R s₀ s ∧ G a s)
    (fun e s => ∃ t, ReflTransGen R s₀ t ∧ halt e t s)

section Moves

variable {R : σ → σ → Prop} {halt : ε → σ → σ → Prop} {F F' : σ → Prop} {G G' : α → σ → Prop}

theorem Moves.pure {a : α} (h : ∀ s, F s → G a s) :
    Moves R halt F (Pure.pure a : EStateM ε σ α) G :=
  fun _ => Triple.pure fun s hs => ⟨hs.1 ▸ .refl, h s hs.2⟩

theorem Moves.throw {e : ε} (h : ∀ s, F s → halt e s s) :
    Moves R halt F (throw e : EStateM ε σ α) G :=
  fun s₀ => Triple.throw fun s hs => ⟨s₀, .refl, hs.1 ▸ h s hs.2⟩

theorem Moves.bind {K : β → σ → Prop} {f : α → EStateM ε σ β}
    (hx : Moves R halt F x G) (hf : ∀ a, Moves R halt (G a) (f a) K) :
    Moves R halt F (x >>= f) K := by
  intro s₀
  refine Triple.bind (hx s₀) fun a s₁ hs₁ => ?_
  have h := hf a s₁ s₁ ⟨rfl, hs₁.2⟩
  cases hfs : f a s₁ with
  | ok b s₂ =>
    rw [hfs] at h
    exact ⟨hs₁.1.trans h.1, h.2⟩
  | error e s₂ =>
    rw [hfs] at h
    obtain ⟨t, ht, hhalt⟩ := h
    exact ⟨t, hs₁.1.trans ht, hhalt⟩

theorem Moves.get_bind {f : σ → EStateM ε σ α}
    (h : ∀ s, F s → Moves R halt (fun t => t = s) (f s) G) : Moves R halt F (get >>= f) G :=
  fun s₀ => Triple.get_bind fun s hs => (h s hs.2 s₀).pre fun _ ht => ⟨ht.trans hs.1, ht⟩

/-- An assignment that is a path of moves. -/
theorem Moves.modify {g : σ → σ} {G : Unit → σ → Prop} (hR : ∀ s, F s → ReflTransGen R s (g s))
    (hG : ∀ s, F s → G () (g s)) : Moves R halt F (modify g : EStateM ε σ Unit) G := by
  intro s₀
  refine Triple.modify fun s hs => ⟨?_, hG s hs.2⟩
  rw [← hs.1]
  exact hR s hs.2

theorem Moves.conseq (h : Moves R halt F x G) (hF : ∀ s, F' s → F s)
    (hG : ∀ a s, G a s → G' a s) : Moves R halt F' x G' :=
  fun s₀ => (h s₀).conseq (fun s hs => ⟨hs.1, hF s hs.2⟩) (fun a s ha => ⟨ha.1, hG a s ha.2⟩)
    fun _ _ he => he

theorem Moves.pre (h : Moves R halt F x G) (hF : ∀ s, F' s → F s) : Moves R halt F' x G :=
  h.conseq hF fun _ _ ha => ha

theorem Moves.post (h : Moves R halt F x G) (hG : ∀ a s, G a s → G' a s) :
    Moves R halt F x G' :=
  h.conseq (fun _ hs => hs) hG

theorem Moves.sweep {f : α → Bool → EStateM ε σ (Option Bool)} {stop : σ → Prop}
    {I : List α → σ → Prop}
    (hstep : ∀ a as c, Moves R halt (I (a :: as)) (f a c) (Exit stop fun _ => I as)) :
    ∀ as c, Moves R halt (I as) (sweep f as c) (Exit stop fun _ => I [])
  | [], c => Moves.pure fun _ hs => hs
  | a :: as, c => by
    refine Moves.bind (hstep a as c) fun r => ?_
    cases r with
    | none => exact Moves.pure fun _ hs => hs
    | some c => exact Moves.sweep hstep as c

theorem Moves.gather {f : α → EStateM ε σ (Option β)} {S : α → Option β → Prop} :
    ∀ {as : List α}, (∀ a ∈ as, Moves R halt F (f a) (fun b s => F s ∧ S a b)) →
      Moves R halt F (gather f as) (fun bs s => F s ∧ Gathered S as bs)
  | [], _ => Moves.pure fun _ hs => ⟨hs, .nil⟩
  | a :: as, h => by
    refine Moves.bind (h a List.mem_cons_self) fun b => ?_
    intro s₀ s hs
    have hS := hs.2.2
    have hrest := Moves.gather fun a ha => h a (List.mem_cons_of_mem _ ha)
    refine Moves.bind hrest (fun bs => Moves.pure ?_) s₀ s ⟨hs.1, hs.2.1⟩
    intro t ht
    exact ⟨ht.1, .cons hS ht.2⟩

/-- **Invariants of the moves are invariants of the program**, along every path it
takes. -/
theorem Moves.invariant {I : σ → Prop} (h : Moves R halt F x G)
    (hI : ∀ s t, I s → R s t → I t) :
    Triple (fun s => I s ∧ F s) x (fun a s => I s ∧ G a s) (fun e s => ∃ t, I t ∧ halt e t s) := by
  have hpath : ∀ {s t : σ}, I s → ReflTransGen R s t → I t := by
    intro s t hs hpath
    induction hpath with
    | refl => exact hs
    | tail _ hR ih => exact hI _ _ ih hR
  intro s hs
  have hx := h s s ⟨rfl, hs.2⟩
  cases hxs : x s with
  | ok a t =>
    rw [hxs] at hx
    exact ⟨hpath hs.1 hx.1, hx.2⟩
  | error e t =>
    rw [hxs] at hx
    obtain ⟨u, hu, hhalt⟩ := hx
    exact ⟨u, hpath hs.1 hu, hhalt⟩

end Moves

end Effect
