import Mathlib.Data.List.Nodup
import Mathlib.Data.List.Perm.Basic
import Mathlib.Data.List.Flatten

/-!
# Insertion-ordered dictionaries

The dictionaries of the host language keep their keys in insertion order:
assigning to a present key keeps its place, a new key goes to the end, and
`move_to_end` is the only other way to reorder.

- `Dict κ ν`: a list of items whose keys are pairwise distinct (the field
  `nodup`), so a dictionary with a repeated key cannot be built.
- `Dict.upsert`: the single write; plain assignment, `setdefault(k, [])` followed
  by a mutation, and the access of a `defaultdict` are instances.
- `Dict.upsert_perm` / `Dict.perm_of_get?`: the two rules the pool proofs use.
  Both sides are reduced to "the item at `k`, and the items elsewhere", so facts
  about what a dictionary holds, counted with multiplicity, need no induction.
-/

namespace Dicts

universe u v w

variable {κ : Type u} {ν : Type v}

/-- A dictionary: items in insertion order, keys pairwise distinct. -/
structure Dict (κ : Type u) (ν : Type v) where
  items : List (κ × ν)
  nodup : (items.map Prod.fst).Nodup
deriving DecidableEq, Repr

namespace Dict

@[ext] theorem ext {d e : Dict κ ν} (h : d.items = e.items) : d = e := by
  cases d
  cases e
  congr

/-- The empty dictionary. -/
def empty : Dict κ ν := ⟨[], List.nodup_nil⟩

instance : Inhabited (Dict κ ν) := ⟨empty⟩

@[simp] theorem empty_items : (empty : Dict κ ν).items = [] := rfl

/-- `list(d)`: the keys in order. -/
def keys (d : Dict κ ν) : List κ := d.items.map Prod.fst

theorem mem_keys {d : Dict κ ν} {k : κ} : k ∈ d.keys ↔ ∃ v, (k, v) ∈ d.items := by
  simp [keys]

theorem items_eq_nil {d : Dict κ ν} (h : ∀ k, k ∉ d.keys) : d.items = [] :=
  List.eq_nil_iff_forall_not_mem.mpr fun e he => h e.1 (mem_keys.mpr ⟨e.2, he⟩)

variable [DecidableEq κ]

/-- `d.get(k)`. -/
def get? (d : Dict κ ν) (k : κ) : Option ν :=
  (d.items.find? fun e => e.1 = k).map Prod.snd

/-- `d.pop(k, None)` / `del d[k]` of a present key. -/
def erase (d : Dict κ ν) (k : κ) : Dict κ ν where
  items := d.items.filter fun e => e.1 ≠ k
  nodup := d.nodup.sublist (List.filter_sublist.map _)

@[simp] theorem erase_items (d : Dict κ ν) (k : κ) :
    (d.erase k).items = d.items.filter fun e => e.1 ≠ k := rfl

theorem get?_eq_some {d : Dict κ ν} {k : κ} {v : ν} :
    d.get? k = some v ↔ (k, v) ∈ d.items := by
  obtain ⟨items, hnd⟩ := d
  induction items with
  | nil => simp [get?]
  | cons e rest ih =>
    obtain ⟨k', v'⟩ := e
    simp only [List.map_cons, List.nodup_cons] at hnd
    have ih := ih hnd.2
    simp only [get?] at ih ⊢
    by_cases hk : k' = k
    · subst hk
      simp only [List.find?_cons, decide_true, Option.map_some, Option.some.injEq,
        List.mem_cons, Prod.mk.injEq, true_and]
      constructor
      · intro h
        exact .inl h.symm
      · rintro (rfl | h)
        · rfl
        · exact absurd (List.mem_map_of_mem h) hnd.1
    · simp only [List.find?_cons, decide_eq_false hk, List.mem_cons, Prod.mk.injEq]
      rw [ih]
      constructor
      · exact .inr
      · rintro (⟨rfl, -⟩ | h)
        · exact absurd rfl hk
        · exact h

theorem get?_eq_none {d : Dict κ ν} {k : κ} : d.get? k = none ↔ k ∉ d.keys := by
  rw [mem_keys]
  constructor
  · rintro h ⟨v, hv⟩
    rw [get?_eq_some.mpr hv] at h
    cases h
  · intro h
    cases hg : d.get? k with
    | none => rfl
    | some v => exact absurd ⟨v, get?_eq_some.mp hg⟩ h

theorem mem_items_erase {d : Dict κ ν} {k : κ} {e : κ × ν} :
    e ∈ (d.erase k).items ↔ e ∈ d.items ∧ e.1 ≠ k := by
  simp

theorem mem_keys_erase {d : Dict κ ν} {k k' : κ} :
    k' ∈ (d.erase k).keys ↔ k' ∈ d.keys ∧ k' ≠ k := by
  simp only [mem_keys, mem_items_erase]
  exact ⟨fun ⟨v, hv, hne⟩ => ⟨⟨v, hv⟩, hne⟩, fun ⟨⟨v, hv⟩, hne⟩ => ⟨v, hv, hne⟩⟩

theorem get?_erase_self (d : Dict κ ν) (k : κ) : (d.erase k).get? k = none := by
  rw [get?_eq_none, mem_keys]
  rintro ⟨v, hv⟩
  exact (mem_items_erase.mp hv).2 rfl

theorem get?_erase_of_ne (d : Dict κ ν) {k k' : κ} (h : k' ≠ k) :
    (d.erase k).get? k' = d.get? k' := by
  refine Option.ext fun v => ?_
  rw [get?_eq_some, get?_eq_some, mem_items_erase]
  exact ⟨And.left, fun hm => ⟨hm, h⟩⟩

/-- What is left under a key was there before, under another key than the erased one. -/
theorem get?_erase_eq_some {d : Dict κ ν} {k k' : κ} {v : ν} :
    (d.erase k).get? k' = some v ↔ k' ≠ k ∧ d.get? k' = some v := by
  rw [get?_eq_some, get?_eq_some, mem_items_erase]
  exact and_comm

theorem erase_of_get?_none {d : Dict κ ν} {k : κ} (h : d.get? k = none) : d.erase k = d := by
  refine ext (List.filter_eq_self.mpr fun e he => ?_)
  have hk := get?_eq_none.mp h
  rw [mem_keys] at hk
  simp only [ne_eq, decide_not, Bool.not_eq_true', decide_eq_false_iff_not]
  rintro rfl
  exact hk ⟨e.2, he⟩

/-- A present key splits the dictionary into its item and the rest. -/
theorem perm_of_get? {d : Dict κ ν} {k : κ} {v : ν} (h : d.get? k = some v) :
    d.items.Perm ((k, v) :: (d.erase k).items) := by
  have hmem := get?_eq_some.mp h
  obtain ⟨items, hnd⟩ := d
  simp only [erase_items] at hmem ⊢
  clear h
  induction items with
  | nil => cases hmem
  | cons e rest ih =>
    simp only [List.map_cons, List.nodup_cons] at hnd
    rcases List.mem_cons.mp hmem with heq | hmem'
    · subst heq
      have hrest : rest.filter (fun e => e.1 ≠ k) = rest := by
        refine List.filter_eq_self.mpr fun e he => ?_
        simp only [ne_eq, decide_not, Bool.not_eq_true', decide_eq_false_iff_not]
        rintro rfl
        exact hnd.1 (List.mem_map.mpr ⟨e, he, rfl⟩)
      rw [List.filter_cons_of_neg (by simp), hrest]
    · have hne : e.1 ≠ k := by
        rintro rfl
        exact hnd.1 (List.mem_map.mpr ⟨_, hmem', rfl⟩)
      rw [List.filter_cons_of_pos (by simpa using hne)]
      exact ((ih hnd.2 hmem').cons e).trans (List.Perm.swap _ _ _)

/-- The item list of `upsert`: rewrite in place, or append. -/
def upsertItems (k : κ) (f : Option ν → ν) : List (κ × ν) → List (κ × ν)
  | [] => [(k, f none)]
  | e :: rest => if e.1 = k then (k, f (some e.2)) :: rest else e :: upsertItems k f rest

theorem upsertItems_keys (k : κ) (f : Option ν → ν) :
    ∀ l : List (κ × ν), (upsertItems k f l).map Prod.fst =
      if k ∈ l.map Prod.fst then l.map Prod.fst else l.map Prod.fst ++ [k]
  | [] => by simp [upsertItems]
  | e :: rest => by
    by_cases he : e.1 = k
    · simp [upsertItems, he]
    · have hk : ¬ k = e.1 := fun h => he h.symm
      simp only [upsertItems, he, if_false, List.map_cons, upsertItems_keys k f rest,
        List.mem_cons, hk, false_or]
      split <;> simp

/-- Write key `k`: `f` gets the present value, if any. A present key keeps its
place, a new one is appended. -/
def upsert (d : Dict κ ν) (k : κ) (f : Option ν → ν) : Dict κ ν where
  items := upsertItems k f d.items
  nodup := by
    rw [upsertItems_keys]
    have hd := d.nodup
    split
    · exact hd
    · next hk => exact List.nodup_append.mpr ⟨hd, List.nodup_singleton k, by
        rintro a ha b hb rfl
        exact hk (List.mem_singleton.mp hb ▸ ha)⟩

/-- `d[k] = v`. -/
def set (d : Dict κ ν) (k : κ) (v : ν) : Dict κ ν := d.upsert k fun _ => v

theorem upsertItems_of_not_mem (k : κ) (f : Option ν → ν) :
    ∀ {l : List (κ × ν)}, k ∉ l.map Prod.fst → upsertItems k f l = l ++ [(k, f none)]
  | [], _ => rfl
  | e :: rest, h => by
    rw [List.map_cons, List.mem_cons, not_or] at h
    rw [upsertItems, if_neg (fun he => h.1 he.symm), upsertItems_of_not_mem k f h.2]
    rfl

/-- A new key goes to the end. -/
theorem set_items_of_not_mem {d : Dict κ ν} {k : κ} (h : k ∉ d.keys) (v : ν) :
    (d.set k v).items = d.items ++ [(k, v)] :=
  upsertItems_of_not_mem k _ h

theorem upsertItems_filter (k : κ) (f : Option ν → ν) :
    ∀ l : List (κ × ν), (upsertItems k f l).filter (fun e => e.1 ≠ k)
      = l.filter fun e => e.1 ≠ k
  | [] => by simp [upsertItems]
  | e :: rest => by
    by_cases he : e.1 = k
    · simp [upsertItems, he]
    · rw [upsertItems, if_neg he, List.filter_cons_of_pos (by simpa using he),
        List.filter_cons_of_pos (by simpa using he), upsertItems_filter k f rest]

theorem upsert_erase (d : Dict κ ν) (k : κ) (f : Option ν → ν) :
    (d.upsert k f).erase k = d.erase k :=
  ext (upsertItems_filter k f d.items)

theorem get?_upsert_self (d : Dict κ ν) (k : κ) (f : Option ν → ν) :
    (d.upsert k f).get? k = some (f (d.get? k)) := by
  obtain ⟨items, hnd⟩ := d
  show ((upsertItems k f items).find? fun e => e.1 = k).map Prod.snd
    = some (f ((items.find? fun e => e.1 = k).map Prod.snd))
  clear hnd
  induction items with
  | nil => simp [upsertItems]
  | cons e rest ih =>
    by_cases he : e.1 = k
    · simp [upsertItems, he]
    · simpa [upsertItems, he] using ih

theorem get?_upsert_of_ne (d : Dict κ ν) {k k' : κ} (f : Option ν → ν) (h : k' ≠ k) :
    (d.upsert k f).get? k' = d.get? k' := by
  rw [← get?_erase_of_ne (d.upsert k f) h, upsert_erase, get?_erase_of_ne d h]

/-- What is under a key after a write. -/
theorem get?_set_eq_some {d : Dict κ ν} {k k' : κ} {v v' : ν} :
    (d.set k v).get? k' = some v' ↔ (k' = k ∧ v' = v) ∨ (k' ≠ k ∧ d.get? k' = some v') := by
  by_cases h : k' = k
  · subst h
    rw [set, get?_upsert_self]
    simp [eq_comm]
  · rw [set, get?_upsert_of_ne d _ h]
    simp [h]

/-- A write splits the dictionary into the new item and the untouched rest. -/
theorem upsert_perm (d : Dict κ ν) (k : κ) (f : Option ν → ν) :
    (d.upsert k f).items.Perm ((k, f (d.get? k)) :: (d.erase k).items) := by
  have h := perm_of_get? (get?_upsert_self d k f)
  rwa [upsert_erase] at h

theorem mem_items_upsert {d : Dict κ ν} {k : κ} {f : Option ν → ν} {e : κ × ν} :
    e ∈ (d.upsert k f).items ↔ e = (k, f (d.get? k)) ∨ (e ∈ d.items ∧ e.1 ≠ k) := by
  rw [(d.upsert_perm k f).mem_iff, List.mem_cons, mem_items_erase]

theorem mem_keys_upsert {d : Dict κ ν} {k k' : κ} {f : Option ν → ν} :
    k' ∈ (d.upsert k f).keys ↔ k' = k ∨ k' ∈ d.keys := by
  show k' ∈ (upsertItems k f d.items).map Prod.fst ↔ k' = k ∨ k' ∈ d.items.map Prod.fst
  rw [upsertItems_keys]
  split
  · next hk =>
    constructor
    · exact .inr
    · rintro (rfl | h)
      · exact hk
      · exact h
  · rw [List.mem_append, List.mem_singleton]
    exact or_comm

/-- `d.move_to_end(k)`; `none` is the `KeyError` of an absent key. -/
def moveToEnd (d : Dict κ ν) (k : κ) : Option (Dict κ ν) :=
  match h : d.get? k with
  | none => none
  | some v => some
    { items := (d.erase k).items ++ [(k, v)]
      nodup := by
        have hp := (perm_of_get? h).trans (List.perm_append_singleton _ _).symm
        exact (hp.map Prod.fst).nodup_iff.mp d.nodup }

/-- `d.move_to_end(k, last=False)`; `none` is the `KeyError` of an absent key. -/
def moveToFront (d : Dict κ ν) (k : κ) : Option (Dict κ ν) :=
  match h : d.get? k with
  | none => none
  | some v => some
    { items := (k, v) :: (d.erase k).items
      nodup := ((perm_of_get? h).map Prod.fst).nodup_iff.mp d.nodup }

theorem moveToEnd_perm {d e : Dict κ ν} {k : κ} (h : d.moveToEnd k = some e) :
    e.items.Perm d.items := by
  unfold moveToEnd at h
  split at h
  · cases h
  · next v hv =>
    cases h
    exact (List.perm_append_singleton _ _).trans (perm_of_get? hv).symm

theorem moveToFront_perm {d e : Dict κ ν} {k : κ} (h : d.moveToFront k = some e) :
    e.items.Perm d.items := by
  unfold moveToFront at h
  split at h
  · cases h
  · next v hv =>
    cases h
    exact (perm_of_get? hv).symm

/-- `d == e`: the same items, in whatever order. -/
def same [DecidableEq ν] (d e : Dict κ ν) : Bool :=
  d.items.all (· ∈ e.items) && e.items.all (· ∈ d.items)

theorem same_iff [DecidableEq ν] {d e : Dict κ ν} :
    d.same e = true ↔ ∀ x, x ∈ d.items ↔ x ∈ e.items := by
  simp only [same, Bool.and_eq_true, List.all_eq_true, decide_eq_true_eq]
  constructor
  · rintro ⟨hde, hed⟩ x
    exact ⟨hde x, hed x⟩
  · intro h
    exact ⟨fun x => (h x).mp, fun x => (h x).mpr⟩

/-- The items whose keys are among `ks`. -/
def restrict (d : Dict κ ν) (ks : List κ) : Dict κ ν where
  items := d.items.filter fun e => e.1 ∈ ks
  nodup := d.nodup.sublist (List.filter_sublist.map _)

theorem mem_items_restrict {d : Dict κ ν} {ks : List κ} {e : κ × ν} :
    e ∈ (d.restrict ks).items ↔ e ∈ d.items ∧ e.1 ∈ ks := by
  simp [restrict]

/-- Against a dictionary with no key outside `ks`, an item outside `ks` is a difference. -/
theorem same_iff_restrict [DecidableEq ν] {d e : Dict κ ν} {ks : List κ}
    (he : ∀ k ∈ e.keys, k ∈ ks) :
    d.same e = true ↔ (d.restrict ks).same e = true ∧ ∀ k ∈ d.keys, k ∈ ks := by
  simp only [same_iff, mem_items_restrict]
  constructor
  · intro h
    have hkeys : ∀ k ∈ d.keys, k ∈ ks := by
      intro k hk
      obtain ⟨v, hv⟩ := mem_keys.mp hk
      exact he k (mem_keys.mpr ⟨v, (h _).mp hv⟩)
    refine ⟨fun x => ⟨fun hx => (h x).mp hx.1, fun hx => ?_⟩, hkeys⟩
    exact ⟨(h x).mpr hx, he _ (mem_keys.mpr ⟨x.2, hx⟩)⟩
  · rintro ⟨h, hkeys⟩ x
    refine ⟨fun hx => ?_, fun hx => ((h x).mpr hx).1⟩
    exact (h x).mp ⟨hx, hkeys _ (mem_keys.mpr ⟨x.2, hx⟩)⟩

end Dict

end Dicts
