import KuryrKubernetes.Lib.Dict

/-!
# Two-level buckets

Lists of items filed under a key and, within a key, under a label:
`Dict κ (Dict ℓ (List α))`, the shape of a `defaultdict` of ordered dictionaries
of lists. `entries` flattens the buckets to `(key, label, item)` triples.

Every operation is described by what it does to the entries *up to order*
(`entries_push`, `rows_popLast`, `entries_set`, …), so invariants about which items
are filed, how often and where never look at the dictionaries.
-/

namespace Dicts

universe u v w

variable {κ : Type u} {ℓ : Type v} {α : Type w}

/-- The buckets. -/
abbrev Buckets (κ : Type u) (ℓ : Type v) (α : Type w) := Dict κ (Dict ℓ (List α))

/-- The labelled items of one key. -/
def rows (d : Dict ℓ (List α)) : List (ℓ × α) :=
  d.items.flatMap fun e => e.2.map (e.1, ·)

/-- All items with their key and label. -/
def entries (b : Buckets κ ℓ α) : List (κ × ℓ × α) :=
  b.items.flatMap fun e => (rows e.2).map (e.1, ·)

theorem rows_perm {d e : Dict ℓ (List α)} (h : d.items.Perm e.items) : (rows d).Perm (rows e) :=
  h.flatMap_right _

section

variable [DecidableEq ℓ]

theorem rows_of_get? {d : Dict ℓ (List α)} {l : ℓ} {as : List α} (h : d.get? l = some as) :
    (rows d).Perm (as.map (l, ·) ++ rows (d.erase l)) := by
  have hp := (Dict.perm_of_get? h).flatMap_right fun e => e.2.map (e.1, ·)
  rwa [List.flatMap_cons] at hp

theorem rows_upsert (d : Dict ℓ (List α)) (l : ℓ) (f : Option (List α) → List α) :
    (rows (d.upsert l f)).Perm ((f (d.get? l)).map (l, ·) ++ rows (d.erase l)) := by
  have hp := (d.upsert_perm l f).flatMap_right fun e => e.2.map (e.1, ·)
  rwa [List.flatMap_cons] at hp

theorem rows_split (d : Dict ℓ (List α)) (l : ℓ) :
    (rows d).Perm (((d.get? l).getD []).map (l, ·) ++ rows (d.erase l)) := by
  cases h : d.get? l with
  | none =>
    rw [Dict.erase_of_get?_none h]
    exact List.Perm.refl _
  | some as => exact rows_of_get? h

/-- `d.setdefault(l, []).append(a)`. -/
def append (d : Dict ℓ (List α)) (l : ℓ) (a : α) : Dict ℓ (List α) :=
  d.upsert l fun as => as.getD [] ++ [a]

theorem rows_append (d : Dict ℓ (List α)) (l : ℓ) (a : α) :
    (rows (append d l a)).Perm ((l, a) :: rows d) := by
  refine (rows_upsert d l _).trans ?_
  rw [List.map_append, List.append_assoc]
  refine List.Perm.trans ?_ ((rows_split d l).symm.cons (l, a))
  exact List.perm_middle

/-- `d[l].pop()`: the last item under a label, `none` for a missing or empty list. -/
def popLast (d : Dict ℓ (List α)) (l : ℓ) : Option (α × Dict ℓ (List α)) :=
  match d.get? l with
  | none => none
  | some as => as.getLast?.map fun a => (a, d.set l as.dropLast)

theorem rows_popLast {d d' : Dict ℓ (List α)} {l : ℓ} {a : α} (h : popLast d l = some (a, d')) :
    (rows d).Perm ((l, a) :: rows d') := by
  unfold popLast at h
  cases hg : d.get? l with
  | none =>
    rw [hg] at h
    cases h
  | some as =>
    rw [hg] at h
    simp only [Option.map_eq_some_iff, Prod.mk.injEq] at h
    obtain ⟨b, hb, rfl, rfl⟩ := h
    have has : as = as.dropLast ++ [b] := (List.dropLast_append_getLast? b hb).symm
    refine (rows_of_get? hg).trans ?_
    refine List.Perm.trans ?_ ((rows_upsert d l fun _ => as.dropLast).symm.cons (l, b))
    conv => lhs; rw [has]
    rw [List.map_append, List.append_assoc]
    exact List.perm_middle

/-- The first non-empty label, in order, and its last item. -/
def popAny (d : Dict ℓ (List α)) : Option (ℓ × α × Dict ℓ (List α)) :=
  d.keys.findSome? fun l => (popLast d l).map (l, ·)

theorem rows_popAny {d d' : Dict ℓ (List α)} {l : ℓ} {a : α} (h : popAny d = some (l, a, d')) :
    (rows d).Perm ((l, a) :: rows d') := by
  obtain ⟨l', -, h⟩ := List.exists_of_findSome?_eq_some h
  simp only [Option.map_eq_some_iff, Prod.mk.injEq] at h
  obtain ⟨x, hx, rfl, rfl⟩ := h
  exact rows_popLast hx

theorem mem_rows {d : Dict ℓ (List α)} {l : ℓ} {a : α} :
    (l, a) ∈ rows d ↔ ∃ as, d.get? l = some as ∧ a ∈ as := by
  simp only [rows, List.mem_flatMap, List.mem_map, Prod.mk.injEq, Dict.get?_eq_some]
  constructor
  · rintro ⟨⟨l', as⟩, he, b, hb, rfl, rfl⟩
    exact ⟨as, he, hb⟩
  · rintro ⟨as, he, ha⟩
    exact ⟨(l, as), he, a, ha, rfl, rfl⟩

end

section

variable [DecidableEq κ]

theorem entries_of_get? {b : Buckets κ ℓ α} {k : κ} {d : Dict ℓ (List α)} (h : b.get? k = some d) :
    (entries b).Perm ((rows d).map (k, ·) ++ entries (b.erase k)) := by
  have hp := (Dict.perm_of_get? h).flatMap_right fun e => (rows e.2).map (e.1, ·)
  rwa [List.flatMap_cons] at hp

/-- The row of a key, empty when missing. -/
def row (b : Buckets κ ℓ α) (k : κ) : Dict ℓ (List α) := (b.get? k).getD Dict.empty

theorem row_of_mem {b : Buckets κ ℓ α} {e : κ × Dict ℓ (List α)} (he : e ∈ b.items) :
    row b e.1 = e.2 := by
  rw [row, Dict.get?_eq_some.mpr he]
  rfl

theorem row_of_notMem {b : Buckets κ ℓ α} {k : κ} (hk : k ∉ b.keys) : row b k = Dict.empty := by
  rw [row, Dict.get?_eq_none.mpr hk]
  rfl

theorem entries_split (b : Buckets κ ℓ α) (k : κ) :
    (entries b).Perm ((rows (row b k)).map (k, ·) ++ entries (b.erase k)) := by
  unfold row
  cases h : b.get? k with
  | none =>
    rw [Dict.erase_of_get?_none h]
    exact List.Perm.refl _
  | some d => exact entries_of_get? h

theorem mem_entries {b : Buckets κ ℓ α} {k : κ} {e : ℓ × α} :
    (k, e) ∈ entries b ↔ e ∈ rows (row b k) := by
  rw [(entries_split b k).mem_iff, List.mem_append]
  constructor
  · rintro (h | h)
    · obtain ⟨e', he, heq⟩ := List.mem_map.mp h
      cases heq
      exact he
    · obtain ⟨⟨k', d⟩, hd, h⟩ := List.mem_flatMap.mp h
      obtain ⟨e', -, heq⟩ := List.mem_map.mp h
      cases heq
      exact absurd rfl (Dict.mem_items_erase.mp hd).2
  · intro h
    exact .inl (List.mem_map.mpr ⟨e, h, rfl⟩)

/-- The number of items of a key. -/
theorem length_rows_row (b : Buckets κ ℓ α) (k : κ) :
    (rows (row b k)).length = (entries b).countP (·.1 = k) := by
  have hother : (entries (b.erase k)).countP (·.1 = k) = 0 := by
    rw [List.countP_eq_zero]
    intro e he
    obtain ⟨⟨k', d⟩, hd, he⟩ := List.mem_flatMap.mp he
    obtain ⟨e', -, rfl⟩ := List.mem_map.mp he
    simpa using (Dict.mem_items_erase.mp hd).2
  have hall : ((rows (row b k)).map (k, ·)).countP (·.1 = k) = (rows (row b k)).length := by
    rw [List.countP_map]
    simp
  rw [(entries_split b k).countP_eq, List.countP_append, hall, hother, Nat.add_zero]

/-- `b[k] = d`. -/
theorem entries_set (b : Buckets κ ℓ α) (k : κ) (d : Dict ℓ (List α)) :
    (entries (b.set k d)).Perm ((rows d).map (k, ·) ++ entries (b.erase k)) := by
  have hp := (b.upsert_perm k fun _ => d).flatMap_right fun e => (rows e.2).map (e.1, ·)
  rwa [List.flatMap_cons] at hp

/-- A row that gains the items `xs`. -/
theorem entries_set_gain {b : Buckets κ ℓ α} {k : κ} {d : Dict ℓ (List α)} {xs : List (ℓ × α)}
    (h : (rows d).Perm (xs ++ rows (row b k))) :
    (entries (b.set k d)).Perm (xs.map (k, ·) ++ entries b) := by
  refine (entries_set b k d).trans ?_
  refine ((h.map (k, ·)).append_right _).trans ?_
  rw [List.map_append, List.append_assoc]
  exact (entries_split b k).symm.append_left _

/-- A row that loses the items `xs`. -/
theorem entries_set_lose {b : Buckets κ ℓ α} {k : κ} {d : Dict ℓ (List α)} {xs : List (ℓ × α)}
    (h : (rows (row b k)).Perm (xs ++ rows d)) :
    (entries b).Perm (xs.map (k, ·) ++ entries (b.set k d)) := by
  refine (entries_split b k).trans ?_
  refine ((h.map (k, ·)).append_right _).trans ?_
  rw [List.map_append, List.append_assoc]
  exact (entries_set b k d).symm.append_left _

/-- `b[k].setdefault(l, []).append(a)`. -/
def push [DecidableEq ℓ] (b : Buckets κ ℓ α) (k : κ) (l : ℓ) (a : α) : Buckets κ ℓ α :=
  b.set k (append (row b k) l a)

theorem entries_push [DecidableEq ℓ] (b : Buckets κ ℓ α) (k : κ) (l : ℓ) (a : α) :
    (entries (push b k l a)).Perm ((k, l, a) :: entries b) := by
  have h : (rows (append (row b k) l a)).Perm ([(l, a)] ++ rows (row b k)) :=
    rows_append (row b k) l a
  exact entries_set_gain h

end

end Dicts
