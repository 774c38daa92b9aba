import Mathlib.Data.List.TakeWhile

/-!
# The text of a JSON value

`json.loads` of the standard library, scanner by scanner. A scanner takes a text and
returns what it read with the rest of the text; `none` is the `ValueError`.

- `number`: the longest number at the front, `-?(0|[1-9]\d*)(\.\d+)?([eE][-+]?\d+)?`.
- `value`, `items`, `fields`: what is left is part of their type, since it is what the
  recursion descends on.
- `loads_plain`: a text of letters, digits and a few marks, as the names of things are,
  loads only when it is a word such as `null` or a number from end to end.
-/

namespace JsonText

abbrev Text := List Char

/-- A JSON value. A number is its text, and a string its code points, since an escape may
name half of a surrogate pair. -/
inductive Value where
  | null
  | bool (b : Bool)
  | num (text : Text)
  | str (codes : List Nat)
  | arr (items : List Value)
  | obj (fields : List (List Nat × Value))

/-- The code points of a text. -/
def codes (t : Text) : List Nat := t.map Char.toNat

/-! ## White space and words -/

def isWs (c : Char) : Bool := c = ' ' || c = '\t' || c = '\n' || c = '\r'

/-- The rest behind the white space at the front. -/
def skip (t : Text) : Text := t.dropWhile isWs

theorem skip_length (t : Text) : (skip t).length ≤ t.length :=
  (List.dropWhile_suffix _).length_le

theorem skip_cons {c : Char} (h : isWs c = false) (t : Text) : skip (c :: t) = c :: t := by
  rw [skip, List.dropWhile_cons_of_neg (by simp [h])]

/-- The rest behind a word. -/
def literal (word t : Text) : Option Text :=
  if word.isPrefixOf t then some (t.drop word.length) else none

theorem literal_eq {word t r : Text} (h : literal word t = some r) : t = word ++ r := by
  unfold literal at h
  split at h
  · rename_i hp
    obtain ⟨r', rfl⟩ := List.isPrefixOf_iff_prefix.mp hp
    rw [List.drop_left] at h
    cases h
    rfl
  · cases h

/-! ## Numbers -/

def isDigit (c : Char) : Bool := '0' ≤ c && c ≤ '9'

/-- The digits at the front, and the rest. -/
def digits (t : Text) : Text × Text := (t.takeWhile isDigit, t.dropWhile isDigit)

theorem digits_eq (t : Text) : (digits t).1 ++ (digits t).2 = t := List.takeWhile_append_dropWhile

/-- `0|[1-9]\d*`. -/
def whole : Text → Option (Text × Text)
  | [] => none
  | c :: t =>
    if c = '0' then some ([c], t)
    else if isDigit c then some (c :: (digits t).1, (digits t).2)
    else none

/-- `(\.\d+)?`. -/
def fraction : Text → Text × Text
  | [] => ([], [])
  | c :: t =>
    if c = '.' ∧ (digits t).1 ≠ [] then (c :: (digits t).1, (digits t).2) else ([], c :: t)

/-- `[-+]?`. -/
def sign : Text → Text × Text
  | [] => ([], [])
  | c :: t => if c = '-' ∨ c = '+' then ([c], t) else ([], c :: t)

/-- `([eE][-+]?\d+)?`. -/
def exponent : Text → Text × Text
  | [] => ([], [])
  | c :: t =>
    if (c = 'e' ∨ c = 'E') ∧ (digits (sign t).2).1 ≠ [] then
      (c :: ((sign t).1 ++ (digits (sign t).2).1), (digits (sign t).2).2)
    else ([], c :: t)

/-- `-?`. -/
def minus : Text → Text × Text
  | [] => ([], [])
  | c :: t => if c = '-' then ([c], t) else ([], c :: t)

/-- The number at the front, and the rest. -/
def number (t : Text) : Option (Text × Text) :=
  let (m, t) := minus t
  (whole t).map fun (w, t) =>
    let (f, t) := fraction t
    let (e, t) := exponent t
    (m ++ w ++ f ++ e, t)

/-- A character of a number. -/
def isNumeric (c : Char) : Bool :=
  isDigit c || c = '.' || c = 'e' || c = 'E' || c = '-' || c = '+'

/-- A scanner that takes numeric characters off the front of `t`. -/
def Splits (t : Text) (r : Text × Text) : Prop := r.1 ++ r.2 = t ∧ ∀ c ∈ r.1, isNumeric c = true

theorem Splits.nothing (t : Text) : Splits t ([], t) := ⟨rfl, by simp⟩

theorem Splits.cons {c : Char} {t : Text} {r : Text × Text} (hc : isNumeric c = true)
    (h : Splits t r) : Splits (c :: t) (c :: r.1, r.2) := by
  refine ⟨by rw [List.cons_append, h.1], fun x hx => ?_⟩
  rcases List.mem_cons.mp hx with rfl | hx
  · exact hc
  · exact h.2 x hx

theorem Splits.append {t : Text} {r s : Text × Text} (h : Splits t r) (h' : Splits r.2 s) :
    Splits t (r.1 ++ s.1, s.2) := by
  refine ⟨by rw [List.append_assoc, h'.1, h.1], fun x hx => ?_⟩
  rcases List.mem_append.mp hx with hx | hx
  · exact h.2 x hx
  · exact h'.2 x hx

theorem isNumeric_of_digit {c : Char} (h : isDigit c = true) : isNumeric c = true := by
  simp [isNumeric, h]

theorem digits_splits (t : Text) : Splits t (digits t) :=
  ⟨digits_eq t, fun _ hc => isNumeric_of_digit (List.mem_takeWhile_imp hc)⟩

theorem whole_splits {t : Text} {r : Text × Text} (h : whole t = some r) :
    Splits t r ∧ r.1 ≠ [] := by
  cases t with
  | nil => cases h
  | cons c t =>
    rw [whole] at h
    split at h
    · next hc =>
      cases h
      exact ⟨(Splits.nothing t).cons (by rw [hc]; rfl), List.cons_ne_nil _ _⟩
    · split at h
      · next hc =>
        cases h
        exact ⟨(digits_splits t).cons (isNumeric_of_digit hc), List.cons_ne_nil _ _⟩
      · cases h

theorem fraction_splits (t : Text) : Splits t (fraction t) := by
  cases t with
  | nil => exact Splits.nothing []
  | cons c t =>
    rw [fraction]
    split
    · next hc => exact (digits_splits t).cons (by rw [hc.1]; rfl)
    · exact Splits.nothing _

theorem sign_splits (t : Text) : Splits t (sign t) := by
  cases t with
  | nil => exact Splits.nothing []
  | cons c t =>
    rw [sign]
    split
    · next hc => exact (Splits.nothing t).cons (by rcases hc with rfl | rfl <;> rfl)
    · exact Splits.nothing _

theorem exponent_splits (t : Text) : Splits t (exponent t) := by
  cases t with
  | nil => exact Splits.nothing []
  | cons c t =>
    rw [exponent]
    split
    · next hc =>
      exact ((sign_splits t).append (digits_splits _)).cons (by rcases hc.1 with rfl | rfl <;> rfl)
    · exact Splits.nothing _

theorem minus_splits (t : Text) : Splits t (minus t) := by
  cases t with
  | nil => exact Splits.nothing []
  | cons c t =>
    rw [minus]
    split
    · next hc => exact (Splits.nothing t).cons (by rw [hc]; rfl)
    · exact Splits.nothing _

/-- **A number is numeric characters off the front of a text, at least one.** -/
theorem number_splits {t : Text} {r : Text × Text} (h : number t = some r) :
    Splits t r ∧ r.1 ≠ [] := by
  rw [number, Option.map_eq_some_iff] at h
  obtain ⟨⟨w, u⟩, hw, rfl⟩ := h
  obtain ⟨hsplit, hne⟩ := whole_splits hw
  refine ⟨((((minus_splits t).append hsplit).append (fraction_splits u)).append
    (exponent_splits _)), ?_⟩
  simp [hne]

theorem Splits.length {t : Text} {r : Text × Text} (h : Splits t r) (hne : r.1 ≠ []) :
    r.2.length < t.length := by
  have := List.length_pos_iff.mpr hne
  rw [← h.1, List.length_append]
  omega

/-! ## Strings -/

def hexDigit (c : Char) : Option Nat :=
  if '0' ≤ c ∧ c ≤ '9' then some (c.toNat - 48)
  else if 'a' ≤ c ∧ c ≤ 'f' then some (c.toNat - 87)
  else if 'A' ≤ c ∧ c ≤ 'F' then some (c.toNat - 55)
  else none

/-- The four digits of a `\u` escape. -/
def hex4 (a b c d : Char) : Option Nat := do
  let a ← hexDigit a
  let b ← hexDigit b
  let c ← hexDigit c
  let d ← hexDigit d
  return ((a * 16 + b) * 16 + c) * 16 + d

/-- What stands behind a backslash, `u` apart. -/
def escape (c : Char) : Option Nat :=
  if c = '"' ∨ c = '\\' ∨ c = '/' then some c.toNat
  else if c = 'b' then some 8
  else if c = 'f' then some 12
  else if c = 'n' then some 10
  else if c = 'r' then some 13
  else if c = 't' then some 9
  else none

/-- A string up to its closing quote, each escape one unit, and the rest. -/
def units : Text → Option (List Nat × Text)
  | [] => none
  | '"' :: t => some ([], t)
  | '\\' :: 'u' :: a :: b :: c :: d :: t =>
    (hex4 a b c d).bind fun n => (units t).map fun (us, r) => (n :: us, r)
  | '\\' :: e :: t => (escape e).bind fun n => (units t).map fun (us, r) => (n :: us, r)
  | c :: t => if c.toNat < 32 then none else (units t).map fun (us, r) => (c.toNat :: us, r)

/-- Two units that are the halves of a surrogate pair are one code point. Only escapes
give such units. -/
def joinPairs : List Nat → List Nat
  | h :: l :: us =>
    if 0xD800 ≤ h ∧ h ≤ 0xDBFF ∧ 0xDC00 ≤ l ∧ l ≤ 0xDFFF then
      (0x10000 + (h - 0xD800) * 0x400 + (l - 0xDC00)) :: joinPairs us
    else h :: joinPairs (l :: us)
  | us => us

theorem units_length {t : Text} {us : List Nat} {r : Text} (h : units t = some (us, r)) :
    r.length < t.length := by
  fun_induction units t generalizing us with
  | case1 => cases h
  | case2 t =>
    cases h
    exact Nat.lt_succ_self _
  | case3 a b c d t ih =>
    obtain ⟨n, -, h⟩ := Option.bind_eq_some_iff.mp h
    obtain ⟨⟨us', r'⟩, h, heq⟩ := Option.map_eq_some_iff.mp h
    cases heq
    have := ih h
    simp only [List.length_cons]
    omega
  | case4 e t _ ih =>
    obtain ⟨n, -, h⟩ := Option.bind_eq_some_iff.mp h
    obtain ⟨⟨us', r'⟩, h, heq⟩ := Option.map_eq_some_iff.mp h
    cases heq
    have := ih h
    simp only [List.length_cons]
    omega
  | case5 c t => cases h
  | case6 c t _ _ _ _ ih =>
    obtain ⟨⟨us', r'⟩, h, heq⟩ := Option.map_eq_some_iff.mp h
    cases heq
    have := ih h
    simp only [List.length_cons]
    omega

/-! ## Values -/

/-- What is left of a text when something was read. -/
abbrev Rest (t : Text) := { r : Text // r.length < t.length }

/-- A string behind its opening quote. -/
def string (t : Text) : Option (List Nat × Rest t) :=
  match h : units t with
  | some (us, r) => some (joinPairs us, ⟨r, units_length h⟩)
  | none => none

/-- The words, with their values. -/
def words : List (Text × Value) :=
  [("null".toList, .null), ("true".toList, .bool true), ("false".toList, .bool false),
    ("NaN".toList, .num "NaN".toList), ("Infinity".toList, .num "Infinity".toList),
    ("-Infinity".toList, .num "-Infinity".toList)]

/-- A word or a number. The words start like no number. -/
def scalar (t : Text) : Option (Value × Text) :=
  match words.find? fun w => (literal w.1 t).isSome with
  | some (word, v) => some (v, t.drop word.length)
  | none => (number t).map fun (n, r) => (.num n, r)

theorem scalar_suffix {t r : Text} {v : Value} (h : scalar t = some (v, r)) :
    r <:+ t ∧ r.length < t.length := by
  unfold scalar at h
  split at h
  · next word v' hfind =>
    cases h
    -- a word, none of which is empty
    obtain ⟨u, hu⟩ : ∃ u, literal word t = some u :=
      Option.isSome_iff_exists.mp (by simpa using List.find?_some hfind)
    have hne : 0 < word.length := by
      have := List.mem_of_find?_eq_some hfind
      revert this
      simp only [words, List.mem_cons, Prod.mk.injEq, List.not_mem_nil, or_false]
      rintro (⟨rfl, -⟩ | ⟨rfl, -⟩ | ⟨rfl, -⟩ | ⟨rfl, -⟩ | ⟨rfl, -⟩ | ⟨rfl, -⟩) <;> decide
    refine ⟨List.drop_suffix _ _, ?_⟩
    rw [literal_eq hu, List.drop_left, List.length_append]
    omega
  · obtain ⟨⟨n, r'⟩, hn, heq⟩ := Option.map_eq_some_iff.mp h
    cases heq
    obtain ⟨hsplit, hne⟩ := number_splits hn
    exact ⟨⟨n, hsplit.1⟩, hsplit.length hne⟩

mutual

/-- One value at the front. -/
def value (t : Text) : Option (Value × Rest t) :=
  match t with
  | '"' :: t =>
    match string t with
    | some (s, r) => some (.str s, ⟨r.1, Nat.lt_succ_of_lt r.2⟩)
    | none => none
  | '[' :: t =>
    match h : skip t with
    | ']' :: r => some (.arr [], ⟨r, by grind [skip_length]⟩)
    | u =>
      match items u with
      | some (vs, r) => some (.arr vs, ⟨r.1, by grind [skip_length]⟩)
      | none => none
  | '{' :: t =>
    match h : skip t with
    | '}' :: r => some (.obj [], ⟨r, by grind [skip_length]⟩)
    | u =>
      match fields u with
      | some (fs, r) => some (.obj fs, ⟨r.1, by grind [skip_length]⟩)
      | none => none
  | t =>
    match h : scalar t with
    | some (v, r) => some (v, ⟨r, (scalar_suffix h).2⟩)
    | none => none
termination_by (t.length, 0)
decreasing_by
  all_goals
    have := skip_length t
    simp only [Prod.lex_def, List.length_cons]
    grind

/-- The values of an array, at least one, behind its bracket. -/
def items (t : Text) : Option (List Value × Rest t) :=
  match value t with
  | none => none
  | some (v, r) =>
    match h : skip r.1 with
    | ']' :: u => some ([v], ⟨u, by grind [skip_length]⟩)
    | ',' :: u =>
      match items (skip u) with
      | some (vs, q) => some (v :: vs, ⟨q.1, by grind [skip_length]⟩)
      | none => none
    | _ => none
termination_by (t.length, 1)
decreasing_by
  all_goals
    simp only [Prod.lex_def]
    grind [skip_length]

/-- The keys and values of an object, at least one, behind its brace. -/
def fields (t : Text) : Option (List (List Nat × Value) × Rest t) :=
  match t with
  | '"' :: t =>
    match string t with
    | none => none
    | some (k, r) =>
      match h : skip r.1 with
      | ':' :: u =>
        match value (skip u) with
        | none => none
        | some (v, q) =>
          match h' : skip q.1 with
          | '}' :: w => some ([(k, v)], ⟨w, by grind [skip_length]⟩)
          | ',' :: w =>
            match fields (skip w) with
            | some (fs, x) => some ((k, v) :: fs, ⟨x.1, by grind [skip_length]⟩)
            | none => none
          | _ => none
      | _ => none
  | _ => none
termination_by (t.length, 1)
decreasing_by
  all_goals
    simp only [Prod.lex_def]
    grind [skip_length]

end

/-- The value at the front, and the rest. -/
def scan (t : Text) : Option (Value × Text) := (value t).map fun r => (r.1, r.2.1)

/-- `json.loads`. -/
def loads (t : Text) : Option Value :=
  (scan (skip t)).bind fun (v, r) => if skip r = [] then some v else none

/-! ## Plain texts -/

/-- A character that neither separates values nor opens one. -/
def isPlain (c : Char) : Bool := !isWs c && c != '"' && c != '[' && c != '{'

/-- A text that is a word or a number from end to end. -/
def isScalar (t : Text) : Bool := words.any (·.1 = t) || number t = some (t, [])

theorem scan_plain {t : Text} (h : ∀ c ∈ t, isPlain c = true) : scan t = scalar t := by
  unfold scan value
  split
  · have := h '"' List.mem_cons_self
    contradiction
  · have := h '[' List.mem_cons_self
    contradiction
  · have := h '{' List.mem_cons_self
    contradiction
  · split
    · next hs => exact hs.symm
    · next hs => exact hs.symm

theorem skip_plain {t : Text} (h : ∀ c ∈ t, isPlain c = true) : skip t = t := by
  cases t with
  | nil => rfl
  | cons c t =>
    have hc := h c List.mem_cons_self
    simp only [isPlain, Bool.and_eq_true, Bool.not_eq_true'] at hc
    exact skip_cons hc.1.1.1 t

/-- **A plain text loads when a scalar takes all of it.** -/
theorem loads_plain {t : Text} (h : ∀ c ∈ t, isPlain c = true) :
    loads t = (scalar t).bind fun (v, r) => if r = [] then some v else none := by
  rw [loads, skip_plain h, scan_plain h]
  cases hs : scalar t with
  | none => rfl
  | some x =>
    have hr : skip x.2 = x.2 := skip_plain fun c hc => h c ((scalar_suffix hs).1.subset hc)
    simp only [Option.bind_some, hr]

/-- Every word has a letter that no number has. -/
theorem words_not_numeric {w : Text × Value} (hw : w ∈ words) : ∃ c ∈ w.1, isNumeric c = false := by
  simp only [words, List.mem_cons, List.not_mem_nil, or_false] at hw
  rcases hw with rfl | rfl | rfl | rfl | rfl | rfl
  · exact ⟨'n', by decide, by decide⟩
  · exact ⟨'t', by decide, by decide⟩
  · exact ⟨'f', by decide, by decide⟩
  · exact ⟨'N', by decide, by decide⟩
  · exact ⟨'I', by decide, by decide⟩
  · exact ⟨'I', by decide, by decide⟩

theorem find?_number {t : Text} (h : ∀ c ∈ t, isNumeric c = true) :
    (words.find? fun w => (literal w.1 t).isSome) = none := by
  -- a word at the front would put its letter into the text
  refine List.find?_eq_none.mpr fun w hw hlit => ?_
  obtain ⟨r, hr⟩ := Option.isSome_iff_exists.mp hlit
  obtain ⟨c, hc, hnot⟩ := words_not_numeric hw
  rw [h c (by rw [literal_eq hr]; exact List.mem_append_left _ hc)] at hnot
  cases hnot

theorem scalar_word {w : Text × Value} (hw : w ∈ words) : scalar w.1 = some (w.2, []) := by
  simp only [words, List.mem_cons, List.not_mem_nil, or_false] at hw
  rcases hw with rfl | rfl | rfl | rfl | rfl | rfl <;> rfl

/-- **A scalar takes all of a text exactly when the text is a word or a number.** -/
theorem scalar_all {t : Text} : (∃ v, scalar t = some (v, [])) ↔ isScalar t = true := by
  rw [isScalar, Bool.or_eq_true, decide_eq_true_iff]
  constructor
  · rintro ⟨v, h⟩
    unfold scalar at h
    split at h
    · next word v' hfind =>
      left
      obtain ⟨r, hr⟩ : ∃ r, literal word t = some r :=
        Option.isSome_iff_exists.mp (by simpa using List.find?_some hfind)
      have hr := literal_eq hr
      -- nothing is left, so the word is the whole text
      have hnil : t.drop word.length = [] := congrArg Prod.snd (Option.some.inj h)
      rw [hr, List.drop_left] at hnil
      rw [hnil, List.append_nil] at hr
      exact List.any_eq_true.mpr ⟨_, List.mem_of_find?_eq_some hfind, by simp [hr]⟩
    · right
      obtain ⟨⟨n, r⟩, hn, heq⟩ := Option.map_eq_some_iff.mp h
      cases heq
      -- nothing is left, so the number is the whole text
      have hall := (number_splits hn).1.1
      rw [List.append_nil] at hall
      rw [hn, ← hall]
  · rintro (h | h)
    · obtain ⟨w, hw, heq⟩ := List.any_eq_true.mp h
      rw [← of_decide_eq_true heq]
      exact ⟨w.2, scalar_word hw⟩
    · have hnum := (number_splits h).1.2
      exact ⟨.num t, by rw [scalar, find?_number hnum, h]; rfl⟩

theorem scalar_ne_arr {t r : Text} {v : Value} (h : scalar t = some (v, r)) (vs : List Value) :
    v ≠ .arr vs := by
  rintro rfl
  unfold scalar at h
  split at h
  · next word v' hfind =>
    have hw := List.mem_of_find?_eq_some hfind
    rw [(Prod.mk.inj (Option.some.inj h)).1] at hw
    simp [words] at hw
  · obtain ⟨_, -, heq⟩ := Option.map_eq_some_iff.mp h
    cases heq

/-- What a scalar takes all of is letters and numeric characters. -/
theorem mem_of_isScalar {t : Text} (h : isScalar t = true) {c : Char} (hc : c ∈ t) :
    isNumeric c = true ∨ c.isAlpha = true := by
  rw [isScalar, Bool.or_eq_true, decide_eq_true_iff] at h
  rcases h with h | h
  · obtain ⟨w, hw, heq⟩ := List.any_eq_true.mp h
    have hwords : (words.all fun w => w.1.all fun c => isNumeric c || c.isAlpha) = true := rfl
    rw [← of_decide_eq_true heq] at hc
    have hchar := List.all_eq_true.mp (List.all_eq_true.mp hwords w hw) c hc
    rwa [Bool.or_eq_true] at hchar
  · exact .inl ((number_splits h).1.2 c hc)

end JsonText
