import Mathlib.Data.List.Basic

/-!
# Words and numbers of a text

`str.split()` without arguments: the maximal runs of characters that are not white
space. `int()` of a text: a sign, digits of any script, and white space around them.
-/

namespace Texts

/-- A number is known by its digits. -/
theorem toDigits_injective {i j : Nat} (h : Nat.toDigits 10 i = Nat.toDigits 10 j) : i = j := by
  rw [← Nat.ofDigitChars_ten_toDigits (n := i), h, Nat.ofDigitChars_ten_toDigits]

/-- White space, as `str.isspace` has it. -/
def isSpace (ch : Char) : Bool :=
  let n := ch.toNat
  (9 ≤ n && n ≤ 13) || (28 ≤ n && n ≤ 32) || n = 0x85 || n = 0xA0 || n = 0x1680 ||
    (0x2000 ≤ n && n ≤ 0x200A) || n = 0x2028 || n = 0x2029 || n = 0x202F || n = 0x205F ||
    n = 0x3000

/-- The words of a text whose first word starts with `cur`. -/
def wordsFrom (cur : List Char) : List Char → List (List Char)
  | [] => if cur = [] then [] else [cur]
  | ch :: rest =>
    if isSpace ch then (if cur = [] then [] else [cur]) ++ wordsFrom [] rest
    else wordsFrom (cur ++ [ch]) rest

/-- `text.split()`. -/
def words (text : List Char) : List (List Char) := wordsFrom [] text

theorem wordsFrom_space {s : Char} (hs : isSpace s = true) (cur rest : List Char) :
    ∃ l, wordsFrom cur (s :: rest) = l ++ words rest :=
  ⟨if cur = [] then [] else [cur], by rw [wordsFrom, if_pos hs]; rfl⟩

theorem wordsFrom_char {ch : Char} (hch : ¬ isSpace ch = true) (cur rest : List Char) :
    wordsFrom cur (ch :: rest) = wordsFrom (cur ++ [ch]) rest := by
  rw [wordsFrom, if_neg hch]

/-- A text without white space is one word. -/
theorem wordsFrom_word : ∀ {w cur : List Char}, (∀ ch ∈ w, ¬ isSpace ch = true) → cur ++ w ≠ [] →
    wordsFrom cur w = [cur ++ w]
  | [], cur, _, hne => by
    rw [wordsFrom, if_neg (by simpa using hne), List.append_nil]
  | ch :: w, cur, hw, _ => by
    have hrest : ∀ x ∈ w, ¬ isSpace x = true := fun x hx => hw x (List.mem_cons_of_mem _ hx)
    rw [wordsFrom_char (hw ch List.mem_cons_self), wordsFrom_word hrest (by simp)]
    simp

/-- The last word of a text that ends with a word. -/
theorem getLast?_words {s : Char} (hs : isSpace s = true) {w : List Char} (hne : w ≠ [])
    (hw : ∀ ch ∈ w, ¬ isSpace ch = true) (front : List Char) :
    (words (front ++ s :: w)).getLast? = some w := by
  have key : ∀ front cur : List Char, ∃ l, wordsFrom cur (front ++ s :: w) = l ++ [w] := by
    intro front
    induction front with
    | nil =>
      intro cur
      obtain ⟨l, hl⟩ := wordsFrom_space hs cur w
      refine ⟨l, ?_⟩
      rw [List.nil_append, hl, words, wordsFrom_word hw (by simpa using hne)]
      rfl
    | cons ch front ih =>
      intro cur
      rw [List.cons_append]
      by_cases hch : isSpace ch = true
      · obtain ⟨l, hl⟩ := wordsFrom_space hch cur (front ++ s :: w)
        obtain ⟨m, hm⟩ := ih []
        exact ⟨l ++ m, by rw [hl, words, hm, List.append_assoc]⟩
      · obtain ⟨m, hm⟩ := ih (cur ++ [ch])
        exact ⟨m, by rw [wordsFrom_char hch, hm]⟩
  obtain ⟨l, hl⟩ := key front []
  rw [words, hl, List.getLast?_append]
  rfl

/-! ## Numbers -/

/-- The decimal digits come in runs of ten; these are the zeros. -/
def digitZeros : List Nat :=
  [0x30, 0x660, 0x6F0, 0x7C0, 0x966, 0x9E6, 0xA66, 0xAE6, 0xB66, 0xBE6, 0xC66, 0xCE6, 0xD66,
   0xDE6, 0xE50, 0xED0, 0xF20, 0x1040, 0x1090, 0x17E0, 0x1810, 0x1946, 0x19D0, 0x1A80, 0x1A90,
   0x1B50, 0x1BB0, 0x1C40, 0x1C50, 0xA620, 0xA8D0, 0xA900, 0xA9D0, 0xA9F0, 0xAA50, 0xABF0,
   0xFF10, 0x104A0, 0x10D30, 0x11066, 0x110F0, 0x11136, 0x111D0, 0x112F0, 0x11450, 0x114D0,
   0x11650, 0x116C0, 0x11730, 0x118E0, 0x11950, 0x11C50, 0x11D50, 0x11DA0, 0x16A60, 0x16AC0,
   0x16B50, 0x1D7CE, 0x1D7D8, 0x1D7E2, 0x1D7EC, 0x1D7F6, 0x1E140, 0x1E2F0, 0x1E950, 0x1FBF0]

/-- The value of a decimal digit. -/
def digit? (ch : Char) : Option Nat :=
  (digitZeros.find? fun z => z ≤ ch.toNat && ch.toNat ≤ z + 9).map (ch.toNat - ·)

/-- Digits, with a single underscore allowed between two of them. `acc` is the value so
far, and `digit` says whether the last character was one. -/
def digitsFrom (acc : Nat) (digit : Bool) : List Char → Option Nat
  | [] => if digit then some acc else none
  | ch :: rest =>
    if ch = '_' then if digit then digitsFrom acc false rest else none
    else match digit? ch with
      | some n => digitsFrom (10 * acc + n) true rest
      | none => none

/-- `text.strip()`. -/
def strip (text : List Char) : List Char :=
  ((text.dropWhile isSpace).reverse.dropWhile isSpace).reverse

/-- `int(text)`; `none` is the `ValueError`. -/
def int? (text : List Char) : Option Int :=
  match strip text with
  | '-' :: rest => (digitsFrom 0 false rest).map fun n => -(n : Int)
  | '+' :: rest => (digitsFrom 0 false rest).map Int.ofNat
  | rest => (digitsFrom 0 false rest).map Int.ofNat

example : int? " -1_000 ".toList = some (-1000) := by decide +kernel

end Texts
