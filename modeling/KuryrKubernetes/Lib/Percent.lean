import Mathlib.Data.List.Basic
import Mathlib.Data.String.Basic

/-!
# Percent-encoding of query strings

`quote` and `quotePlus` are the two encoders of the standard library
(`urllib.parse`): every byte of the UTF-8 encoding of a character outside the
unreserved set is written `%XX`; `quote` also keeps `/`, `quotePlus` writes a
space as `+`. `queryUnescape` is the decoder of the receiving side.

- `Decodes cs l`: reading the encoded text `cs` yields the characters `l`,
  whatever follows. Encoded pieces compose (`Decodes.append`), so a query string
  put together from encoded and literal parts is decoded part by part.
- `Decodes.queryUnescape`: a fully encoded text is read back exactly, for every
  string, not only for ASCII ones.
-/

namespace Percent

/-- The characters `urllib.parse.quote` never encodes. -/
def unreserved (c : Char) : Bool :=
  c.isAlphanum || c = '_' || c = '.' || c = '-' || c = '~'

/-- Upper-case hexadecimal digit. -/
def hexDigit (n : Nat) : Char :=
  if n < 10 then Char.ofNat (48 + n) else Char.ofNat (55 + n)

/-- `%XX`. -/
def percentByte (b : UInt8) : List Char :=
  ['%', hexDigit (b.toNat / 16), hexDigit (b.toNat % 16)]

/-- Encode one character, keeping those of `safe`. -/
def quoteChar (safe : Char → Bool) (c : Char) : List Char :=
  if unreserved c || safe c then [c] else (String.utf8EncodeChar c).flatMap percentByte

/-- `urllib.parse.quote(s)`. -/
def quote (s : String) : String :=
  String.ofList (s.toList.flatMap (quoteChar (· = '/')))

/-- `urllib.parse.quote_plus(s)`. -/
def quotePlus (s : String) : String :=
  String.ofList (s.toList.flatMap fun c =>
    if c = ' ' then ['+'] else quoteChar (fun _ => false) c)

/-- Value of a hexadecimal digit, either case. -/
def hexVal (c : Char) : Option Nat :=
  let n := c.toNat
  if 48 ≤ n ∧ n ≤ 57 then some (n - 48)
  else if 65 ≤ n ∧ n ≤ 70 then some (n - 55)
  else if 97 ≤ n ∧ n ≤ 102 then some (n - 87)
  else none

/-- The bytes an encoded query component stands for; `none` for a bad escape. -/
def unescape : List Char → Option (List UInt8)
  | [] => some []
  | c :: rest =>
    if c = '%' then
      match rest with
      | a :: b :: rest' =>
        match hexVal a, hexVal b with
        | some x, some y => (unescape rest').map (UInt8.ofNat (16 * x + y) :: ·)
        | _, _ => none
      | _ => none
    else if c = '+' then (unescape rest).map (UInt8.ofNat 32 :: ·)
    else (unescape rest).map (String.utf8EncodeChar c ++ ·)

/-- The decoded query component, `none` for a bad escape or bad UTF-8. -/
def queryUnescape (s : String) : Option String :=
  (unescape s.toList).bind fun bs =>
    bs.toByteArray.utf8Decode?.map fun cs => String.ofList cs.toList

/-! ## Decoding one piece -/

/-- Reading `cs`, with anything behind it, yields the characters `l`. -/
def Decodes (cs l : List Char) : Prop :=
  ∀ rest, unescape (cs ++ rest) = (unescape rest).map (l.flatMap String.utf8EncodeChar ++ ·)

theorem Decodes.nil : Decodes [] [] := by
  intro rest
  cases h : unescape rest <;> simp [h]

theorem Decodes.append {cs cs' l l' : List Char} (h : Decodes cs l) (h' : Decodes cs' l') :
    Decodes (cs ++ cs') (l ++ l') := by
  intro rest
  rw [List.append_assoc, h, h', Option.map_map, List.flatMap_append]
  congr 1
  funext bs
  simp [List.append_assoc]

/-- A literal character is read as itself. -/
theorem decodes_literal {c : Char} (hp : c ≠ '%') (hs : c ≠ '+') : Decodes [c] [c] := by
  intro rest
  rw [List.singleton_append, unescape.eq_def]
  simp [hp, hs]

theorem hexVal_hexDigit : ∀ n < 16, hexVal (hexDigit n) = some n := by decide

/-- One escaped byte is read back. -/
theorem unescape_percentByte (b : UInt8) (rest : List Char) :
    unescape (percentByte b ++ rest) = (unescape rest).map (b :: ·) := by
  have hb : b.toNat < 256 := b.toNat_lt
  have hhi : b.toNat / 16 < 16 := by omega
  have hlo : b.toNat % 16 < 16 := by omega
  have hsum : 16 * (b.toNat / 16) + b.toNat % 16 = b.toNat := Nat.div_add_mod _ _
  simp only [percentByte, List.cons_append, List.nil_append, unescape, if_true,
    hexVal_hexDigit _ hhi, hexVal_hexDigit _ hlo, hsum, UInt8.ofNat_toNat]

theorem unescape_percentBytes :
    ∀ (bs : List UInt8) (rest : List Char),
      unescape (bs.flatMap percentByte ++ rest) = (unescape rest).map (bs ++ ·)
  | [], rest => by cases h : unescape rest <;> simp [h]
  | b :: bs, rest => by
    rw [List.flatMap_cons, List.append_assoc, unescape_percentByte,
      unescape_percentBytes bs rest, Option.map_map]
    rfl

theorem unreserved_ne {c : Char} (h : unreserved c = true) : c ≠ '%' ∧ c ≠ '+' := by
  constructor <;> (rintro rfl; exact absurd h (by decide))

/-- One encoded character is read back. -/
theorem decodes_quoteChar {safe : Char → Bool} (hsafe : ∀ c, safe c → c ≠ '%' ∧ c ≠ '+')
    (c : Char) : Decodes (quoteChar safe c) [c] := by
  unfold quoteChar
  split
  · next h =>
    have hc : c ≠ '%' ∧ c ≠ '+' := by
      rcases (Bool.or_eq_true _ _).mp h with h | h
      · exact unreserved_ne h
      · exact hsafe c h
    exact decodes_literal hc.1 hc.2
  · intro rest
    rw [unescape_percentBytes]
    simp

theorem decodes_flatMap {f : Char → List Char} (hf : ∀ c, Decodes (f c) [c]) :
    ∀ l : List Char, Decodes (l.flatMap f) l
  | [] => Decodes.nil
  | c :: l => (hf c).append (decodes_flatMap hf l)

/-! ## The encoders -/

theorem decodes_quote (s : String) : Decodes (quote s).toList s.toList := by
  rw [quote, String.toList_ofList]
  refine decodes_flatMap (decodes_quoteChar fun c hc => ?_) _
  have hc : c = '/' := by simpa using hc
  subst hc
  decide

theorem decodes_quotePlus (s : String) : Decodes (quotePlus s).toList s.toList := by
  rw [quotePlus, String.toList_ofList]
  refine decodes_flatMap (fun c => ?_) _
  split
  · next h =>
    subst h
    intro rest
    rw [List.singleton_append, unescape.eq_def]
    rfl
  · exact decodes_quoteChar (fun _ h => absurd h (by simp)) c

theorem percentByte_ne {b : UInt8} {c : Char} (h : c ∈ percentByte b) : c ≠ '&' := by
  have hb : b.toNat < 256 := b.toNat_lt
  have hdigit : ∀ n < 16, hexDigit n ≠ '&' := by decide
  simp only [percentByte, List.mem_cons, List.not_mem_nil, or_false] at h
  rcases h with rfl | rfl | rfl
  · decide
  · exact hdigit _ (by omega)
  · exact hdigit _ (by omega)

/-- The separator of query parameters never occurs in an encoded text. -/
theorem quotePlus_ne {s : String} {c : Char} (h : c ∈ (quotePlus s).toList) : c ≠ '&' := by
  rw [quotePlus, String.toList_ofList, List.mem_flatMap] at h
  obtain ⟨d, -, hc⟩ := h
  split at hc
  · rw [List.mem_singleton] at hc
    subst hc
    decide
  · unfold quoteChar at hc
    split at hc
    · next hd =>
      rw [List.mem_singleton] at hc
      subst hc
      rintro rfl
      exact absurd hd (by decide)
    · obtain ⟨b, -, hb⟩ := List.mem_flatMap.mp hc
      exact percentByte_ne hb

theorem utf8Encode_eq (l : List Char) :
    (l.flatMap String.utf8EncodeChar).toByteArray = l.utf8Encode := rfl

/-- **An encoded text is read back exactly.** -/
theorem Decodes.queryUnescape {s t : String} (h : Decodes s.toList t.toList) :
    queryUnescape s = some t := by
  have h0 := h []
  rw [List.append_nil] at h0
  rw [Percent.queryUnescape, h0]
  simp only [unescape, Option.map_some, List.append_nil, Option.bind_some]
  rw [utf8Encode_eq, List.utf8Decode?_utf8Encode]
  simp [String.ofList_toList]

end Percent
