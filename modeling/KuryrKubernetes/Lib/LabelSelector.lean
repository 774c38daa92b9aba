import Mathlib.Data.List.Basic
import Mathlib.Data.String.Basic
import KuryrKubernetes.Lib.Dict

/-!
# Label selectors and their query syntax

The label-selector language of the orchestrator API: a selector is a list of
requirements over a label map, and list requests carry it as text, for instance
`app=web,tier in (a, b),!legacy`.

- `Requirement.Matches`: when a label map meets a requirement.
- `parseSelector`: the server's reader of the textual form (lexer and
  recursive-descent parser, with the validation of keys and values). Two of its
  habits matter to clients: `k=` asks for the empty value, and a value list is
  read with empty entries allowed, but not every list of empty entries is
  accepted (`sepOk`).
- `Requirement.toks`: the tokens of the textual form of a requirement.
  `parseReqs_toks` reads a comma-separated sequence of them back to requirements
  that match the same label maps; `LexTo` connects the tokens to the text.

Numeric comparisons (`<`, `>`) of the grammar are rejected here: no client
considered produces them.
-/

namespace LabelSelectors

open Dicts

/-- A label map. -/
abbrev Labels := Dict String String

/-- The operators of a requirement. -/
inductive Op where
  | equals | notEquals | isIn | notIn | exists | doesNotExist
deriving DecidableEq, Repr

/-- One requirement of a selector. -/
structure Requirement where
  key : String
  op : Op
  values : List String
deriving DecidableEq, Repr

/-- When a label map meets a requirement. A missing key meets the negative
operators. -/
def Requirement.Matches (r : Requirement) (labels : Labels) : Bool :=
  match r.op, labels.get? r.key with
  | .equals, some v | .isIn, some v => decide (v ∈ r.values)
  | .notEquals, some v | .notIn, some v => decide (v ∉ r.values)
  | .exists, some _ => true
  | .doesNotExist, some _ => false
  | .equals, none | .isIn, none | .exists, none => false
  | .notEquals, none | .notIn, none | .doesNotExist, none => true

/-- The operators that ask for the key to be there. -/
def Op.positive : Op → Bool
  | .equals | .isIn | .exists => true
  | .notEquals | .notIn | .doesNotExist => false

/-- The label map has every label of `part`. -/
def Extends (part labels : Labels) : Prop := ∀ e ∈ part.items, labels.get? e.1 = some e.2

instance (part labels : Labels) : Decidable (Extends part labels) :=
  inferInstanceAs (Decidable (∀ e ∈ part.items, labels.get? e.1 = some e.2))

theorem Extends.refl (labels : Labels) : Extends labels labels :=
  fun _ he => Dict.get?_eq_some.mpr he

theorem Requirement.key_mem_of_matches {r : Requirement} {labels : Labels}
    (h : r.Matches labels = true) (hpos : r.op.positive = true) : r.key ∈ labels.keys := by
  by_contra hkey
  have hnone := Dict.get?_eq_none.mpr hkey
  unfold Requirement.Matches at h
  rw [hnone] at h
  cases hop : r.op <;> simp_all [Op.positive]

/-- A part of a label map meets what the whole one meets, as long as it has the keys that
are asked for. -/
theorem Requirement.matches_of_extends {r : Requirement} {part labels : Labels}
    (hext : Extends part labels) (h : r.Matches labels = true)
    (hkey : r.op.positive = true → r.key ∈ part.keys) : r.Matches part = true := by
  cases hget : part.get? r.key with
  | some v =>
    have hlabels : labels.get? r.key = some v := hext (r.key, v) (Dict.get?_eq_some.mp hget)
    unfold Requirement.Matches at h ⊢
    rw [hget]
    rw [hlabels] at h
    exact h
  | none =>
    have hneg : r.op.positive = false := by
      by_contra hpos
      exact Dict.get?_eq_none.mp hget (hkey (by simpa using hpos))
    unfold Requirement.Matches
    rw [hget]
    cases hop : r.op <;> simp_all [Op.positive]

/-! ## Validation of keys and values -/

/-- Characters of a name segment. -/
def nameChar (c : Char) : Bool := c.isAlphanum || c = '-' || c = '_' || c = '.'

/-- A name segment: 1 to 63 characters, alphanumeric at both ends. -/
def isNameSegment (l : List Char) : Bool :=
  l.length ≤ 63 && l.all nameChar && l.head?.any Char.isAlphanum && l.getLast?.any Char.isAlphanum

/-- Characters of a DNS label. -/
def dnsChar (c : Char) : Bool := c.isLower || c.isDigit || c = '-'

/-- A DNS label. -/
def isDnsLabel (l : List Char) : Bool :=
  l.all dnsChar && l.head?.any (· ≠ '-') && l.getLast?.any (· ≠ '-')

/-- A DNS subdomain: at most 253 characters, dot-separated DNS labels. -/
def isDnsSubdomain (l : List Char) : Bool :=
  l.length ≤ 253 && l.all (fun c => dnsChar c || c = '.') && (l.splitOn '.').all isDnsLabel

/-- A label key: a name segment, optionally behind a DNS prefix and a slash. -/
def isLabelKey (s : String) : Bool :=
  match s.toList.dropWhile (· ≠ '/') with
  | [] => isNameSegment s.toList
  | _ :: name => isDnsSubdomain (s.toList.takeWhile (· ≠ '/')) && isNameSegment name

/-- A label value: empty, or a name segment. -/
def isLabelValue (s : String) : Bool := s.toList.isEmpty || isNameSegment s.toList

/-! ## Lexer -/

/-- Tokens of the textual form. Keywords are identifiers to the lexer. -/
inductive Token where
  | ident (s : String)
  | comma | bang | openPar | closePar | equals | notEquals | compare
deriving DecidableEq, Repr

/-- Blank characters of the textual form. -/
def isBlank (c : Char) : Bool := c = ' ' || c = '\t' || c = '\r' || c = '\n'

/-- Characters that are tokens of their own. -/
def isSpecial (c : Char) : Bool :=
  c = '=' || c = '!' || c = '(' || c = ')' || c = ',' || c = '>' || c = '<'

/-- End of an identifier. -/
def flush (acc : List Char) : List Token :=
  if acc = [] then [] else [.ident (String.ofList acc)]

/-- The token of a special character that starts no longer token. -/
def special (c : Char) : Token :=
  if c = ',' then .comma
  else if c = '!' then .bang
  else if c = '(' then .openPar
  else if c = ')' then .closePar
  else if c = '=' then .equals
  else .compare

/-- The lexer, with the identifier read so far. -/
def lex (acc : List Char) : List Char → List Token
  | [] => flush acc
  | '=' :: '=' :: cs => flush acc ++ .equals :: lex [] cs
  | '!' :: '=' :: cs => flush acc ++ .notEquals :: lex [] cs
  | c :: cs =>
    if isBlank c then flush acc ++ lex [] cs
    else if isSpecial c then flush acc ++ special c :: lex [] cs
    else lex (acc ++ [c]) cs

/-! ## Parser -/

/-- A leading comma stands for an empty first value. -/
def orEmpty (s : List String) : List String := if s = [] then [""] else s

/-- The values of a set-based requirement, after the opening parenthesis has been
consumed, up to the closing one; `s` are the values read so far. -/
def parseIds (s : List String) : List Token → Option (List String × List Token)
  | .ident v :: .closePar :: ts => some (s ++ [v], ts)
  | .ident v :: .comma :: ts => parseIds (s ++ [v]) (.comma :: ts)
  | .comma :: .closePar :: ts => some (orEmpty s ++ [""], ts)
  | .comma :: .comma :: ts => parseIds (orEmpty s ++ [""]) ts
  | .comma :: .ident v :: ts => parseIds (orEmpty s) (.ident v :: ts)
  | _ => none

/-- The parenthesised value list. -/
def parseValues : List Token → Option (List String × List Token)
  | .openPar :: .closePar :: ts => some ([""], ts)
  | .openPar :: ts => parseIds [] ts
  | _ => none

/-- The value of an equality requirement; missing means empty. -/
def parseExactValue : List Token → Option (List String × List Token)
  | [] => some ([""], [])
  | .comma :: ts => some ([""], .comma :: ts)
  | .ident v :: ts => some ([v], ts)
  | _ => none

/-- Key and values as the server validates them. -/
def checked (key : String) (op : Op) : List String × List Token → Option (Requirement × List Token)
  | (values, ts) =>
    if isLabelKey key ∧ ∀ v ∈ values, isLabelValue v then some (⟨key, op, values⟩, ts) else none

/-- One requirement. -/
def parseRequirement : List Token → Option (Requirement × List Token)
  | .bang :: .ident key :: ts => checked key .doesNotExist ([], ts)
  | .ident key :: ts =>
    match ts with
    | [] => checked key .exists ([], [])
    | .comma :: ts' => checked key .exists ([], .comma :: ts')
    | .ident "in" :: ts' => (parseValues ts').bind (checked key .isIn)
    | .ident "notin" :: ts' => (parseValues ts').bind (checked key .notIn)
    | .equals :: ts' => (parseExactValue ts').bind (checked key .equals)
    | .notEquals :: ts' => (parseExactValue ts').bind (checked key .notEquals)
    | _ => none
  | _ => none

/-- A comma must be followed by the start of a requirement. -/
def startsRequirement : List Token → Bool
  | .ident _ :: _ | .bang :: _ => true
  | _ => false

/-- The requirement list; the fuel bounds the number of requirements. -/
def parseReqs : Nat → List Token → Option (List Requirement)
  | _, [] => some []
  | 0, _ => none
  | fuel + 1, ts =>
    match parseRequirement ts with
    | some (r, []) => some [r]
    | some (r, .comma :: ts') =>
      if startsRequirement ts' then (parseReqs fuel ts').map (r :: ·) else none
    | _ => none

/-- The reader of the textual form. Every requirement takes at least one token,
so the number of tokens is enough fuel. -/
def parseSelector (s : String) : Option (List Requirement) :=
  let ts := lex [] s.toList
  parseReqs ts.length ts

/-- A label map meets a list of requirements. -/
def matchesAll (rs : List Requirement) (labels : Labels) : Bool := rs.all (·.Matches labels)

/-! ## Reading a value list back -/

/-- The tokens of one value: an empty value leaves no token. -/
def identToks (v : String) : List Token := flush v.toList

/-- The tokens of a comma-separated value list. -/
def valueToks : List String → List Token
  | [] => []
  | [v] => identToks v
  | v :: w :: vs => identToks v ++ .comma :: valueToks (w :: vs)

@[simp] theorem identToks_empty : identToks "" = [] := rfl

theorem identToks_of_ne {v : String} (h : v ≠ "") : identToks v = [.ident v] := by
  have hl : v.toList ≠ [] := fun hn => h (by rw [← String.ofList_toList (s := v), hn])
  rw [identToks, flush, if_neg hl, String.ofList_toList]

/-- What the reader accepts behind a first value: a pair of commas stands for one
empty value and must not end the list. -/
def sepOk : List String → Bool
  | [] => true
  | [_] => true
  | w :: x :: r => if w = "" then (if r = [] then x ≠ "" else sepOk r) else sepOk (x :: r)

/-- The value lists the reader accepts: after the first value, the run of empty
values at the end has odd length, or there is none. -/
def valuesOk : List String → Bool
  | [] => false
  | _ :: vs => sepOk vs

/-- `p` reads exactly the values `vs` on top of `s`, leaving `rest`. -/
def Reads (p : Option (List String × List Token)) (s vs : List String) (rest : List Token) : Prop :=
  ∃ s', p = some (s', rest) ∧ ∀ v, v ∈ s' ↔ v ∈ s ∨ v ∈ vs

theorem Reads.congr {p : Option (List String × List Token)} {s s' vs vs' : List String}
    {rest : List Token} (h : Reads p s vs rest)
    (he : ∀ v, (v ∈ s ∨ v ∈ vs) ↔ (v ∈ s' ∨ v ∈ vs')) : Reads p s' vs' rest := by
  obtain ⟨t, hp, ht⟩ := h
  exact ⟨t, hp, fun v => (ht v).trans (he v)⟩

/-- The loop behind a separator. The cases follow `sepOk`; after an empty value
the reader has swallowed two commas and expects a value again. -/
theorem parseIds_sep (s vs : List String) (rest : List Token) (hs : s ≠ []) (hvs : vs ≠ []) :
    (sepOk vs = true → Reads
      (parseIds s (.comma :: (valueToks vs ++ .closePar :: rest))) s vs rest) ∧
    (sepOk vs = false → parseIds s (.comma :: (valueToks vs ++ .closePar :: rest)) = none) := by
  -- an empty value takes the next one with it, so the recursion may skip one
  induction hn : vs.length using Nat.strong_induction_on generalizing s vs with
  | _ n IH =>
  match vs, hn with
  | [w], _ =>
    by_cases hw : w = ""
    · subst hw
      refine ⟨fun _ => ⟨s ++ [""], ?_, by simp⟩, fun h => absurd h (by simp [sepOk])⟩
      simp [valueToks, parseIds, orEmpty, hs]
    · refine ⟨fun _ => ⟨s ++ [w], ?_, by simp⟩, fun h => absurd h (by simp [sepOk])⟩
      simp [valueToks, identToks_of_ne hw, parseIds, orEmpty, hs]
  | w :: x :: r, hn =>
    by_cases hw : w = ""
    · subst hw
      have hstep : parseIds s (.comma :: (valueToks ("" :: x :: r) ++ .closePar :: rest))
          = parseIds (s ++ [""]) (valueToks (x :: r) ++ .closePar :: rest) := by
        simp [valueToks, parseIds, orEmpty, hs]
      rw [hstep]
      match r, hn with
      | [], _ =>
        by_cases hx : x = ""
        · subst hx
          refine ⟨fun h => absurd h (by simp [sepOk]), fun _ => ?_⟩
          simp [valueToks, parseIds]
        · refine ⟨fun _ => ⟨s ++ [""] ++ [x], ?_, by simp⟩,
            fun h => absurd h (by simp [sepOk, hx])⟩
          simp [valueToks, identToks_of_ne hx, parseIds]
      | y :: r', hn =>
        have hlt : (y :: r').length < n := by rw [← hn]; simp
        have hsep : sepOk ("" :: x :: y :: r') = sepOk (y :: r') := by simp [sepOk]
        rw [hsep]
        by_cases hx : x = ""
        · subst hx
          have ih := IH _ hlt (s ++ [""]) (y :: r') (by simp) (by simp) rfl
          have hv : valueToks ("" :: y :: r') = .comma :: valueToks (y :: r') := rfl
          rw [hv, List.cons_append]
          refine ⟨fun h => (ih.1 h).congr fun v => ?_, ih.2⟩
          simp only [List.mem_append, List.mem_cons, List.not_mem_nil, or_false]
          grind
        · have ih := IH _ hlt (s ++ [""] ++ [x]) (y :: r') (by simp) (by simp) rfl
          have hv : parseIds (s ++ [""]) (valueToks (x :: y :: r') ++ .closePar :: rest)
              = parseIds (s ++ [""] ++ [x])
                (.comma :: (valueToks (y :: r') ++ .closePar :: rest)) := by
            simp [valueToks, identToks_of_ne hx, parseIds]
          rw [hv]
          refine ⟨fun h => (ih.1 h).congr fun v => ?_, ih.2⟩
          simp only [List.mem_append, List.mem_cons, List.not_mem_nil, or_false]
          grind
    · have hsep : sepOk (w :: x :: r) = sepOk (x :: r) := by simp [sepOk, hw]
      have ih := IH _ (by rw [← hn]; simp) (s ++ [w]) (x :: r) (by simp) (by simp) rfl
      have hv : parseIds s (.comma :: (valueToks (w :: x :: r) ++ .closePar :: rest))
          = parseIds (s ++ [w]) (.comma :: (valueToks (x :: r) ++ .closePar :: rest)) := by
        simp [valueToks, identToks_of_ne hw, parseIds, orEmpty, hs]
      rw [hv, hsep]
      refine ⟨fun h => (ih.1 h).congr fun v => ?_, ih.2⟩
      simp only [List.mem_append, List.mem_cons, List.not_mem_nil, or_false]
      grind

/-- **A parenthesised value list** is read to the same set of values when it is
acceptable, and rejected otherwise. -/
theorem parseValues_toks (vs : List String) (rest : List Token) (hvs : vs ≠ []) :
    (valuesOk vs = true →
      Reads (parseValues (.openPar :: (valueToks vs ++ .closePar :: rest))) [] vs rest) ∧
    (valuesOk vs = false →
      parseValues (.openPar :: (valueToks vs ++ .closePar :: rest)) = none) := by
  match vs with
  | [v] =>
    refine ⟨fun _ => ⟨[v], ?_, by simp⟩, fun h => absurd h (by simp [valuesOk, sepOk])⟩
    by_cases hv : v = ""
    · subst hv
      rfl
    · simp [valueToks, identToks_of_ne hv, parseValues, parseIds]
  | v :: w :: r =>
    by_cases hv : v = ""
    · subst hv
      -- a leading comma inserts the empty value before the loop goes on
      have hhead : parseValues (.openPar :: (valueToks ("" :: w :: r) ++ .closePar :: rest))
          = parseIds [""] (.comma :: (valueToks (w :: r) ++ .closePar :: rest)) := by
        show parseIds [] (.comma :: (valueToks (w :: r) ++ .closePar :: rest)) = _
        by_cases hw : w = ""
        · subst hw
          cases r with
          | nil => rfl
          | cons x r => rfl
        · cases r with
          | nil => simp [valueToks, identToks_of_ne hw, parseIds, orEmpty]
          | cons x r => simp [valueToks, identToks_of_ne hw, parseIds, orEmpty]
      rw [hhead]
      have h := parseIds_sep [""] (w :: r) rest (by simp) (by simp)
      refine ⟨fun hok => (h.1 hok).congr fun v => by simp, h.2⟩
    · have hhead : parseValues (.openPar :: (valueToks (v :: w :: r) ++ .closePar :: rest))
          = parseIds [v] (.comma :: (valueToks (w :: r) ++ .closePar :: rest)) := by
        simp [valueToks, identToks_of_ne hv, parseValues, parseIds]
      rw [hhead]
      have h := parseIds_sep [v] (w :: r) rest (by simp) (by simp)
      refine ⟨fun hok => (h.1 hok).congr fun v => by simp, h.2⟩

/-! ## Reading requirements back -/

/-- A requirement the server admits. -/
structure Requirement.Valid (r : Requirement) : Prop where
  key : isLabelKey r.key
  values : ∀ v ∈ r.values, isLabelValue v
  arity : match r.op with
    | .equals | .notEquals => ∃ v, r.values = [v]
    | .isIn | .notIn => r.values ≠ []
    | .exists | .doesNotExist => r.values = []

/-- The tokens of the textual form of a requirement. -/
def Requirement.toks (r : Requirement) : List Token :=
  match r.op with
  | .equals => .ident r.key :: .equals :: valueToks r.values
  | .notEquals => .ident r.key :: .notEquals :: valueToks r.values
  | .isIn => .ident r.key :: .ident "in" :: .openPar :: (valueToks r.values ++ [.closePar])
  | .notIn => .ident r.key :: .ident "notin" :: .openPar :: (valueToks r.values ++ [.closePar])
  | .exists => [.ident r.key]
  | .doesNotExist => [.bang, .ident r.key]

/-- The textual form survives the reader of value lists. -/
def Requirement.acceptable (r : Requirement) : Bool :=
  match r.op with
  | .isIn | .notIn => valuesOk r.values
  | _ => true

/-- Same key, operator and set of values. -/
structure Requirement.Equiv (r r' : Requirement) : Prop where
  key : r.key = r'.key
  op : r.op = r'.op
  values : ∀ v, v ∈ r.values ↔ v ∈ r'.values

theorem Requirement.Equiv.matches {r r' : Requirement} (h : r.Equiv r') (labels : Labels) :
    r.Matches labels = r'.Matches labels := by
  unfold Requirement.Matches
  rw [h.key, h.op]
  cases r'.op <;> cases labels.get? r'.key <;> simp [h.values]

theorem checked_eq_some {key : String} {op : Op} {values : List String} {ts : List Token}
    (hk : isLabelKey key) (hv : ∀ v ∈ values, isLabelValue v) :
    checked key op (values, ts) = some (⟨key, op, values⟩, ts) := by
  rw [checked, if_pos ⟨hk, hv⟩]

/-- The end of a requirement: end of text, or the comma before the next one. -/
def AtEnd (ts : List Token) : Prop := ts = [] ∨ ∃ ts', ts = .comma :: ts'

theorem parseExactValue_toks (v : String) {rest : List Token} (hrest : AtEnd rest) :
    parseExactValue (identToks v ++ rest) = some ([v], rest) := by
  by_cases hv : v = ""
  · subst hv
    rcases hrest with rfl | ⟨ts, rfl⟩ <;> rfl
  · rw [identToks_of_ne hv]
    rfl

/-- The set-based requirements, `in` and `notin` alike. -/
theorem parseValues_checked {key : String} (op : Op) {vs : List String} (rest : List Token)
    (hk : isLabelKey key) (hvs : vs ≠ []) (hv : ∀ v ∈ vs, isLabelValue v) :
    (valuesOk vs = true →
      ∃ r, ((parseValues (.openPar :: (valueToks vs ++ .closePar :: rest))).bind (checked key op))
        = some (r, rest) ∧ r.Equiv ⟨key, op, vs⟩) ∧
    (valuesOk vs = false →
      ((parseValues (.openPar :: (valueToks vs ++ .closePar :: rest))).bind (checked key op))
        = none) := by
  have h := parseValues_toks vs rest hvs
  constructor
  · intro hok
    obtain ⟨s', hp, hmem⟩ := h.1 hok
    have hmem' : ∀ v, v ∈ s' ↔ v ∈ vs := fun v => by simpa using hmem v
    refine ⟨⟨key, op, s'⟩, ?_, ⟨rfl, rfl, hmem'⟩⟩
    rw [hp, Option.bind_some, checked_eq_some hk fun v hvs' => hv v ((hmem' v).mp hvs')]
  · intro hbad
    rw [h.2 hbad, Option.bind_none]

/-- **One requirement** is read back when its value list is acceptable, and
rejected otherwise. -/
theorem parseRequirement_toks {r : Requirement} (hr : r.Valid) (rest : List Token)
    (hrest : AtEnd rest) :
    (r.acceptable = true →
      ∃ r', parseRequirement (r.toks ++ rest) = some (r', rest) ∧ r'.Equiv r) ∧
    (r.acceptable = false → parseRequirement (r.toks ++ rest) = none) := by
  obtain ⟨key, op, values⟩ := r
  obtain ⟨hkey, hvals, harity⟩ := hr
  cases op with
  | equals | notEquals =>
    obtain ⟨v, rfl⟩ := harity
    refine ⟨fun _ => ⟨_, ?_, ⟨rfl, rfl, fun _ => Iff.rfl⟩⟩, fun h => nomatch h⟩
    simp only [Requirement.toks, valueToks, List.cons_append, parseRequirement]
    rw [parseExactValue_toks v hrest, Option.bind_some, checked_eq_some hkey hvals]
  | isIn =>
    have h := parseValues_checked .isIn rest hkey harity hvals
    simpa only [Requirement.toks, Requirement.acceptable, List.cons_append, List.append_assoc,
      List.nil_append, parseRequirement] using h
  | notIn =>
    have h := parseValues_checked .notIn rest hkey harity hvals
    simpa only [Requirement.toks, Requirement.acceptable, List.cons_append, List.append_assoc,
      List.nil_append, parseRequirement] using h
  | «exists» =>
    cases harity
    refine ⟨fun _ => ⟨_, ?_, ⟨rfl, rfl, fun _ => Iff.rfl⟩⟩, fun h => nomatch h⟩
    rcases hrest with rfl | ⟨ts, rfl⟩
    · exact checked_eq_some hkey hvals
    · exact checked_eq_some hkey hvals
  | doesNotExist =>
    cases harity
    refine ⟨fun _ => ⟨_, ?_, ⟨rfl, rfl, fun _ => Iff.rfl⟩⟩, fun h => nomatch h⟩
    exact checked_eq_some hkey hvals

/-- The tokens of a comma-separated list of requirements. -/
def reqsToks : List Requirement → List Token
  | [] => []
  | [r] => r.toks
  | r :: s :: rs => r.toks ++ .comma :: reqsToks (s :: rs)

theorem reqsToks_append {rs ss : List Requirement} (hr : rs ≠ []) (hs : ss ≠ []) :
    reqsToks (rs ++ ss) = reqsToks rs ++ .comma :: reqsToks ss := by
  induction rs with
  | nil => exact absurd rfl hr
  | cons r rs ih =>
    cases rs with
    | nil =>
      obtain ⟨s, ss, rfl⟩ := List.exists_cons_of_ne_nil hs
      rfl
    | cons r' rs =>
      have ih := ih (by simp)
      simp only [List.cons_append, reqsToks, List.append_assoc] at ih ⊢
      rw [ih]

theorem Requirement.toks_ne_nil (r : Requirement) : r.toks ≠ [] := by
  obtain ⟨key, op, values⟩ := r
  cases op <;> simp [Requirement.toks]

theorem startsRequirement_toks (r : Requirement) (ts : List Token) :
    startsRequirement (r.toks ++ ts) = true := by
  obtain ⟨key, op, values⟩ := r
  cases op <;> rfl

theorem startsRequirement_reqsToks (r : Requirement) (rs : List Requirement) :
    startsRequirement (reqsToks (r :: rs)) = true := by
  cases rs with
  | nil => simpa [reqsToks] using startsRequirement_toks r []
  | cons s rs => exact startsRequirement_toks r _

theorem length_le_reqsToks : ∀ rs : List Requirement, rs.length ≤ (reqsToks rs).length
  | [] => Nat.le_refl _
  | [r] => List.length_pos_iff.mpr r.toks_ne_nil
  | r :: s :: rs => by
    have ih := length_le_reqsToks (s :: rs)
    simp only [reqsToks, List.length_append, List.length_cons] at ih ⊢
    omega

theorem parseReqs_succ (fuel : Nat) (r : Requirement) (ts : List Token) :
    parseReqs (fuel + 1) (r.toks ++ ts) =
      match parseRequirement (r.toks ++ ts) with
      | some (r', []) => some [r']
      | some (r', .comma :: ts') =>
        if startsRequirement ts' then (parseReqs fuel ts').map (r' :: ·) else none
      | _ => none := by
  cases h : r.toks ++ ts with
  | nil => exact absurd (List.append_eq_nil_iff.mp h).1 r.toks_ne_nil
  | cons t ts' => rfl

/-- **A list of requirements** is read back to one that matches the same label
maps, and rejected as soon as one of its value lists is. -/
theorem parseReqs_toks :
    ∀ (rs : List Requirement) (fuel : Nat), rs.length ≤ fuel → (∀ r ∈ rs, r.Valid) →
      (rs.all Requirement.acceptable = true →
        ∃ rs', parseReqs fuel (reqsToks rs) = some rs' ∧
          ∀ labels, matchesAll rs' labels = matchesAll rs labels) ∧
      (rs.all Requirement.acceptable = false → parseReqs fuel (reqsToks rs) = none)
  | [], fuel, _, _ => by
    refine ⟨fun _ => ⟨[], ?_, fun _ => rfl⟩, fun h => nomatch h⟩
    cases fuel <;> rfl
  | [r], fuel + 1, _, hv => by
    have h := parseRequirement_toks (hv r (by simp)) [] (.inl rfl)
    have hs := parseReqs_succ fuel r []
    rw [List.append_nil] at h hs
    rw [reqsToks, hs]
    simp only [List.all_cons, List.all_nil, Bool.and_true]
    constructor
    · intro hok
      obtain ⟨r', hp, he⟩ := h.1 hok
      refine ⟨[r'], by rw [hp], fun labels => ?_⟩
      simp [matchesAll, he.matches labels]
    · intro hbad
      rw [h.2 hbad]
  | r :: s :: rs, fuel + 1, hlen, hv => by
    have h := parseRequirement_toks (hv r (by simp)) (.comma :: reqsToks (s :: rs))
      (.inr ⟨_, rfl⟩)
    have ih := parseReqs_toks (s :: rs) fuel (by simpa using hlen)
      fun t ht => hv t (List.mem_cons_of_mem _ ht)
    rw [reqsToks, parseReqs_succ]
    rw [List.all_cons]
    cases hacc : r.acceptable with
    | false =>
      rw [h.2 hacc]
      exact ⟨fun hc => absurd hc (by simp), fun _ => rfl⟩
    | true =>
      obtain ⟨r', hp, he⟩ := h.1 hacc
      rw [hp, Bool.true_and]
      simp only [startsRequirement_reqsToks, if_true]
      constructor
      · intro hok
        obtain ⟨rs', hps, hm⟩ := ih.1 hok
        refine ⟨r' :: rs', by rw [hps, Option.map_some], fun labels => ?_⟩
        have hm' := hm labels
        simp only [matchesAll, List.all_cons] at hm' ⊢
        rw [he.matches labels, hm']
      · intro hbad
        rw [ih.2 hbad, Option.map_none]

/-! ## From text to tokens -/

/-- Characters of identifiers. -/
def plain (c : Char) : Bool := !isBlank c && !isSpecial c

/-- A text of identifier characters. -/
def Plain (l : List Char) : Prop := ∀ c ∈ l, plain c = true

instance (l : List Char) : Decidable (Plain l) :=
  List.decidableBAll (fun c => plain c = true) l

theorem nameChar_plain {c : Char} (h : nameChar c = true) : plain c = true := by
  unfold plain isBlank isSpecial
  simp only [Bool.not_or, Bool.and_eq_true, Bool.not_eq_true', decide_eq_false_iff_not]
  refine ⟨⟨⟨⟨?_, ?_⟩, ?_⟩, ?_⟩, ⟨⟨⟨⟨⟨?_, ?_⟩, ?_⟩, ?_⟩, ?_⟩, ?_⟩, ?_⟩ <;>
    (rintro rfl; exact absurd h (by decide))

theorem dnsChar_plain {c : Char} (h : (dnsChar c || c = '.') = true) : plain c = true := by
  refine nameChar_plain ?_
  simp only [dnsChar, Bool.or_eq_true, decide_eq_true_eq] at h
  have halnum : c.isAlphanum = (c.isUpper || c.isLower || c.isDigit) := rfl
  simp only [nameChar, halnum, Bool.or_eq_true, decide_eq_true_eq]
  grind

theorem isNameSegment_plain {l : List Char} (h : isNameSegment l = true) : Plain l ∧ l ≠ [] := by
  simp only [isNameSegment, Bool.and_eq_true, List.all_eq_true] at h
  refine ⟨fun c hc => nameChar_plain (h.1.1.2 c hc), ?_⟩
  rintro rfl
  exact absurd h.2 (by simp)

/-- A key is an identifier. -/
theorem isLabelKey_plain {s : String} (h : isLabelKey s = true) :
    Plain s.toList ∧ s.toList ≠ [] := by
  unfold isLabelKey at h
  have hsplit := List.takeWhile_append_dropWhile (p := fun c => decide (c ≠ '/')) (l := s.toList)
  split at h
  · exact isNameSegment_plain h
  · next c name h2 =>
    rw [h2] at hsplit
    rw [Bool.and_eq_true] at h
    have hc : c = '/' := by
      have hhd := List.head?_dropWhile_not (fun c => decide (c ≠ '/')) s.toList
      rw [h2] at hhd
      simpa using hhd
    have hname := (isNameSegment_plain h.2).1
    rw [← hsplit]
    refine ⟨fun x hx => ?_, by simp⟩
    rcases List.mem_append.mp hx with hx | hx
    · simp only [isDnsSubdomain, Bool.and_eq_true, List.all_eq_true] at h
      exact dnsChar_plain (h.1.1.2 x hx)
    · rcases List.mem_cons.mp hx with rfl | hx
      · rw [hc]
        decide
      · exact hname x hx

/-- A value is an identifier, or empty. -/
theorem isLabelValue_plain {s : String} (h : isLabelValue s = true) : Plain s.toList := by
  rw [isLabelValue, Bool.or_eq_true] at h
  rcases h with h | h
  · intro c hc
    rw [List.isEmpty_iff.mp h] at hc
    cases hc
  · exact (isNameSegment_plain h).1

/-- One character at a time. -/
alias lex_step := lex.eq_def

theorem lex_plain {w : List Char} (hw : Plain w) (acc rest : List Char) :
    lex acc (w ++ rest) = lex (acc ++ w) rest := by
  induction w generalizing acc with
  | nil => rw [List.nil_append, List.append_nil]
  | cons c w ih =>
    have hc := hw c List.mem_cons_self
    have hstep : lex acc (c :: (w ++ rest)) = lex (acc ++ [c]) (w ++ rest) := by
      simp only [plain, Bool.and_eq_true, Bool.not_eq_true'] at hc
      rw [lex_step]
      split
      · next heq => cases heq
      · next heq =>
        obtain ⟨rfl, -⟩ := List.cons.inj heq
        exact absurd hc.2 (by decide)
      · next heq =>
        obtain ⟨rfl, -⟩ := List.cons.inj heq
        exact absurd hc.2 (by decide)
      · next heq =>
        cases heq
        rw [if_neg (by simp [hc.1]), if_neg (by simp [hc.2])]
    rw [List.cons_append, hstep, ih (fun x hx => hw x (List.mem_cons_of_mem _ hx)),
      List.append_assoc, List.singleton_append]

/-- Text that cannot continue an identifier. -/
def Stops : List Char → Prop
  | [] => True
  | c :: _ => plain c = false

theorem lex_stops (acc : List Char) {rest : List Char} (h : Stops rest) :
    lex acc rest = flush acc ++ lex [] rest := by
  cases rest with
  | nil => simp [lex, flush]
  | cons c cs =>
    have hc : isBlank c = true ∨ isSpecial c = true := by
      simp only [Stops, plain, Bool.and_eq_false_iff, Bool.not_eq_false'] at h
      exact h
    rw [lex_step, lex_step []]
    split
    · next heq => cases heq
    · rfl
    · rfl
    · next heq =>
      cases heq
      rcases hc with hc | hc
      · simp [hc, flush]
      · by_cases hb : isBlank c = true
        · simp [hb, flush]
        · simp [hb, hc, flush]

/-- An identifier in front of text that cannot continue it. -/
theorem lex_ident {w : List Char} (hw : Plain w) {rest : List Char} (h : Stops rest) :
    lex [] (w ++ rest) = flush w ++ lex [] rest := by
  rw [lex_plain hw, List.nil_append, lex_stops w h]

theorem lex_blank (rest : List Char) : lex [] (' ' :: rest) = lex [] rest := by
  rw [lex_step]
  rfl

theorem lex_comma (rest : List Char) : lex [] (',' :: rest) = .comma :: lex [] rest := by
  rw [lex_step]
  rfl

theorem lex_open (rest : List Char) : lex [] ('(' :: rest) = .openPar :: lex [] rest := by
  rw [lex_step]
  rfl

theorem lex_close (rest : List Char) : lex [] (')' :: rest) = .closePar :: lex [] rest := by
  rw [lex_step]
  rfl

/-- A single `=` or `!` not followed by `=`. -/
theorem lex_single {c : Char} (hc : c = '=' ∨ c = '!') {rest : List Char}
    (h : rest.head? ≠ some '=') : lex [] (c :: rest) = special c :: lex [] rest := by
  rw [lex_step]
  split
  · next heq => cases heq
  · next heq =>
    cases heq
    exact absurd rfl h
  · next heq =>
    cases heq
    exact absurd rfl h
  · next heq =>
    cases heq
    rcases hc with rfl | rfl <;> rfl

/-- The end of a requirement's text: end of text, or the next comma. -/
def TextEnd (rest : List Char) : Prop := rest = [] ∨ ∃ r, rest = ',' :: r

theorem TextEnd.stops {rest : List Char} (h : TextEnd rest) : Stops rest := by
  rcases h with rfl | ⟨r, rfl⟩
  · trivial
  · show plain ',' = false
    decide

theorem TextEnd.head {rest : List Char} (h : TextEnd rest) : rest.head? ≠ some '=' := by
  rcases h with rfl | ⟨r, rfl⟩
  · simp
  · simp

/-- The text `cs` of one or more requirements reads as the tokens `ts`. -/
def LexTo (cs : List Char) (ts : List Token) : Prop :=
  ∀ rest, TextEnd rest → lex [] (cs ++ rest) = ts ++ lex [] rest

theorem LexTo.lex {cs : List Char} {ts : List Token} (h : LexTo cs ts) :
    LabelSelectors.lex [] cs = ts := by
  have h0 := h [] (.inl rfl)
  simpa [LabelSelectors.lex, flush] using h0

theorem LexTo.comma {a b : List Char} {ta tb : List Token} (ha : LexTo a ta) (hb : LexTo b tb) :
    LexTo (a ++ ',' :: b) (ta ++ .comma :: tb) := by
  intro rest hrest
  rw [List.append_assoc, List.cons_append, ha _ (.inr ⟨_, rfl⟩), lex_comma, hb rest hrest,
    List.append_assoc]
  rfl

theorem LexTo.blank {a : List Char} {ta : List Token} (ha : LexTo a ta) :
    LexTo (' ' :: a) ta := by
  intro rest hrest
  rw [List.cons_append, lex_blank, ha rest hrest]

theorem lexTo_ident {k : List Char} (hk : Plain k) : LexTo k (flush k) :=
  fun _ hrest => lex_ident hk hrest.stops

/-- `k=v`. -/
theorem lexTo_equals {k v : List Char} (hk : Plain k) (hv : Plain v) :
    LexTo (k ++ '=' :: v) (flush k ++ .equals :: flush v) := by
  intro rest hrest
  have hhead : (v ++ rest).head? ≠ some '=' := by
    cases v with
    | nil => exact hrest.head
    | cons c v =>
      intro h
      have hc : c = '=' := by simpa using h
      exact absurd (hv c List.mem_cons_self) (by rw [hc]; decide)
  have hstop : Stops ('=' :: (v ++ rest)) := by
    show plain '=' = false
    decide
  rw [List.append_assoc, List.cons_append, lex_ident hk hstop, lex_single (.inl rfl) hhead,
    lex_ident hv hrest.stops, List.append_assoc]
  rfl

/-- `!k`. -/
theorem lexTo_bang {k : List Char} (hk : Plain k) : LexTo ('!' :: k) (.bang :: flush k) := by
  intro rest hrest
  have hhead : (k ++ rest).head? ≠ some '=' := by
    cases k with
    | nil => exact hrest.head
    | cons c k =>
      intro h
      have hc : c = '=' := by simpa using h
      exact absurd (hk c List.mem_cons_self) (by rw [hc]; decide)
  rw [List.cons_append, lex_single (.inr rfl) hhead, lex_ident hk hrest.stops]
  rfl

/-- A value list separated by commas and blanks, up to the closing parenthesis. -/
theorem lex_values : ∀ (vs : List String) (rest : List Char), (∀ v ∈ vs, Plain v.toList) →
    lex [] ((", ".intercalate vs).toList ++ ')' :: rest)
      = valueToks vs ++ .closePar :: lex [] rest
  | [], rest, _ => lex_close rest
  | [v], rest, hv => by
    have hstop : Stops (')' :: rest) := by
      show plain ')' = false
      decide
    rw [String.intercalate_singleton, lex_ident (hv v (by simp)) hstop, lex_close]
    rfl
  | v :: w :: vs, rest, hv => by
    have ih := lex_values (w :: vs) rest fun x hx => hv x (List.mem_cons_of_mem _ hx)
    have hstop : Stops (',' :: ' ' :: ((", ".intercalate (w :: vs)).toList ++ ')' :: rest)) := by
      show plain ',' = false
      decide
    rw [String.intercalate_cons_cons, String.toList_append, String.toList_append]
    show lex [] ((v.toList ++ [',', ' '] ++ (", ".intercalate (w :: vs)).toList) ++ ')' :: rest) = _
    rw [List.append_assoc, List.append_assoc, List.cons_append, List.cons_append, List.nil_append,
      lex_ident (hv v (by simp)) hstop, lex_comma, lex_blank, ih]
    simp [valueToks, identToks]

/-- `k op (v, w, …)` for a keyword `op`. -/
theorem lexTo_set {k op : List Char} {vs : List String} (hk : Plain k) (hop : Plain op)
    (hv : ∀ v ∈ vs, Plain v.toList) :
    LexTo (k ++ ' ' :: (op ++ ' ' :: '(' :: ((", ".intercalate vs).toList ++ [')'])))
      (flush k ++ flush op ++ .openPar :: (valueToks vs ++ [.closePar])) := by
  intro rest _
  have hblank : ∀ l, Stops (' ' :: l) := fun l => by
    show plain ' ' = false
    decide
  simp only [List.append_assoc, List.cons_append, List.nil_append]
  rw [lex_ident hk (hblank _), lex_blank, lex_ident hop (hblank _), lex_blank, lex_open,
    lex_values vs rest hv]

end LabelSelectors
