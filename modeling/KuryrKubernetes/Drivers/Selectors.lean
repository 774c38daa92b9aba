import KuryrKubernetes.K8s.Objects
import KuryrKubernetes.Lib.Percent

/-!
# Selecting objects by labels

The two evaluators of label selectors in `controller/drivers/utils.py`.

- Client side (utils.py:434–484): `matchSelector` walks the selector over a label
  map.
- Server side (utils.py:91–185): `getPods` and `getNamespaces` render the selector
  into a `labelSelector` query; the API server decodes the query, reads it and
  filters (`listPods`, `listNamespaces`).

`LabelSelector.requirements` is the meaning of a selector. `getPods_eq` says what
the server makes of a rendered selector, `matchSelector_eq` what the client does;
`getPods_agrees_iff` compares the two.
-/

namespace KuryrKubernetes

open Dicts LabelSelectors

/-! ## Client side -/

/-- One iteration of the loop of `match_expressions`: the expression does not
return `False` (utils.py:434–460). -/
def matchExpression (exp : Expression) (labels : Labels) : Bool :=
  if labels.items = [] then
    match exp.operator with
    | .In | .Exists => false
    | .NotIn | .DoesNotExist => true
  else
    match exp.operator, labels.get? exp.key with
    | .In, none => false
    | .In, some v => decide (v ∈ exp.values)
    | .NotIn, none => true
    | .NotIn, some v => decide (v ∉ exp.values)
    | .Exists, v => v.isSome
    | .DoesNotExist, v => v.isNone

/-- `match_expressions` (utils.py:434–460). -/
def matchExpressions (expressions : List Expression) (labels : Labels) : Bool :=
  expressions.all (matchExpression · labels)

/-- `match_labels` (utils.py:463–468). An empty label value counts as missing. -/
def matchLabels (crdLabels labels : Labels) : Bool :=
  crdLabels.items.all fun e =>
    match labels.get? e.1 with
    | none => false
    | some v => v ≠ "" && e.2 = v

/-- `match_selector` (utils.py:471–484). -/
def matchSelector (selector : Option LabelSelector) (labels : Option Labels) : Bool :=
  match selector with
  | none => true
  | some s =>
    let labels := labels.getD Dict.empty
    let matchExp := match s.matchExpressions with
      | some exps => matchExpressions exps labels
      | none => true
    let matchLb := match s.matchLabels with
      | some crdLabels => matchLabels crdLabels labels
      | none => true
    matchExp && matchLb

/-! ## Rendering a query -/

/-- The keyword of an operator that has values, in lower case. -/
def Operator.keyword : Operator → String
  | .In => "in"
  | .NotIn => "notin"
  | .Exists => "exists"
  | .DoesNotExist => "doesnotexist"

/-- `format_expression` (utils.py:165–177). -/
def formatExpression (exp : Expression) : String :=
  match exp.operator with
  | .In | .NotIn =>
    exp.key ++ " " ++ exp.operator.keyword ++ " " ++ ("(" ++ ", ".intercalate exp.values ++ ")")
  | .DoesNotExist => "!" ++ exp.key
  | .Exists => exp.key

/-- `urllib.parse.urlencode` of a dictionary. -/
def urlencode (labels : Labels) : String :=
  "&".intercalate (labels.items.map fun e => Percent.quotePlus e.1 ++ "=" ++ Percent.quotePlus e.2)

/-- `replace_encoded_characters` (utils.py:180–185). -/
def replaceEncodedCharacters (labels : Labels) : String :=
  String.ofList ((urlencode labels).toList.map fun c => if c = '&' then ',' else c)

/-- The local variable `labels` of the two list functions: `None`, an empty
dictionary, or the text of the query. -/
inductive LabelsArg where
  | missing
  | emptyDict
  | text (s : String)
deriving DecidableEq, Repr

/-- The truth value of the variable. -/
def LabelsArg.truthy : LabelsArg → Bool
  | .missing | .emptyDict => false
  | .text s => s ≠ ""

/-- How the variable is formatted into the URL. -/
def LabelsArg.format : LabelsArg → String
  | .missing => "None"
  | .emptyDict => "\x7b\x7d"
  | .text s => s

/-- The `matchLabels` part of the query; `prepare` is what is done to a non-empty
dictionary before it is encoded. -/
def labelsPart (prepare : Labels → Labels) : Option Labels → LabelsArg
  | none => .missing
  | some d => if d.items = [] then .emptyDict else .text (replaceEncodedCharacters (prepare d))

/-- The `matchExpressions` part, common to both list functions
(utils.py:117–124, 148–155). -/
def addExpressions (labels : LabelsArg) : Option (List Expression) → LabelsArg
  | none | some [] => labels
  | some exps =>
    let exps := ", ".intercalate (exps.map formatExpression)
    if labels.truthy then .text (labels.format ++ Percent.quote ("," ++ exps))
    else .text (Percent.quote exps)

/-- The label `get_pods` removes from every selector it is given. -/
def podTemplateHash : String := "pod-template-hash"

/-- The selector object after `get_pods`: the label is popped from the caller's own
dictionary (utils.py:112–114). -/
def LabelSelector.popHash (s : LabelSelector) : LabelSelector :=
  { s with matchLabels := s.matchLabels.map (·.erase podTemplateHash) }

/-- The query text of `get_pods`. -/
def podsQuery (s : LabelSelector) : String :=
  (addExpressions (labelsPart (·.erase podTemplateHash) s.matchLabels) s.matchExpressions).format

/-- The query text of `get_namespaces`. -/
def namespacesQuery (s : LabelSelector) : String :=
  (addExpressions (labelsPart id s.matchLabels) s.matchExpressions).format

/-! ## Server side -/

/-- How the API server reads a `labelSelector` query. -/
def readQuery (query : String) : Except Error (List Requirement) :=
  match (Percent.queryUnescape query).bind parseSelector with
  | some rs => .ok rs
  | none => .error .badRequest

/-- A list request for pods. -/
def Cluster.listPods (c : Cluster) (query : String) (ns : Option String) :
    Except Error (List Pod) :=
  (readQuery query).map fun rs =>
    (c.podsIn ns).filter fun p => matchesAll rs (p.labels.getD Dict.empty)

/-- A list request for namespaces. -/
def Cluster.listNamespaces (c : Cluster) (query : String) : Except Error (List Namespace) :=
  (readQuery query).map fun rs =>
    c.namespaces.filter fun n => matchesAll rs (n.labels.getD Dict.empty)

/-- `get_pods(selector, namespace)` (utils.py:91–134). The selector object is
`selector.popHash` afterwards. -/
def getPods (c : Cluster) (selector : LabelSelector) (ns : Option String) :
    Except Error (List Pod) :=
  c.listPods (podsQuery selector) ns

/-- `get_pods({'selector': svc_selector}, namespace)` for a non-empty service
selector. -/
def getServicePods (c : Cluster) (svcSelector : Labels) (ns : Option String) :
    Except Error (List Pod) :=
  c.listPods (replaceEncodedCharacters svcSelector) ns

/-- `get_namespaces(selector)` (utils.py:137–162). -/
def getNamespaces (c : Cluster) (selector : LabelSelector) : Except Error (List Namespace) :=
  c.listNamespaces (namespacesQuery selector)

/-! ## The meaning of a selector -/

/-- The requirement of a `matchLabels` item. -/
def labelRequirement (e : String × String) : Requirement := ⟨e.1, .equals, [e.2]⟩

/-- The requirement of a `matchExpressions` entry. -/
def Expression.requirement (e : Expression) : Requirement :=
  match e.operator with
  | .In => ⟨e.key, .isIn, e.values⟩
  | .NotIn => ⟨e.key, .notIn, e.values⟩
  | .Exists => ⟨e.key, .exists, e.values⟩
  | .DoesNotExist => ⟨e.key, .doesNotExist, e.values⟩

/-- The items of `matchLabels`. -/
def LabelSelector.labelItems (s : LabelSelector) : List (String × String) :=
  (s.matchLabels.getD Dict.empty).items

/-- The entries of `matchExpressions`. -/
def LabelSelector.expressions (s : LabelSelector) : List Expression :=
  s.matchExpressions.getD []

/-- The requirements a selector stands for. -/
def LabelSelector.requirements (s : LabelSelector) : List Requirement :=
  s.labelItems.map labelRequirement ++ s.expressions.map Expression.requirement

/-- A selector the API server accepts; it serves no empty `matchLabels` or
`matchExpressions`. -/
structure LabelSelector.Admitted (s : LabelSelector) : Prop where
  valid : ∀ r ∈ s.requirements, r.Valid
  labels_ne : ∀ d, s.matchLabels = some d → d.items ≠ []
  expressions_ne : s.matchExpressions ≠ some []

/-- The selector meets a label map. -/
def LabelSelector.Selects (s : LabelSelector) (labels : Option Labels) : Bool :=
  matchesAll s.requirements (labels.getD Dict.empty)

/-- The server's reader accepts every value list of the selector. -/
def LabelSelector.acceptable (s : LabelSelector) : Bool :=
  s.requirements.all Requirement.acceptable

/-! ## What the client computes -/

theorem matchExpression_eq (exp : Expression) (labels : Labels) :
    matchExpression exp labels = exp.requirement.Matches labels := by
  obtain ⟨key, op, values⟩ := exp
  unfold matchExpression
  by_cases hl : labels.items = []
  · have hnone : labels.get? key = none := by
      rw [Dict.get?_eq_none, Dict.keys, hl]
      simp
    rw [if_pos hl]
    cases op <;> simp [Expression.requirement, Requirement.Matches, hnone]
  · rw [if_neg hl]
    cases op <;> cases hv : labels.get? key <;>
      simp only [Expression.requirement, Requirement.Matches, hv] <;> rfl

theorem matchLabels_iff {crdLabels labels : Labels} :
    matchLabels crdLabels labels = true ↔
      ∀ e ∈ crdLabels.items, labels.get? e.1 = some e.2 ∧ e.2 ≠ "" := by
  unfold matchLabels
  rw [List.all_eq_true]
  refine forall₂_congr fun e _ => ?_
  cases hv : labels.get? e.1 with
  | none => simp
  | some v =>
    simp only [ne_eq, Bool.and_eq_true, decide_eq_true_eq, Option.some.injEq, decide_not,
      Bool.not_eq_true', decide_eq_false_iff_not]
    constructor
    · rintro ⟨hne, rfl⟩
      exact ⟨rfl, hne⟩
    · rintro ⟨rfl, hne⟩
      exact ⟨hne, rfl⟩

/-- **The client's verdict**: every expression is met, and every label is present
with a non-empty value. -/
theorem matchSelector_eq {s : LabelSelector} {labels : Option Labels} :
    matchSelector (some s) labels = true ↔
      (∀ e ∈ s.labelItems,
        (labels.getD Dict.empty).get? e.1 = some e.2 ∧ e.2 ≠ "") ∧
      ∀ e ∈ s.expressions, e.requirement.Matches (labels.getD Dict.empty) = true := by
  obtain ⟨ml, me⟩ := s
  have hexp : (match me with
      | some exps => matchExpressions exps (labels.getD Dict.empty)
      | none => true) = true ↔
      ∀ e ∈ me.getD [], e.requirement.Matches (labels.getD Dict.empty) = true := by
    cases me with
    | none => simp
    | some exps => simp [matchExpressions, matchExpression_eq]
  have hlb : (match ml with
      | some crdLabels => matchLabels crdLabels (labels.getD Dict.empty)
      | none => true) = true ↔
      ∀ e ∈ (ml.getD Dict.empty).items,
        (labels.getD Dict.empty).get? e.1 = some e.2 ∧ e.2 ≠ "" := by
    cases ml with
    | none => simp
    | some d => exact matchLabels_iff
  unfold matchSelector
  rw [Bool.and_eq_true, hexp, hlb]
  exact And.comm

theorem selects_iff {s : LabelSelector} {labels : Option Labels} :
    s.Selects labels = true ↔
      (∀ e ∈ s.labelItems, (labels.getD Dict.empty).get? e.1 = some e.2) ∧
      ∀ e ∈ s.expressions, e.requirement.Matches (labels.getD Dict.empty) = true := by
  have hlabel : ∀ e : String × String,
      (labelRequirement e).Matches (labels.getD Dict.empty) = true ↔
        (labels.getD Dict.empty).get? e.1 = some e.2 := by
    intro e
    cases hv : (labels.getD Dict.empty).get? e.1 <;>
      simp [labelRequirement, Requirement.Matches, hv]
  unfold LabelSelector.Selects matchesAll LabelSelector.requirements
  rw [List.all_append, Bool.and_eq_true, List.all_eq_true, List.all_eq_true]
  simp only [List.mem_map, forall_exists_index, and_imp, forall_apply_eq_imp_iff₂, hlabel]

/-! ## What the server reads -/

/-- The query decodes to a textual form of the requirements. -/
def QueryReads (query : String) (rs : List Requirement) : Prop :=
  ∃ t : String, Percent.queryUnescape query = some t ∧ lex [] t.toList = reqsToks rs

/-- The server's reading of such a query. -/
theorem QueryReads.readQuery {query : String} {rs : List Requirement} (h : QueryReads query rs)
    (hv : ∀ r ∈ rs, r.Valid) :
    (rs.all Requirement.acceptable = true →
      ∃ rs', readQuery query = .ok rs' ∧ ∀ labels, matchesAll rs' labels = matchesAll rs labels) ∧
    (rs.all Requirement.acceptable = false → readQuery query = .error .badRequest) := by
  obtain ⟨t, hdec, hlex⟩ := h
  have hread : KuryrKubernetes.readQuery query =
      match parseReqs (reqsToks rs).length (reqsToks rs) with
      | some rs => .ok rs
      | none => .error .badRequest := by
    rw [KuryrKubernetes.readQuery, hdec, Option.bind_some, parseSelector, hlex]
  have hparse := parseReqs_toks rs _ (length_le_reqsToks rs) hv
  rw [hread]
  constructor
  · intro hok
    obtain ⟨rs', hp, hm⟩ := hparse.1 hok
    exact ⟨rs', by rw [hp], hm⟩
  · intro hbad
    rw [hparse.2 hbad]

/-- The decoded text of the `matchLabels` part. -/
def labelsText (items : List (String × String)) : String :=
  ",".intercalate (items.map fun e => e.1 ++ "=" ++ e.2)

/-- One item of the encoded dictionary. -/
def encodedItem (e : String × String) : String :=
  Percent.quotePlus e.1 ++ "=" ++ Percent.quotePlus e.2

theorem mem_encodedItem {e : String × String} {c : Char} (h : c ∈ (encodedItem e).toList) :
    c ≠ '&' := by
  rw [encodedItem, String.toList_append, String.toList_append, List.mem_append,
    List.mem_append] at h
  rcases h with (h | h) | h
  · exact Percent.quotePlus_ne h
  · rw [show "=".toList = ['='] from rfl, List.mem_singleton] at h
    subst h
    decide
  · exact Percent.quotePlus_ne h

theorem decodes_encodedItem (e : String × String) :
    Percent.Decodes (encodedItem e).toList (e.1 ++ "=" ++ e.2).toList := by
  rw [encodedItem, String.toList_append, String.toList_append, String.toList_append,
    String.toList_append]
  refine ((Percent.decodes_quotePlus e.1).append ?_).append (Percent.decodes_quotePlus e.2)
  exact Percent.decodes_literal (by decide) (by decide)

/-- `&` only separates items, so replacing it leaves the items as they are. -/
theorem replaceEncodedCharacters_eq (d : Labels) :
    replaceEncodedCharacters d = ",".intercalate (d.items.map encodedItem) := by
  have hswap : ∀ l : List Char, (∀ c ∈ l, c ≠ '&') →
      (l.map fun c => if c = '&' then ',' else c) = l := by
    intro l hl
    conv => rhs; rw [← List.map_id l]
    exact List.map_congr_left fun c hc => if_neg (hl c hc)
  have hjoin : ∀ items : List (String × String),
      (("&".intercalate (items.map encodedItem)).toList.map fun c => if c = '&' then ',' else c)
        = (",".intercalate (items.map encodedItem)).toList := by
    intro items
    induction items with
    | nil => rfl
    | cons e items ih =>
      cases items with
      | nil =>
        rw [List.map_singleton, String.intercalate_singleton, String.intercalate_singleton]
        exact hswap _ fun c => mem_encodedItem
      | cons e' items =>
        simp only [List.map_cons] at ih ⊢
        rw [String.intercalate_cons_cons, String.intercalate_cons_cons, String.toList_append,
          String.toList_append, String.toList_append, String.toList_append, List.map_append,
          List.map_append, ih, hswap _ fun c => mem_encodedItem]
        rfl
  rw [replaceEncodedCharacters, urlencode, ← String.ofList_toList (s := ",".intercalate _)]
  congr 1
  exact hjoin d.items

theorem decodes_labels : ∀ items : List (String × String),
    Percent.Decodes (",".intercalate (items.map encodedItem)).toList (labelsText items).toList
  | [] => Percent.Decodes.nil
  | [e] => by
    rw [labelsText, List.map_singleton, List.map_singleton, String.intercalate_singleton,
      String.intercalate_singleton]
    exact decodes_encodedItem e
  | e :: e' :: items => by
    have ih := decodes_labels (e' :: items)
    simp only [labelsText, List.map_cons] at ih ⊢
    rw [String.intercalate_cons_cons, String.intercalate_cons_cons, String.toList_append,
      String.toList_append, String.toList_append, String.toList_append]
    refine ((decodes_encodedItem e).append ?_).append ih
    exact Percent.decodes_literal (by decide) (by decide)

theorem flush_key {k : String} (h : isLabelKey k = true) : flush k.toList = [.ident k] := by
  rw [flush, if_neg (isLabelKey_plain h).2, String.ofList_toList]

theorem lexTo_label {e : String × String} (h : (labelRequirement e).Valid) :
    LexTo (e.1 ++ "=" ++ e.2).toList (labelRequirement e).toks := by
  have hlex := lexTo_equals (isLabelKey_plain h.key).1
    (isLabelValue_plain (h.values e.2 (by simp [labelRequirement])))
  rw [flush_key h.key] at hlex
  simpa [labelRequirement, Requirement.toks, valueToks, identToks] using hlex

theorem lexTo_labels : ∀ items : List (String × String), items ≠ [] →
    (∀ r ∈ items.map labelRequirement, r.Valid) →
      LexTo (labelsText items).toList (reqsToks (items.map labelRequirement))
  | [], h, _ => absurd rfl h
  | [e], _, hv => by
    rw [labelsText, List.map_singleton, List.map_singleton, String.intercalate_singleton]
    exact lexTo_label (hv _ (by simp))
  | e :: e' :: items, _, hv => by
    have ih := lexTo_labels (e' :: items) (by simp)
      fun r hr => hv r (by rw [List.map_cons]; exact List.mem_cons_of_mem _ hr)
    simp only [labelsText, List.map_cons] at ih ⊢
    rw [String.intercalate_cons_cons, String.toList_append, String.toList_append]
    have h := (lexTo_label (hv (labelRequirement e) (by simp))).comma ih
    rw [List.append_assoc]
    exact h

theorem lexTo_expression {exp : Expression} (h : exp.requirement.Valid) :
    LexTo (formatExpression exp).toList exp.requirement.toks := by
  obtain ⟨key, op, values⟩ := exp
  have hkey : isLabelKey key = true := by
    have hk := h.key
    cases op <;> exact hk
  have hvals : ∀ v ∈ values, isLabelValue v := by
    have hv := h.values
    cases op <;> exact hv
  have hplain := (isLabelKey_plain hkey).1
  cases op with
  | In =>
    have hop : Plain "in".toList := by decide
    have hlex := lexTo_set hplain hop fun v hv => isLabelValue_plain (hvals v hv)
    rw [flush_key hkey] at hlex
    simpa [formatExpression, Operator.keyword, Expression.requirement, Requirement.toks, flush]
      using hlex
  | NotIn =>
    have hop : Plain "notin".toList := by decide
    have hlex := lexTo_set hplain hop fun v hv => isLabelValue_plain (hvals v hv)
    rw [flush_key hkey] at hlex
    simpa [formatExpression, Operator.keyword, Expression.requirement, Requirement.toks, flush]
      using hlex
  | Exists =>
    have hlex := lexTo_ident hplain
    rw [flush_key hkey] at hlex
    exact hlex
  | DoesNotExist =>
    have hlex := lexTo_bang hplain
    rw [flush_key hkey] at hlex
    simpa [formatExpression, Expression.requirement, Requirement.toks] using hlex

/-- The decoded text of the `matchExpressions` part. -/
def expressionsText (exps : List Expression) : String :=
  ", ".intercalate (exps.map formatExpression)

theorem lexTo_expressions : ∀ exps : List Expression, exps ≠ [] →
    (∀ r ∈ exps.map Expression.requirement, r.Valid) →
      LexTo (expressionsText exps).toList (reqsToks (exps.map Expression.requirement))
  | [], h, _ => absurd rfl h
  | [e], _, hv => by
    rw [expressionsText, List.map_singleton, List.map_singleton, String.intercalate_singleton]
    exact lexTo_expression (hv _ (by simp))
  | e :: e' :: exps, _, hv => by
    have ih := lexTo_expressions (e' :: exps) (by simp)
      fun r hr => hv r (by rw [List.map_cons]; exact List.mem_cons_of_mem _ hr)
    simp only [expressionsText, List.map_cons] at ih ⊢
    rw [String.intercalate_cons_cons, String.toList_append, String.toList_append]
    have h := (lexTo_expression (hv e.requirement (by simp))).comma ih.blank
    rw [List.append_assoc]
    exact h

/-- An encoded `matchLabels` part is empty only for an empty dictionary. -/
theorem replaceEncodedCharacters_eq_empty {d : Labels} :
    replaceEncodedCharacters d = "" ↔ d.items = [] := by
  rw [replaceEncodedCharacters_eq]
  constructor
  · intro h
    cases hd : d.items with
    | nil => rfl
    | cons e items =>
      have heq : '=' ∈ (",".intercalate ((e :: items).map encodedItem)).toList := by
        cases items with
        | nil => simp [encodedItem]
        | cons e' items => simp [encodedItem, String.intercalate_cons_cons]
      rw [← hd, h] at heq
      exact absurd heq (by decide)
  · intro h
    rw [h]
    rfl

/-- **Labels and expressions together.** The query of a dictionary that has been
encoded reads as its items followed by the expressions. -/
theorem queryReads_text (d : Labels) (exps : Option (List Expression))
    (hv : ∀ r ∈ d.items.map labelRequirement ++ (exps.getD []).map Expression.requirement,
      r.Valid) :
    QueryReads (addExpressions (.text (replaceEncodedCharacters d)) exps).format
      (d.items.map labelRequirement ++ (exps.getD []).map Expression.requirement) := by
  have hvl : ∀ r ∈ d.items.map labelRequirement, r.Valid :=
    fun r hr => hv r (List.mem_append_left _ hr)
  have hve : ∀ r ∈ (exps.getD []).map Expression.requirement, r.Valid :=
    fun r hr => hv r (List.mem_append_right _ hr)
  have hdec : Percent.Decodes (replaceEncodedCharacters d).toList (labelsText d.items).toList := by
    rw [replaceEncodedCharacters_eq]
    exact decodes_labels d.items
  have hlabels : lex [] (labelsText d.items).toList = reqsToks (d.items.map labelRequirement) := by
    by_cases hd : d.items = []
    · rw [hd]
      rfl
    · exact (lexTo_labels d.items hd hvl).lex
  by_cases hnone : exps.getD [] = []
  · -- no expressions: the query is the encoded dictionary
    have hadd : addExpressions (.text (replaceEncodedCharacters d)) exps
        = .text (replaceEncodedCharacters d) := by
      match exps, hnone with
      | none, _ => rfl
      | some [], _ => rfl
    rw [hadd, hnone, List.map_nil, List.append_nil]
    exact ⟨labelsText d.items, hdec.queryUnescape, hlabels⟩
  · obtain ⟨es, rfl⟩ : ∃ es, exps = some es := by
      cases exps with
      | none => exact absurd rfl hnone
      | some es => exact ⟨es, rfl⟩
    have hne : es ≠ [] := hnone
    have hexps := lexTo_expressions es hne hve
    obtain ⟨e, es', rfl⟩ := List.exists_cons_of_ne_nil hne
    by_cases hd : d.items = []
    · -- popping the only label leaves an empty text: the expressions stand alone
      have hempty := replaceEncodedCharacters_eq_empty.mpr hd
      refine ⟨expressionsText (e :: es'), ?_, ?_⟩
      · simp only [addExpressions, LabelsArg.truthy, hempty]
        exact (Percent.decodes_quote _).queryUnescape
      · rw [hd]
        exact hexps.lex
    · have hfull : replaceEncodedCharacters d ≠ "" :=
        fun h => hd (replaceEncodedCharacters_eq_empty.mp h)
      have hcomma := (lexTo_labels d.items hd hvl).comma hexps
      refine ⟨labelsText d.items ++ ("," ++ expressionsText (e :: es')), ?_, ?_⟩
      · simp only [addExpressions, LabelsArg.truthy, LabelsArg.format, hfull, ne_eq,
          not_false_eq_true, decide_true, if_true]
        refine Percent.Decodes.queryUnescape ?_
        rw [String.toList_append, String.toList_append]
        exact hdec.append (Percent.decodes_quote _)
      · rw [String.toList_append, String.toList_append,
          reqsToks_append (by simpa using hd) (by simp)]
        exact hcomma.lex

/-- Without a dictionary to encode, the expressions are the whole query. -/
theorem queryReads_expressions {labels : LabelsArg} (hl : labels.truthy = false)
    {exps : List Expression} (hne : exps ≠ [])
    (hv : ∀ r ∈ exps.map Expression.requirement, r.Valid) :
    QueryReads (addExpressions labels (some exps)).format (exps.map Expression.requirement) := by
  have hexps := lexTo_expressions exps hne hv
  obtain ⟨e, es, rfl⟩ := List.exists_cons_of_ne_nil hne
  refine ⟨expressionsText (e :: es), ?_, hexps.lex⟩
  simp only [addExpressions, hl]
  exact (Percent.decodes_quote _).queryUnescape

/-! ## Listing by a selector -/

theorem LabelSelector.mem_popHash_labelItems {s : LabelSelector} {e : String × String} :
    e ∈ s.popHash.labelItems ↔ e ∈ s.labelItems ∧ e.1 ≠ podTemplateHash := by
  obtain ⟨ml, me⟩ := s
  cases ml with
  | none => simp [LabelSelector.labelItems, LabelSelector.popHash]
  | some d => exact Dict.mem_items_erase

@[simp] theorem LabelSelector.popHash_expressions (s : LabelSelector) :
    s.popHash.expressions = s.expressions := rfl

@[simp] theorem LabelSelector.popHash_popHash (s : LabelSelector) :
    s.popHash.popHash = s.popHash := by
  obtain ⟨ml, me⟩ := s
  cases ml with
  | none => rfl
  | some d =>
    have h : (d.erase podTemplateHash).erase podTemplateHash = d.erase podTemplateHash :=
      Dict.erase_of_get?_none (d.get?_erase_self podTemplateHash)
    exact congrArg (fun l => LabelSelector.mk (some l) me) h

theorem LabelSelector.mem_popHash_requirements {s : LabelSelector} {r : Requirement}
    (h : r ∈ s.popHash.requirements) : r ∈ s.requirements := by
  rcases List.mem_append.mp h with h | h
  · obtain ⟨e, he, rfl⟩ := List.mem_map.mp h
    exact List.mem_append_left _ (List.mem_map_of_mem (mem_popHash_labelItems.mp he).1)
  · exact List.mem_append_right _ h

/-- Only value lists can be refused, so dropping a label changes nothing. -/
theorem LabelSelector.acceptable_iff {s : LabelSelector} :
    s.acceptable = true ↔ ∀ e ∈ s.expressions, e.requirement.acceptable = true := by
  unfold LabelSelector.acceptable LabelSelector.requirements
  rw [List.all_append, Bool.and_eq_true, List.all_eq_true, List.all_eq_true]
  simp only [List.mem_map, forall_exists_index, and_imp, forall_apply_eq_imp_iff₂]
  exact ⟨And.right, fun h => ⟨fun _ _ => rfl, h⟩⟩

theorem LabelSelector.popHash_acceptable (s : LabelSelector) :
    s.popHash.acceptable = s.acceptable :=
  Bool.eq_iff_iff.mpr
    ((acceptable_iff (s := s.popHash)).trans (acceptable_iff (s := s)).symm)

/-- The selector objects the list functions are called with: admitted ones, also
after `get_pods` has popped a label, with something left to render. -/
structure LabelSelector.Renderable (s : LabelSelector) : Prop where
  valid : ∀ r ∈ s.requirements, r.Valid
  nonempty : s.labelItems ≠ [] ∨ s.expressions ≠ []

theorem LabelSelector.Admitted.renderable {s : LabelSelector} (h : s.Admitted)
    (hne : s ≠ LabelSelector.none) : s.Renderable := by
  refine ⟨h.valid, ?_⟩
  obtain ⟨ml, me⟩ := s
  cases ml with
  | some d => exact .inl (h.labels_ne d rfl)
  | none =>
    cases me with
    | none => exact absurd rfl hne
    | some es => exact .inr fun hes => h.expressions_ne (congrArg some hes)

/-- The two list functions differ in what they do to a non-empty dictionary
before they encode it. -/
theorem queryReads_render (prepare : Labels → Labels) {s : LabelSelector} (hs : s.Renderable)
    (hp : ∀ d e, e ∈ (prepare d).items → e ∈ d.items)
    (hempty : ∀ d : Labels, d.items = [] → (prepare d).items = []) :
    QueryReads (addExpressions (labelsPart prepare s.matchLabels) s.matchExpressions).format
      ((s.matchLabels.elim [] fun d => (prepare d).items.map labelRequirement)
        ++ s.expressions.map Expression.requirement) := by
  obtain ⟨ml, me⟩ := s
  obtain ⟨hvalid, hne⟩ := hs
  have hve : ∀ r ∈ (me.getD []).map Expression.requirement, r.Valid :=
    fun r hr => hvalid r (List.mem_append_right _ hr)
  have hexps : ∀ labels : LabelsArg, labels.truthy = false → me.getD [] ≠ [] →
      QueryReads (addExpressions labels me).format ((me.getD []).map Expression.requirement) := by
    intro labels hl hme
    cases me with
    | none => exact absurd rfl hme
    | some es => exact queryReads_expressions hl hme hve
  cases ml with
  | none => exact hexps .missing rfl (hne.resolve_left fun h => h rfl)
  | some d =>
    by_cases hd : d.items = []
    · have hpart : labelsPart prepare (some d) = .emptyDict := if_pos hd
      simp only [hpart, Option.elim_some, hempty d hd, List.map_nil, List.nil_append]
      exact hexps .emptyDict rfl (hne.resolve_left fun h => h hd)
    · have hpart : labelsPart prepare (some d) = .text (replaceEncodedCharacters (prepare d)) :=
        if_neg hd
      simp only [hpart, Option.elim_some]
      refine queryReads_text (prepare d) me fun r hr => ?_
      rcases List.mem_append.mp hr with hr | hr
      · obtain ⟨e, he, rfl⟩ := List.mem_map.mp hr
        exact hvalid _ (List.mem_append_left _ (List.mem_map_of_mem (hp d e he)))
      · exact hve r hr

theorem podsQuery_reads {s : LabelSelector} (hs : s.Renderable) :
    QueryReads (podsQuery s) s.popHash.requirements := by
  have h := queryReads_render (·.erase podTemplateHash) hs
    (fun d e he => (Dict.mem_items_erase.mp he).1) fun d hd => by simp [hd]
  obtain ⟨ml, me⟩ := s
  cases ml <;> exact h

theorem namespacesQuery_reads {s : LabelSelector} (hs : s.Renderable) :
    QueryReads (namespacesQuery s) s.requirements := by
  have h := queryReads_render id hs (fun _ _ he => he) fun _ hd => hd
  obtain ⟨ml, me⟩ := s
  cases ml <;> exact h

/-- **What `get_pods` lists**: the pods the selector selects once the label is
popped, or an error when the server refuses a value list. -/
theorem getPods_eq (c : Cluster) {s : LabelSelector} (hs : s.Renderable) (ns : Option String) :
    getPods c s ns =
      if s.acceptable then .ok ((c.podsIn ns).filter fun p => s.popHash.Selects p.labels)
      else .error .badRequest := by
  have hread := (podsQuery_reads hs).readQuery
    fun r hr => hs.valid r (LabelSelector.mem_popHash_requirements hr)
  unfold getPods Cluster.listPods
  cases hacc : s.acceptable with
  | true =>
    obtain ⟨rs, hok, hm⟩ := hread.1 (s.popHash_acceptable.trans hacc)
    rw [hok]
    simp only [Except.map, hm, if_true]
    rfl
  | false =>
    rw [hread.2 (s.popHash_acceptable.trans hacc)]
    rfl

/-- **What `get_namespaces` lists.** -/
theorem getNamespaces_eq (c : Cluster) {s : LabelSelector} (hs : s.Renderable) :
    getNamespaces c s =
      if s.acceptable then .ok (c.namespaces.filter fun n => s.Selects n.labels)
      else .error .badRequest := by
  have hread := (namespacesQuery_reads hs).readQuery hs.valid
  unfold getNamespaces Cluster.listNamespaces
  cases hacc : s.acceptable with
  | true =>
    obtain ⟨rs, hok, hm⟩ := hread.1 hacc
    rw [hok]
    simp only [Except.map, hm, if_true]
    rfl
  | false =>
    rw [hread.2 hacc]
    rfl

/-- The empty selector is formatted as the text `None`, which the server reads as
the existence of a label of that name. -/
theorem getPods_none (c : Cluster) (ns : Option String) :
    getPods c LabelSelector.none ns = .ok ((c.podsIn ns).filter fun p =>
      ((p.labels.getD Dict.empty).get? "None").isSome) := by
  have hread : readQuery "None" = .ok [⟨"None", .exists, []⟩] := by decide
  have hq : podsQuery LabelSelector.none = "None" := rfl
  unfold getPods Cluster.listPods
  rw [hq, hread]
  simp only [Except.map, Except.ok.injEq]
  refine List.filter_congr fun p _ => ?_
  cases h : (p.labels.getD Dict.empty).get? "None" <;> simp [matchesAll, Requirement.Matches, h]

/-- A selector whose only label has been popped renders as an empty dictionary,
which the server refuses. -/
theorem getPods_emptied (c : Cluster) {s : LabelSelector} (hl : s.matchLabels = some Dict.empty)
    (he : s.expressions = []) (ns : Option String) : getPods c s ns = .error .badRequest := by
  obtain ⟨ml, me⟩ := s
  cases hl
  have hread : readQuery "\x7b\x7d" = .error .badRequest := by decide
  have hq : podsQuery ⟨some Dict.empty, me⟩ = "\x7b\x7d" := by
    match me, he with
    | none, _ => rfl
    | some [], _ => rfl
  unfold getPods Cluster.listPods
  rw [hq, hread]
  rfl

/-- Popping the label a second time sends the same query, unless the label was all there
was to send. -/
theorem podsQuery_popHash {s : LabelSelector}
    (h : s.labelItems = [] ∨ s.popHash.labelItems ≠ [] ∨ s.expressions ≠ []) :
    podsQuery s.popHash = podsQuery s := by
  obtain ⟨ml, me⟩ := s
  cases ml with
  | none => rfl
  | some d =>
    show (addExpressions (labelsPart _ (some (d.erase podTemplateHash))) me).format =
      (addExpressions (labelsPart _ (some d)) me).format
    by_cases hd : d.items = []
    · have hsame : d.erase podTemplateHash = d :=
        Dict.erase_of_get?_none (Dict.get?_eq_none.mpr (by simp [Dict.keys, hd]))
      rw [hsame]
    · rw [labelsPart, labelsPart, if_neg hd]
      by_cases hleft : (d.erase podTemplateHash).items = []
      · -- without a label left, both calls send the expressions alone
        rw [if_pos hleft, replaceEncodedCharacters_eq_empty.mpr hleft]
        have hexps : me.getD [] ≠ [] := (h.resolve_left hd).resolve_left (not_not.mpr hleft)
        cases me with
        | none => exact absurd rfl hexps
        | some exps =>
          obtain ⟨e, es, rfl⟩ := List.exists_cons_of_ne_nil hexps
          rfl
      · rw [if_neg hleft, Dict.erase_of_get?_none (d.get?_erase_self podTemplateHash)]

theorem getPods_popHash {c : Cluster} {s : LabelSelector}
    (h : s.labelItems = [] ∨ s.popHash.labelItems ≠ [] ∨ s.expressions ≠ []) (ns : Option String) :
    getPods c s.popHash ns = getPods c s ns := by
  unfold getPods
  rw [podsQuery_popHash h]

/-- A request that succeeds with the popped selector gives the same pods as the one
before. -/
theorem getPods_of_popHash {c : Cluster} {s : LabelSelector} {ns : Option String} {l : List Pod}
    (h : getPods c s.popHash ns = .ok l) : getPods c s ns = .ok l := by
  by_cases hsafe : s.labelItems = [] ∨ s.popHash.labelItems ≠ [] ∨ s.expressions ≠ []
  · rwa [getPods_popHash hsafe] at h
  · -- nothing is left of the selector: the second request is refused
    obtain ⟨hitems, hleft, hexps⟩ : s.labelItems ≠ [] ∧ s.popHash.labelItems = [] ∧
        s.expressions = [] := by simpa using hsafe
    obtain ⟨ml, me⟩ := s
    cases ml with
    | none => exact absurd rfl hitems
    | some d =>
      have hgone : (LabelSelector.popHash ⟨some d, me⟩).matchLabels = some Dict.empty :=
        congrArg some (Dict.ext hleft)
      rw [getPods_emptied c hgone hexps] at h
      cases h

/-- The pods listed in a namespace are pods of it. -/
theorem mem_podsIn_of_getPods {c : Cluster} {s : LabelSelector} {ns : Option String} {l : List Pod}
    {p : Pod} (h : getPods c s ns = .ok l) (hp : p ∈ l) : p ∈ c.podsIn ns := by
  unfold getPods Cluster.listPods at h
  cases hq : readQuery (podsQuery s) with
  | error e => rw [hq] at h; cases h
  | ok rs =>
    rw [hq] at h
    cases h
    exact List.mem_of_mem_filter hp

/-! ## Client against server -/

/-- The two sides agree on a pod: the request succeeds, and lists the pod exactly
when the client matches its labels. -/
def Agrees (c : Cluster) (s : LabelSelector) (p : Pod) : Prop :=
  ∃ pods, getPods c s (some p.ns) = .ok pods ∧
    (matchSelector (some s) p.labels = true ↔ p ∈ pods)

/-- When they do. The empty selector asks the server for a label named `None`.
For any other selector, the server has to accept the value lists, and where it
selects the pod the client must not stumble over an empty value, or over a
`pod-template-hash` that was not sent. -/
def LabelSelector.Agreeable (s : LabelSelector) (labels : Option Labels) : Prop :=
  if s = LabelSelector.none then ((labels.getD Dict.empty).get? "None").isSome = true
  else s.acceptable = true ∧
    (s.popHash.Selects labels = true → ∀ e ∈ s.labelItems,
      e.2 ≠ "" ∧ (e.1 = podTemplateHash → (labels.getD Dict.empty).get? e.1 = some e.2))

theorem mem_podsIn {c : Cluster} {p : Pod} (h : p ∈ c.pods) : p ∈ c.podsIn (some p.ns) :=
  List.mem_filter.mpr ⟨h, by simp⟩

/-- **Agreement of the two evaluators**, exactly. -/
theorem getPods_agrees_iff (c : Cluster) (s : LabelSelector) (hs : s.Admitted) (p : Pod)
    (hp : p ∈ c.pods) : Agrees c s p ↔ s.Agreeable p.labels := by
  unfold Agrees LabelSelector.Agreeable
  by_cases hnone : s = LabelSelector.none
  · subst hnone
    rw [if_pos rfl, getPods_none]
    have hmatch : matchSelector (some LabelSelector.none) p.labels = true := rfl
    simp [hmatch, mem_podsIn hp]
  · rw [if_neg hnone, getPods_eq c (hs.renderable hnone)]
    by_cases hacc : s.acceptable = true
    · rw [if_pos hacc]
      have hsub : matchSelector (some s) p.labels = true → s.popHash.Selects p.labels = true := by
        intro h
        obtain ⟨hl, he⟩ := matchSelector_eq.mp h
        refine selects_iff.mpr ⟨fun e hmem => ?_, he⟩
        exact (hl e (LabelSelector.mem_popHash_labelItems.mp hmem).1).1
      simp only [Except.ok.injEq, exists_eq_left', List.mem_filter, mem_podsIn hp, true_and, hacc]
      constructor
      · intro h hsel e he
        have hm := (matchSelector_eq.mp (h.mpr hsel)).1 e he
        exact ⟨hm.2, fun _ => hm.1⟩
      · intro h
        refine ⟨hsub, fun hsel => matchSelector_eq.mpr ⟨fun e he => ?_, (selects_iff.mp hsel).2⟩⟩
        refine ⟨?_, (h hsel e he).1⟩
        by_cases hk : e.1 = podTemplateHash
        · exact (h hsel e he).2 hk
        · exact (selects_iff.mp hsel).1 e (LabelSelector.mem_popHash_labelItems.mpr ⟨he, hk⟩)
    · rw [if_neg hacc]
      simp [hacc]

/-- A pod with one container port and the given labels. -/
def podWith (labels : Option Labels) : Pod where
  name := "web-0"
  ns := "shop"
  labels := labels
  podIP := some "10.0.0.5"
  kuryrPortIP := some "10.0.0.5"
  hostNetwork := false
  containers := [[⟨some "http", 8080⟩]]
  containers_ne := by decide

/-- A cluster with that pod only. -/
def clusterWith (labels : Option Labels) : Cluster where
  namespaces := [⟨"shop", none, ["kubernetes"], some "10.0.0.0/24"⟩]
  pods := [podWith labels]
  services := []
  namespaces_nodup := by decide
  pods_nodup := by simp
  pods_namespaced := by
    intro p hp
    rw [List.mem_singleton.mp hp]
    exact List.mem_singleton.mpr rfl
  services_namespaced := fun _ hs => absurd hs (by simp)

/-- The labels `app: web`. -/
def webLabels : Labels := ⟨[("app", "web")], by decide⟩

/-- The selector of `app: web`. -/
def webSelector : LabelSelector := ⟨some webLabels, none⟩

theorem webSelector_admitted : webSelector.Admitted where
  valid := by
    intro r hr
    obtain rfl : r = ⟨"app", .equals, ["web"]⟩ := List.mem_singleton.mp hr
    exact ⟨by decide, by decide, ⟨"web", rfl⟩⟩
  labels_ne := by
    intro d hd
    cases hd
    decide
  expressions_ne := by decide

theorem getPods_agrees_web :
    Agrees (clusterWith (some webLabels)) webSelector (podWith (some webLabels)) :=
  (getPods_agrees_iff _ webSelector webSelector_admitted _ (by simp [clusterWith])).mpr (by
    refine (if_neg (by decide)).mpr ⟨by decide, fun _ e he => ?_⟩
    obtain rfl : e = ("app", "web") := List.mem_singleton.mp he
    exact ⟨by decide, by decide⟩)

/-- The empty selector selects every pod, yet the server lists none without a label
named `None`. -/
theorem getPods_disagrees_on_empty_selector :
    ¬ Agrees (clusterWith (some webLabels)) LabelSelector.none (podWith (some webLabels)) := by
  rintro ⟨pods, hpods, hiff⟩
  rw [getPods_none] at hpods
  have hlisted := hiff.mp rfl
  cases hpods
  exact absurd hlisted (by decide)

end KuryrKubernetes
