import KuryrKubernetes.Handlers.KuryrPort
import KuryrKubernetes.Lib.Json
import KuryrKubernetes.Lib.LabelSelector

/-!
# The additional networks of a pod

`NPWGMultiVIFDriver` (`controller/drivers/multi_vif.py`) once more: what the annotation
says (`_get_networks`), and which definition each of its entries is resolved to. The
namespace of an entry stays in force for the entries behind it, and the short form of an
annotation is told from JSON by its failing to parse.

- `getNetworks`: JSON where the text parses as such, else names between commas.
- `Independent`: each entry is resolved by itself, whatever the outcome of the requests,
  so that the order of the entries does not matter.
- `additional_networks_iff`: exactly which lists of networks are resolved entry by entry,
  and exactly which lists are read back from their short form.
-/

namespace KuryrKubernetes

open JsonText

namespace MultiVif

/-! ## The annotation -/

/-- One network of the short form, `namespace/name` or `name` (multi_vif.py:108–116). -/
def netDetails (net : Text) : Except Exc Value :=
  match net.splitOn '/' with
  | [name] => .ok (.obj [(codes "name".toList, .str (codes name))])
  | [ns, name] =>
    .ok (.obj [(codes "namespace".toList, .str (codes ns)),
      (codes "name".toList, .str (codes name))])
  | _ => .error .annotationInvalid

/-- The networks of the short form. -/
def shortNetworks : List Text → Except Exc (List Value)
  | [] => .ok []
  | net :: rest => do
    let value ← netDetails net
    let values ← shortNetworks rest
    return value :: values

/-- `_get_networks` (multi_vif.py:93–117). Without the annotation there is none. -/
def getNetworks : Option Text → Except Exc Value
  | none => .ok (.arr [])
  | some text =>
    match loads text with
    | some networks => .ok networks
    | none => (shortNetworks (text.splitOn ',')).map .arr

/-! ## Entries with valid names -/

/-- A namespace. -/
structure NamespaceName where
  text : Text
  valid : LabelSelectors.isDnsLabel text = true ∧ text.length ≤ 63

/-- The name of a network attachment definition. -/
structure DefinitionName where
  text : Text
  valid : LabelSelectors.isDnsSubdomain text = true

/-- An entry of the annotation. -/
structure Entry where
  ns : Option NamespaceName
  name : DefinitionName

/-- The short form of an entry. -/
def Entry.short (e : Entry) : Text :=
  match e.ns with
  | none => e.name.text
  | some ns => ns.text ++ '/' :: e.name.text

/-- The short form of an annotation. -/
def shortForm (entries : List Entry) : Text := [','].intercalate (entries.map Entry.short)

/-- The entry as a dictionary. -/
def Entry.value (e : Entry) : Value :=
  match e.ns with
  | none => .obj [(codes "name".toList, .str (codes e.name.text))]
  | some ns =>
    .obj [(codes "namespace".toList, .str (codes ns.text)),
      (codes "name".toList, .str (codes e.name.text))]

theorem NamespaceName.dnsChar (ns : NamespaceName) {c : Char} (hc : c ∈ ns.text) :
    LabelSelectors.dnsChar c = true := by
  have h := ns.valid.1
  simp only [LabelSelectors.isDnsLabel, Bool.and_eq_true, List.all_eq_true] at h
  exact h.1.1 c hc

theorem DefinitionName.dnsChar (name : DefinitionName) {c : Char} (hc : c ∈ name.text) :
    LabelSelectors.dnsChar c = true ∨ c = '.' := by
  have h := name.valid
  simp only [LabelSelectors.isDnsSubdomain, Bool.and_eq_true, List.all_eq_true, Bool.or_eq_true,
    decide_eq_true_eq] at h
  exact h.1.2 c hc

/-- A character of a short form. -/
def shortChar (c : Char) : Bool :=
  LabelSelectors.dnsChar c || c = '.' || c = '/' || c = ','

theorem isPlain_of_shortChar {c : Char} (h : shortChar c = true) : isPlain c = true := by
  by_contra hc
  simp only [isPlain, isWs, Bool.and_eq_true, Bool.not_eq_true', Bool.or_eq_false_iff,
    decide_eq_false_iff_not, bne_iff_ne, not_and_or, not_not] at hc
  -- white space, a quote, a bracket or a brace
  rcases hc with ((((((rfl | rfl) | rfl) | rfl) | rfl) | rfl) | rfl) <;> revert h <;> decide

/-- A character of an entry that separates none. -/
theorem not_mem_of_dns {l : Text} {x : Char}
    (hl : ∀ c ∈ l, LabelSelectors.dnsChar c = true ∨ c = '.')
    (hx : ¬ (LabelSelectors.dnsChar x = true ∨ x = '.')) : x ∉ l := fun h => hx (hl x h)

theorem slash_not_mem_name (name : DefinitionName) : '/' ∉ name.text :=
  not_mem_of_dns (fun _ hc => name.dnsChar hc) (by decide)

theorem slash_not_mem_ns (ns : NamespaceName) : '/' ∉ ns.text :=
  not_mem_of_dns (fun _ hc => .inl (ns.dnsChar hc)) (by decide)

theorem Entry.shortChar (e : Entry) {c : Char} (hc : c ∈ e.short) :
    LabelSelectors.dnsChar c = true ∨ c = '.' ∨ c = '/' := by
  unfold Entry.short at hc
  split at hc
  · exact (e.name.dnsChar hc).imp_right .inl
  · next ns _ =>
    rcases List.mem_append.mp hc with hc | hc
    · exact .inl (ns.dnsChar hc)
    · rcases List.mem_cons.mp hc with rfl | hc
      · exact .inr (.inr rfl)
      · exact (e.name.dnsChar hc).imp_right .inl

theorem comma_not_mem_short (e : Entry) : ',' ∉ e.short := by
  intro h
  have := e.shortChar h
  revert this
  decide

/-- **An entry is read back from its short form.** -/
theorem netDetails_short (e : Entry) : netDetails e.short = .ok e.value := by
  unfold netDetails Entry.short Entry.value
  cases e.ns with
  | none =>
    have hsplit : e.name.text.splitOn '/' = [e.name.text] :=
      List.splitOn_eq_singleton (slash_not_mem_name e.name)
    simp only [hsplit]
  | some ns =>
    have hsplit : (ns.text ++ '/' :: e.name.text).splitOn '/' = [ns.text, e.name.text] := by
      rw [List.splitOn_append_cons_self_of_not_mem (slash_not_mem_ns ns),
        List.splitOn_eq_singleton (slash_not_mem_name e.name)]
    simp only [hsplit]

theorem shortNetworks_short :
    ∀ entries : List Entry, shortNetworks (entries.map Entry.short) = .ok (entries.map Entry.value)
  | [] => rfl
  | e :: rest => by
    rw [List.map_cons, shortNetworks, netDetails_short, shortNetworks_short rest]
    rfl

theorem shortChar_of_mem {entries : List Entry} {c : Char} (hc : c ∈ shortForm entries) :
    shortChar c = true := by
  have key : ∀ l : List Text, (∀ t ∈ l, ∀ x ∈ t, MultiVif.shortChar x = true) →
      ∀ x ∈ [','].intercalate l, MultiVif.shortChar x = true := by
    intro l
    induction l with
    | nil => simp
    | cons t l ih =>
      intro h x hx
      cases l with
      | nil => exact h t List.mem_cons_self x (by simpa using hx)
      | cons u l =>
        rw [List.intercalate_cons_cons] at hx
        rcases List.mem_append.mp hx with hx | hx
        · rcases List.mem_append.mp hx with hx | hx
          · exact h t List.mem_cons_self x hx
          · rw [List.mem_singleton.mp hx]
            rfl
        · exact ih (fun t ht => h t (List.mem_cons_of_mem _ ht)) x hx
  refine key _ (fun t ht x hx => ?_) c hc
  obtain ⟨e, -, rfl⟩ := List.mem_map.mp ht
  rcases e.shortChar hx with h | rfl | rfl
  · simp [MultiVif.shortChar, h]
  · rfl
  · rfl

/-! ## Which short forms are read back -/

/-- A text with a separator in it is no scalar. -/
theorem isScalar_eq_false {t : Text} (h : ',' ∈ t ∨ '/' ∈ t) : isScalar t = false := by
  by_contra hs
  rw [Bool.not_eq_false] at hs
  rcases h with h | h
  · exact absurd (mem_of_isScalar hs h) (by decide)
  · exact absurd (mem_of_isScalar hs h) (by decide)

/-- **Text that is no scalar is read as the short form it is.** -/
theorem getNetworks_short {entries : List Entry} (hne : entries ≠ [])
    (h : isScalar (shortForm entries) = false) :
    getNetworks (some (shortForm entries)) = .ok (.arr (entries.map Entry.value)) := by
  have hplain : ∀ c ∈ shortForm entries, isPlain c = true :=
    fun c hc => isPlain_of_shortChar (shortChar_of_mem hc)
  have hloads : loads (shortForm entries) = none := by
    rw [loads_plain hplain]
    cases hs : scalar (shortForm entries) with
    | none => rfl
    | some x =>
      have hrest : x.2 ≠ [] := fun hnil => by
        rw [scalar_all.mp ⟨x.1, by rw [hs, ← hnil]⟩] at h
        cases h
      exact if_neg hrest
  have hsplit : (shortForm entries).splitOn ',' = entries.map Entry.short :=
    List.splitOn_intercalate _ (fun l hl => by
      obtain ⟨e, -, rfl⟩ := List.mem_map.mp hl
      exact comma_not_mem_short e) (by simpa using hne)
  rw [getNetworks, hloads]
  dsimp only
  rw [hsplit, shortNetworks_short]
  rfl

/-- Text that is a scalar is not read as any list. -/
theorem getNetworks_scalar {t : Text} (hplain : ∀ c ∈ t, isPlain c = true)
    (h : isScalar t = true) (values : List Value) : getNetworks (some t) ≠ .ok (.arr values) := by
  obtain ⟨v, hv⟩ := scalar_all.mpr h
  have hloads : loads t = some v := by
    rw [loads_plain hplain, hv]
    rfl
  rw [getNetworks, hloads]
  intro heq
  exact scalar_ne_arr hv values (Except.ok.inj heq)

theorem shortForm_name (name : DefinitionName) : shortForm [⟨none, name⟩] = name.text := by
  simp [shortForm, Entry.short]

/-- The empty text is an entry without a name. -/
theorem getNetworks_nil :
    getNetworks (some []) = .ok (.arr [.obj [(codes "name".toList, .str [])]]) := by
  have hloads : loads [] = none := loads_plain (by simp)
  rw [getNetworks, hloads]
  rfl

/-- **Exactly which lists are read back from their short form**: the ones with an entry,
unless they are a single name that is a word or a number of JSON. -/
theorem getNetworks_shortForm_iff (entries : List Entry) :
    getNetworks (some (shortForm entries)) = .ok (.arr (entries.map Entry.value)) ↔
      entries ≠ [] ∧ ∀ name, entries = [⟨none, name⟩] → isScalar name.text = false := by
  constructor
  · intro h
    refine ⟨?_, ?_⟩
    · rintro rfl
      have hnil : shortForm [] = [] := rfl
      rw [hnil, getNetworks_nil] at h
      cases h
    · rintro name rfl
      by_contra hs
      rw [Bool.not_eq_false, ← shortForm_name] at hs
      exact getNetworks_scalar (fun c hc => isPlain_of_shortChar (shortChar_of_mem hc)) hs _ h
  · rintro ⟨hne, h⟩
    refine getNetworks_short hne ?_
    -- a comma or a slash rules a scalar out, so only a single bare name can be one
    match entries, hne, h with
    | [⟨none, name⟩], _, h => exact (congrArg isScalar (shortForm_name name)).trans (h name rfl)
    | [⟨some ns, name⟩], _, _ => exact isScalar_eq_false (.inr (by simp [shortForm, Entry.short]))
    | e :: e' :: rest, _, _ =>
      exact isScalar_eq_false (.inl (by simp [shortForm, List.intercalate_cons_cons]))

/-! ## Reading the entries -/

/-- A text of JSON. -/
def textOf (cs : List Nat) : String := String.ofList (cs.map Char.ofNat)

/-- The value under a key of a dictionary; the last one counts. -/
def field? (key : Text) (fields : List (List Nat × Value)) : Option Value :=
  (fields.reverse.find? fun f => f.1 = codes key).map (·.2)

/-- The dictionary of an entry. What is no text is formatted into the path by `fmt`. -/
def readNetwork (fmt : Value → String) : Value → Option Network
  | .obj fields => some ⟨(field? "name".toList fields).map text,
    (field? "namespace".toList fields).map text⟩
  | _ => none
where
  text : Value → String
  | .str cs => textOf cs
  | v => fmt v

/-- The entries of a list of dictionaries. -/
def readNetworks (fmt : Value → String) : Value → Option (List Network)
  | .arr values => values.mapM (readNetwork fmt)
  | _ => none

theorem textOf_codes (t : Text) : textOf (codes t) = String.ofList t := by
  rw [textOf, codes, List.map_map]
  congr 1
  exact (List.map_congr_left fun c _ => Char.ofNat_toNat c).trans (List.map_id t)

/-- The entry as the driver reads it. -/
def Entry.network (e : Entry) : Network :=
  ⟨some (String.ofList e.name.text), e.ns.map fun ns => String.ofList ns.text⟩

theorem readNetwork_value (fmt : Value → String) (e : Entry) :
    readNetwork fmt e.value = some e.network := by
  obtain ⟨ns, name⟩ := e
  cases ns with
  | none =>
    have hname : textOf (codes name.text) = String.ofList name.text := textOf_codes _
    simp only [readNetwork, Entry.value, Entry.network, Option.map_none]
    rw [← hname]
    rfl
  | some ns =>
    have hname : textOf (codes name.text) = String.ofList name.text := textOf_codes _
    have hns : textOf (codes ns.text) = String.ofList ns.text := textOf_codes _
    simp only [readNetwork, Entry.value, Entry.network, Option.map_some]
    rw [← hname, ← hns]
    rfl

theorem readNetworks_values (fmt : Value → String) (entries : List Entry) :
    readNetworks fmt (.arr (entries.map Entry.value)) = some (entries.map Entry.network) := by
  rw [readNetworks]
  induction entries with
  | nil => rfl
  | cons e rest ih =>
    rw [List.map_cons, List.mapM_cons, readNetwork_value, ih]
    rfl

/-- **What the driver works on when it is given the short form.** -/
theorem networks_of_short (fmt : Value → String) {entries : List Entry} (hne : entries ≠ [])
    (h : isScalar (shortForm entries) = false) :
    (getNetworks (some (shortForm entries))).map (readNetworks fmt) =
      .ok (some (entries.map Entry.network)) := by
  rw [getNetworks_short hne h, ← readNetworks_values fmt]
  rfl

/-! ## The definitions that are looked up -/

end MultiVif

/-- The definitions the loop asks for: namespace and name (multi_vif.py:51–60). -/
def NpwgNetworks.lookupsFrom (env : NpwgNetworks) :
    Nat → String → List Network → List (String × String)
  | _, _, [] => []
  | n, ns, network :: rest =>
    let ns := network.ns.getD ns
    match network.name with
    | none => []
    | some name =>
      (ns, name) :: match env.requestNetwork n ns network with
        | .error _ => []
        | .ok _ => env.lookupsFrom (n + 1) ns rest

/-- The definitions `request_additional_vifs` asks for. -/
def NpwgNetworks.lookups (env : NpwgNetworks) : List (String × String) :=
  match env.networks with
  | .error _ => []
  | .ok networks => env.lookupsFrom 0 env.ns networks

namespace MultiVif

/-- An entry of the annotation, with what `request_vif` answers when it is its turn. -/
structure Request where
  ns : Option String
  name : String
  answer : Option String → String → Except Exc (Option Vif)

def Request.network (r : Request) : Network := ⟨some r.name, r.ns⟩

/-- The entry of a request. -/
def Request.entry (r : Request) : Option String × String := (r.ns, r.name)

/-- A driver that finds some entries in the annotation. -/
def serving (env : NpwgNetworks) (requests : List Request) : NpwgNetworks :=
  { env with
    networks := .ok (requests.map Request.network)
    requestVif := fun n driver subnet =>
      match requests[n]? with
      | some r => r.answer driver subnet
      | none => .ok none }

/-- `request_additional_vifs` on some entries. -/
def additionalVifs (env : NpwgNetworks) (requests : List Request) : Except Exc (List Vif) :=
  (MultiVifDriver.npwg (serving env requests)).requestAdditionalVifs.outcome

/-- The definition an entry stands for in a pod of a namespace. -/
def target (ns : String) (entry : Option String × String) : String × String :=
  (entry.1.getD ns, entry.2)

/-- The entries of a pod are resolved each by itself: whatever the definitions and the
answers to the requests, every definition asked for is the one its entry stands for, and
the entries in another order give the same VIFs in another order. -/
structure Independent (ns : String) (entries : List (Option String × String)) : Prop where
  looksUp : ∀ (env : NpwgNetworks) (requests : List Request), env.ns = ns →
    requests.map Request.entry = entries →
      (serving env requests).lookups <+: entries.map (target ns) ∧
        ∀ vifs, additionalVifs env requests = .ok vifs →
          (serving env requests).lookups = entries.map (target ns)
  permutes : ∀ (env : NpwgNetworks) (requests requests' : List Request), env.ns = ns →
    requests.map Request.entry = entries → requests.Perm requests' →
      ∀ vifs, additionalVifs env requests = .ok vifs →
        ∃ vifs', additionalVifs env requests' = .ok vifs' ∧ vifs.Perm vifs'

/-- Either every entry gives a namespace, or every namespace given is that of the pod. -/
def Uniform (ns : String) (entries : List (Option String × String)) : Prop :=
  (∀ e ∈ entries, e.1.isSome) ∨ ∀ e ∈ entries, ∀ n ∈ e.1, n = ns

/-! ## Entries that are resolved by themselves -/

/-- The namespace in force gives the entries left nothing wrong. -/
def Settled (cur ns : String) (entries : List (Option String × String)) : Prop :=
  (∀ e ∈ entries, e.1.isSome) ∨ (cur = ns ∧ ∀ e ∈ entries, ∀ n ∈ e.1, n = ns)

/-- **One entry: it is resolved by itself, and so are the ones behind it.** -/
theorem Settled.step {cur ns : String} {e : Option String × String}
    {rest : List (Option String × String)} (h : Settled cur ns (e :: rest)) :
    e.1.getD cur = e.1.getD ns ∧ Settled (e.1.getD cur) ns rest := by
  rcases h with h | ⟨rfl, h⟩
  · obtain ⟨n, hn⟩ := Option.isSome_iff_exists.mp (h e List.mem_cons_self)
    refine ⟨by rw [hn]; rfl, .inl fun x hx => h x (List.mem_cons_of_mem _ hx)⟩
  · refine ⟨rfl, .inr ⟨?_, fun x hx => h x (List.mem_cons_of_mem _ hx)⟩⟩
    cases hn : e.1 with
    | none => rfl
    | some n => exact h e List.mem_cons_self n hn

/-- What an entry gives by itself. -/
def Request.own (env : NpwgNetworks) (r : Request) : Except Exc (Option Vif) := do
  let config ← env.nad (r.ns.getD env.ns) r.name
  let subnet ← env.getSubnet (env.subnetOf config)
  r.answer config.driverType subnet

/-- The VIFs of some entries, each by itself. -/
def ownVifs (env : NpwgNetworks) : List Request → Except Exc (List Vif)
  | [] => .ok []
  | r :: rest => do
    let vif ← r.own env
    let vifs ← ownVifs env rest
    return vif.toList ++ vifs

theorem requestNetwork_serving (env : NpwgNetworks) (done rest : List Request) (r : Request) :
    (serving env (done ++ r :: rest)).requestNetwork done.length (r.ns.getD env.ns) r.network =
      r.own env := by
  have hget : (done ++ r :: rest)[done.length]? = some r := by simp
  simp only [NpwgNetworks.requestNetwork, Request.network, Request.own, serving, hget]
  rfl

/-- **The loop over settled entries gives what each gives by itself.** -/
theorem loop_settled (env : NpwgNetworks) :
    ∀ (rest done : List Request) (cur : String) (acc : List Vif),
      Settled cur env.ns (rest.map Request.entry) →
        ((serving env (done ++ rest)).loop done.length cur acc (rest.map Request.network)).outcome =
          (ownVifs env rest).map (acc ++ ·)
  | [], done, cur, acc, _ => by
    rw [List.map_nil, NpwgNetworks.loop, ownVifs]
    simp [Except.map]
  | r :: rest, done, cur, acc, h => by
    -- the namespace in force is the one the entry would have by itself
    obtain ⟨hns, hrest⟩ := h.step
    have hns : r.network.ns.getD cur = r.ns.getD env.ns := hns
    have hrest : Settled (r.ns.getD env.ns) env.ns (rest.map Request.entry) := by
      rw [← hns]
      exact hrest
    rw [List.map_cons, NpwgNetworks.loop]
    simp only [hns, requestNetwork_serving]
    rw [ownVifs]
    cases hown : r.own env with
    | error e => rfl
    | ok vif =>
      have ih := loop_settled env rest (done ++ [r]) (r.ns.getD env.ns) (acc ++ vif.toList) hrest
      rw [List.append_assoc, List.singleton_append, List.length_append, List.length_singleton] at ih
      dsimp only
      rw [ih]
      cases ownVifs env rest with
      | error e => rfl
      | ok vifs => simp [Except.map, bind, Except.bind, pure, Except.pure]

/-- **The definitions looked up for settled entries are their own.** -/
theorem lookupsFrom_settled (env : NpwgNetworks) :
    ∀ (rest done : List Request) (cur : String),
      Settled cur env.ns (rest.map Request.entry) →
        let lookups := (serving env (done ++ rest)).lookupsFrom done.length cur
          (rest.map Request.network)
        lookups <+: (rest.map Request.entry).map (target env.ns) ∧
          ∀ vifs, ownVifs env rest = .ok vifs →
            lookups = (rest.map Request.entry).map (target env.ns)
  | [], done, cur, _ => ⟨List.prefix_rfl, fun _ _ => rfl⟩
  | r :: rest, done, cur, h => by
    obtain ⟨hns, hrest⟩ := h.step
    have hns : r.network.ns.getD cur = r.ns.getD env.ns := hns
    have hrest : Settled (r.ns.getD env.ns) env.ns (rest.map Request.entry) := by
      rw [← hns]
      exact hrest
    have ih := lookupsFrom_settled env rest (done ++ [r]) (r.ns.getD env.ns) hrest
    rw [List.append_assoc, List.singleton_append, List.length_append, List.length_singleton] at ih
    have hname : r.network.name = some r.name := rfl
    have htarget : target env.ns r.entry = (r.ns.getD env.ns, r.name) := rfl
    dsimp only
    rw [List.map_cons, List.map_cons, List.map_cons, NpwgNetworks.lookupsFrom, htarget]
    simp only [hns, hname, requestNetwork_serving, ownVifs]
    cases hown : r.own env with
    | error e => exact ⟨⟨_, rfl⟩, fun vifs hvifs => by cases hvifs⟩
    | ok vif =>
      refine ⟨List.cons_prefix_cons.mpr ⟨rfl, ih.1⟩, fun vifs hvifs => ?_⟩
      cases hr : ownVifs env rest with
      | error e =>
        rw [hr] at hvifs
        cases hvifs
      | ok more => rw [ih.2 more hr]

/-- The VIF an entry gives, if it gives one. -/
def Request.gives (env : NpwgNetworks) (r : Request) : List Vif :=
  match r.own env with
  | .ok vif => vif.toList
  | .error _ => []

theorem ownVifs_ok_iff {env : NpwgNetworks} : ∀ {requests : List Request} {vifs : List Vif},
    ownVifs env requests = .ok vifs ↔
      (∀ r ∈ requests, ∃ vif, r.own env = .ok vif) ∧ vifs = requests.flatMap (Request.gives env)
  | [], vifs => by
    rw [ownVifs]
    simp [eq_comm]
  | r :: rest, vifs => by
    rw [ownVifs]
    cases hown : r.own env with
    | error e => simp [hown, bind, Except.bind]
    | ok vif =>
      have hgives : r.gives env = vif.toList := by rw [Request.gives, hown]
      have ih : ∀ vifs, ownVifs env rest = .ok vifs ↔ (∀ r ∈ rest, ∃ vif, r.own env = .ok vif) ∧
          vifs = rest.flatMap (Request.gives env) := fun _ => ownVifs_ok_iff
      cases hrest : ownVifs env rest with
      | error e =>
        -- the first VIF is obtained, but one behind it is not
        have hnot : ¬ ∀ r ∈ rest, ∃ vif, r.own env = .ok vif := fun hall => by
          have hok := (ih _).mpr ⟨hall, rfl⟩
          rw [hrest] at hok
          cases hok
        simp only [bind, Except.bind, List.forall_mem_cons, reduceCtorEq, false_iff]
        exact fun h => hnot h.1.2
      | ok more =>
        obtain ⟨hall, rfl⟩ := (ih more).mp hrest
        simp only [bind, Except.bind, pure, Except.pure, Except.ok.injEq, List.forall_mem_cons,
          List.flatMap_cons, hgives, hown, Except.ok.injEq, exists_eq', true_and]
        exact ⟨fun h => ⟨hall, h.symm⟩, fun h => h.2.symm⟩

theorem Uniform.perm {ns : String} {l l' : List (Option String × String)} (h : Uniform ns l)
    (hp : l.Perm l') : Uniform ns l' := by
  rcases h with h | h
  · exact .inl fun e he => h e (hp.mem_iff.mpr he)
  · exact .inr fun e he => h e (hp.mem_iff.mpr he)

theorem Uniform.settled {ns : String} {l : List (Option String × String)} (h : Uniform ns l) :
    Settled ns ns l := h.imp_right fun h => ⟨rfl, h⟩

theorem additionalVifs_uniform {env : NpwgNetworks} {requests : List Request}
    (h : Uniform env.ns (requests.map Request.entry)) :
    additionalVifs env requests = ownVifs env requests := by
  have hloop := loop_settled env requests [] env.ns [] h.settled
  rw [List.nil_append] at hloop
  refine hloop.trans ?_
  cases ownVifs env requests with
  | error e => rfl
  | ok vifs => rfl

/-- **Uniform entries are resolved each by itself.** -/
theorem independent_of_uniform {ns : String} {entries : List (Option String × String)}
    (h : Uniform ns entries) : Independent ns entries where
  looksUp := by
    rintro env requests rfl rfl
    have hlookups := lookupsFrom_settled env requests [] env.ns h.settled
    rw [List.nil_append] at hlookups
    refine ⟨hlookups.1, fun vifs hvifs => ?_⟩
    rw [additionalVifs_uniform h] at hvifs
    exact hlookups.2 vifs hvifs
  permutes := by
    rintro env requests requests' rfl rfl hp vifs hvifs
    rw [additionalVifs_uniform h] at hvifs
    obtain ⟨hall, rfl⟩ := ownVifs_ok_iff.mp hvifs
    refine ⟨requests'.flatMap (Request.gives env), ?_, hp.flatMap_right _⟩
    rw [additionalVifs_uniform (h.perm (hp.map _))]
    exact ownVifs_ok_iff.mpr ⟨fun r hr => hall r (hp.mem_iff.mpr hr), rfl⟩

/-! ## Entries that are not -/

/-- Definitions that tell the namespace they are in: that of the pod has a subnet of its
own. -/
def telling (ns : String) : NpwgNetworks where
  networks := .ok []
  ns := ns
  nad := fun n _ => .ok ⟨some (if n = ns then "own" else "other"), none⟩
  podSubnet := ""
  subnetMapping := fun _ => none
  getSubnet := .ok
  requestVif := fun _ _ _ => .ok none

/-- An entry whose VIF tells its subnet. -/
def asking (entry : Option String × String) : Request :=
  ⟨entry.1, entry.2, fun _ subnet => .ok (some ⟨"", subnet⟩)⟩

/-- The namespaces in force, entry by entry. -/
def inForce : String → List (Option String × String) → List String
  | _, [] => []
  | cur, e :: rest => e.1.getD cur :: inForce (e.1.getD cur) rest

/-- The VIF of a definition in a namespace. -/
def tellingVif (ns n : String) : Vif := ⟨"", if n = ns then "own" else "other"⟩

theorem loop_telling (ns : String) :
    ∀ (rest done : List (Option String × String)) (cur : String) (acc : List Vif),
      ((serving (telling ns) ((done ++ rest).map asking)).loop done.length cur acc
        ((rest.map asking).map Request.network)).outcome =
          .ok (acc ++ (inForce cur rest).map (tellingVif ns))
  | [], done, cur, acc => by
    rw [inForce, List.map_nil, List.map_nil, List.map_nil, NpwgNetworks.loop, List.append_nil]
  | e :: rest, done, cur, acc => by
    have ih := loop_telling ns rest (done ++ [e]) (e.1.getD cur)
      (acc ++ [tellingVif ns (e.1.getD cur)])
    rw [List.append_assoc, List.singleton_append, List.length_append, List.length_singleton] at ih
    have hget : ((done ++ e :: rest).map asking)[done.length]? = some (asking e) := by simp
    have hsubnet : (telling ns).subnetOf
      ⟨some (if e.1.getD cur = ns then "own" else "other"), none⟩ =
        if e.1.getD cur = ns then "own" else "other" := by
      unfold NpwgNetworks.subnetOf
      split_ifs <;> rfl
    have hreq : (serving (telling ns) ((done ++ e :: rest).map asking)).requestNetwork done.length
        (e.1.getD cur) (asking e).network = .ok (some (tellingVif ns (e.1.getD cur))) := by
      simp only [NpwgNetworks.requestNetwork, Request.network, serving, hget]
      show Except.ok (some (Vif.mk "" ((telling ns).subnetOf
        ⟨some (if e.1.getD cur = ns then "own" else "other"), none⟩))) = _
      rw [hsubnet]
      rfl
    have hns : (asking e).network.ns.getD cur = e.1.getD cur := rfl
    rw [List.map_cons, List.map_cons, NpwgNetworks.loop]
    simp only [hns, hreq]
    rw [inForce, List.map_cons]
    simpa [List.append_assoc] using ih

theorem additionalVifs_telling (ns : String) (entries : List (Option String × String)) :
    additionalVifs (telling ns) (entries.map asking) =
      .ok ((inForce ns entries).map (tellingVif ns)) := by
  have h := loop_telling ns entries [] ns []
  rw [List.nil_append] at h
  exact h

/-- How often the namespace of the pod is in force does not depend on the order. -/
theorem Independent.count {ns : String} {entries l : List (Option String × String)}
    (h : Independent ns entries) (hp : entries.Perm l) :
    (inForce ns l).countP (· = ns) = (inForce ns entries).countP (· = ns) := by
  have hentries : (entries.map asking).map Request.entry = entries := by
    rw [List.map_map]
    exact List.map_id _
  obtain ⟨vifs', hvifs', hperm⟩ := h.permutes (telling ns) (entries.map asking) (l.map asking) rfl
    hentries (hp.map _) _ (additionalVifs_telling ns entries)
  rw [additionalVifs_telling] at hvifs'
  cases hvifs'
  have hcount := hperm.countP_eq (fun vif => decide (vif.network = "own"))
  have hown : ∀ n, decide ((tellingVif ns n).network = "own") = decide (n = ns) := by
    intro n
    unfold tellingVif
    by_cases hn : n = ns
    · simp [hn]
    · simp [hn]
  simp only [List.countP_map, Function.comp_def, hown] at hcount
  exact hcount.symm

/-- **Entries that are not uniform are not resolved each by itself**: swapping an entry
without a namespace and one with a foreign namespace changes where the first is looked
up. -/
theorem uniform_of_independent {ns : String} {entries : List (Option String × String)}
    (h : Independent ns entries) : Uniform ns entries := by
  by_contra hnot
  rw [Uniform, not_or] at hnot
  obtain ⟨hnone, hforeign⟩ := hnot
  push Not at hnone hforeign
  obtain ⟨a, ha, hans⟩ := hnone
  obtain ⟨b, hb, x, hx, hne⟩ := hforeign
  have hans : a.1 = none := by simpa using hans
  have hbns : b.1 = some x := hx
  have hba : b ≠ a := by
    rintro rfl
    rw [hans] at hbns
    cases hbns
  have hp : entries.Perm (a :: b :: (entries.erase a).erase b) :=
    (List.perm_cons_erase ha).trans
      ((List.perm_cons_erase ((List.mem_erase_of_ne hba).mpr hb)).cons a)
  have hcount := (h.count hp).trans (h.count (hp.trans (List.Perm.swap b a _))).symm
  simp [inForce, hans, hbns, hne] at hcount

/-- **Exactly which additional networks are resolved independently, and exactly which are
read back from their short form.** -/
theorem additional_networks_iff (ns : String) (networks : List (Option String × String))
    (entries : List Entry) :
    (Independent ns networks ↔ Uniform ns networks) ∧
      (getNetworks (some (shortForm entries)) = .ok (.arr (entries.map Entry.value)) ↔
        entries ≠ [] ∧ ∀ name, entries = [⟨none, name⟩] → isScalar name.text = false) :=
  ⟨⟨uniform_of_independent, independent_of_uniform⟩, getNetworks_shortForm_iff entries⟩

/-- The second entry gives no namespace and is looked up in that of the first, and a
network named `123` is read as a number. -/
theorem foreign_namespace_carried_over :
    (serving (telling "mine") ([(some "other", "a"), (none, "b")].map asking)).lookups =
        [("other", "a"), ("other", "b")] ∧
      ¬ Independent "mine" [(some "other", "a"), (none, "b")] ∧
      ¬ ∀ entries : List Entry,
        getNetworks (some (shortForm entries)) = .ok (.arr (entries.map Entry.value)) := by
  refine ⟨by decide, fun h => ?_, fun h => ?_⟩
  · have := h.count (List.Perm.swap (none, "b") (some "other", "a") [])
    revert this
    decide
  · have hname := h [⟨none, ⟨"123".toList, by decide⟩⟩]
    rw [getNetworks_shortForm_iff] at hname
    have := hname.2 _ rfl
    revert this
    decide

end MultiVif
end KuryrKubernetes
