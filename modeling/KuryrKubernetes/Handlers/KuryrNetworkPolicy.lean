import Mathlib
import KuryrKubernetes.K8s.Objects
import KuryrKubernetes.Lib.ArrayPatch
import KuryrKubernetes.Lib.Result
import KuryrKubernetes.Lib.Text

/-!
# The KuryrNetworkPolicy handler

`KuryrNetworkPolicyHandler.on_present` (`controller/handlers/kuryrnetworkpolicy.py`)
brings `status.securityGroupRules` and the security group in Neutron in line with the
rules of the spec: it adds what is required and not listed, then removes what is
listed and not required.

`_compare_sgs` compares six properties as they are written. Neutron compares what
they mean, and answers the creation of a rule it has with a conflict that names the
rule. So a listed rule and a required one can be different to the handler and one
rule to Neutron: the handler adopts the rule for the new entry and then deletes it
with the old one (`onPresent_drops_adopted_rule`). `onPresent_reconciles_iff` says
that this is the only way in which a run that succeeds goes wrong.
-/

namespace KuryrKubernetes

open ArrayPatches Results Texts

/-! ## Neutron -/

/-- The properties of a rule that are compared. -/
structure RuleProps where
  direction : Direction
  ethertype : Ethertype
  port_range_max : Option Nat
  port_range_min : Option Nat
  protocol : Option Protocol
  remote_ip_prefix : Option String
deriving DecidableEq, Repr

/-- The properties of a rule body. -/
def SgRule.props (r : SgRule) : RuleProps :=
  ⟨r.direction, r.ethertype, r.port_range_max, r.port_range_min, r.protocol, r.remote_ip_prefix⟩

/-- A security group rule in Neutron. `meaning` is what Neutron compares. -/
structure NeutronRule (M : Type) where
  id : String
  securityGroup : String
  meaning : M

/-- Ids are made of hexadecimal digits and dashes. -/
def IsUuid (id : String) : Prop := ∀ ch ∈ id.toList, ch ∈ "0123456789abcdef-".toList

/-- The rules Neutron has. No group has two rules with the same meaning. -/
structure NeutronRules (M : Type) where
  rules : List (NeutronRule M)
  ids_nodup : (rules.map NeutronRule.id).Nodup
  meanings_nodup : (rules.map fun r => (r.securityGroup, r.meaning)).Nodup
  ids_uuid : ∀ r ∈ rules, IsUuid r.id

/-- A `ConflictException`: its `details`, and its text. -/
structure Conflict where
  details : String
  text : String

/-- `'quota' in ex.details.lower()`. -/
def Conflict.aboutQuota (ex : Conflict) : Bool :=
  "quota".toList <:+: ex.details.toList.map Char.toLower

theorem Conflict.aboutQuota_eq_false {ex : Conflict} :
    ex.aboutQuota = false ↔ ¬ "quota".toList <:+: ex.details.toList.map Char.toLower :=
  decide_eq_false_iff_not

/-- How Neutron answers. -/
structure NeutronApi (M : Type) where
  /-- What a rule means: a bare address is its `/32` or `/128`. -/
  meaning : RuleProps → M
  /-- The id of the next rule. -/
  newId : NeutronRules M → String
  newId_fresh : ∀ n, ∀ r ∈ n.rules, r.id ≠ newId n
  newId_uuid : ∀ n, IsUuid (newId n)
  /-- The number of rules the quota allows. -/
  quota : Nat
  quotaExceeded : Conflict
  quotaExceeded_details : quotaExceeded.aboutQuota = true
  /-- The refusal of a rule that exists, with its id. -/
  exists_ : String → Conflict
  exists_details : ∀ id, IsUuid id → (exists_ id).aboutQuota = false
  /-- The text ends with the id and a full stop. -/
  exists_text : ∀ id, ∃ front, (exists_ id).text.toList = front ++ ' ' :: (id.toList ++ ['.'])
  /-- The id of the next security group. -/
  newSecurityGroup : NeutronRules M → String
  newSecurityGroup_fresh : ∀ n, ∀ r ∈ n.rules, r.securityGroup ≠ newSecurityGroup n

variable {M : Type} [DecidableEq M]

/-- The rule of a group with a meaning. -/
def NeutronRules.find? (n : NeutronRules M) (sg : String) (m : M) : Option (NeutronRule M) :=
  n.rules.find? fun r => r.securityGroup = sg ∧ r.meaning = m

/-- The rules with one more. -/
def NeutronRules.add (n : NeutronRules M) (api : NeutronApi M) (sg : String) (m : M)
    (h : n.find? sg m = none) : NeutronRules M where
  rules := n.rules ++ [⟨api.newId n, sg, m⟩]
  ids_nodup := by
    rw [List.map_append, List.nodup_append]
    refine ⟨n.ids_nodup, List.nodup_singleton _, fun a ha b hb => ?_⟩
    obtain ⟨r, hr, rfl⟩ := List.mem_map.mp ha
    obtain rfl := List.mem_singleton.mp hb
    exact api.newId_fresh n r hr
  meanings_nodup := by
    rw [List.map_append, List.nodup_append]
    refine ⟨n.meanings_nodup, List.nodup_singleton _, fun a ha b hb => ?_⟩
    obtain ⟨r, hr, rfl⟩ := List.mem_map.mp ha
    obtain rfl := List.mem_singleton.mp hb
    have hne := List.find?_eq_none.mp h r hr
    simpa using hne
  ids_uuid := by
    intro r hr
    rcases List.mem_append.mp hr with hr | hr
    · exact n.ids_uuid r hr
    · obtain rfl := List.mem_singleton.mp hr
      exact api.newId_uuid n

/-- `os_net.create_security_group_rule`. -/
def NeutronApi.createSecurityGroupRule (api : NeutronApi M) (n : NeutronRules M) (sg : String)
    (r : SgRule) : Except Conflict (NeutronRules M × String) :=
  if api.quota ≤ n.rules.length then .error api.quotaExceeded
  else
    match h : n.find? sg (api.meaning r.props) with
    | some rule => .error (api.exists_ rule.id)
    | none => .ok (n.add api sg (api.meaning r.props) h, api.newId n)

/-- `os_net.delete_security_group_rule`: a missing rule is ignored. -/
def NeutronRules.deleteSecurityGroupRule (n : NeutronRules M) (id : String) : NeutronRules M where
  rules := n.rules.filter (·.id ≠ id)
  ids_nodup := n.ids_nodup.sublist (List.filter_sublist.map _)
  meanings_nodup := n.meanings_nodup.sublist (List.filter_sublist.map _)
  ids_uuid := fun r hr => n.ids_uuid r (List.mem_of_mem_filter hr)

/-! ## The driver -/

/-- The id a conflict names: `str(ex).split()[-1][:-1]`. -/
def Conflict.existing (ex : Conflict) : Except Error String :=
  match (words ex.text.toList).getLast? with
  | some w => .ok (String.ofList w.dropLast)
  | none => .error .valueError

/-- `create_security_group_rule` (utils.py:188–224). -/
def createSecurityGroupRule (api : NeutronApi M) (n : NeutronRules M) (sg : String)
    (body : SgRule) :
    Except Error (NeutronRules M × String) :=
  match api.createSecurityGroupRule n sg body with
  | .ok created => .ok created
  | .error ex =>
    if ex.aboutQuota then .error .conflict
    else do
      -- the rule is there already
      let id ← ex.existing
      return (n, id)

/-! ## The status and its patches -/

/-- An entry of `status.securityGroupRules`. -/
structure StatusRule where
  sgRule : SgRule
  security_group_id : String
  id : String
deriving DecidableEq, Repr

/-- The status of a KuryrNetworkPolicy. -/
structure KnpStatus where
  securityGroupId : Option String
  securityGroupRules : List StatusRule
  podSelector : Option LabelSelector
deriving DecidableEq, Repr

/-- The patches of the handler. -/
inductive StatusPatch where
  /-- `replace /status/securityGroupId`. -/
  | securityGroupId (id : String)
  /-- `add` behind the last entry of `/status/securityGroupRules`. -/
  | addRule (rule : StatusRule)
  /-- `remove /status/securityGroupRules/i`. -/
  | removeRule (i : Nat)
  /-- `replace /status/podSelector`. -/
  | podSelector (selector : LabelSelector)

/-- `patch_crd` (k8s_client.py:175–199). -/
def patchCrd (s : KnpStatus) : StatusPatch → Except Error KnpStatus
  | .securityGroupId id => .ok { s with securityGroupId := some id }
  | .addRule rule => .ok { s with securityGroupRules := addLast s.securityGroupRules rule }
  | .removeRule i =>
    match removeAt s.securityGroupRules i with
    | some rules => .ok { s with securityGroupRules := rules }
    | none => .error .badRequest
  | .podSelector selector => .ok { s with podSelector := some selector }

/-! ## The handler -/

namespace KuryrNetworkPolicyHandler

/-- `_compare_sgs` (kuryrnetworkpolicy.py:78–85). -/
def compareSgs (a b : SgRule) : Bool :=
  a.direction = b.direction && a.ethertype = b.ethertype && a.port_range_max = b.port_range_max &&
    a.port_range_min = b.port_range_min && a.protocol = b.protocol &&
    a.remote_ip_prefix = b.remote_ip_prefix

/-- `_find_sgs` (kuryrnetworkpolicy.py:87–92). -/
def findSgs (a : SgRule) (rules : List SgRule) : Bool := rules.any fun r => compareSgs r a

/-- The required rules. -/
def required (knp : KuryrNetworkPolicy) : List SgRule :=
  (knp.ingressSgRules ++ knp.egressSgRules).map Rule.sgRule

/-- The rules to add. -/
def toAdd (required : List SgRule) (current : List StatusRule) : List SgRule :=
  required.filter fun r => !findSgs r (current.map StatusRule.sgRule)

/-- The rules to remove, with their positions. -/
def toRemove (required : List SgRule) (current : List StatusRule) : List (Nat × String) :=
  (current.zipIdx.filter fun e => !findSgs e.1.sgRule required).map fun e => (e.2, e.1.id)

/-- The loop over the rules to add (kuryrnetworkpolicy.py:139–145). -/
def addRules (api : NeutronApi M) (sg : String) :
    List SgRule → NeutronRules M × KnpStatus → Except Error (NeutronRules M × KnpStatus)
  | [], acc => .ok acc
  | r :: rs, (n, s) => do
    let (n, id) ← createSecurityGroupRule api n sg r
    let s ← patchCrd s (.addRule ⟨r, sg, id⟩)
    addRules api sg rs (n, s)

/-- The loop over the rules to remove (kuryrnetworkpolicy.py:155–160). -/
def removeRules :
    List (Nat × String) → NeutronRules M × KnpStatus → Except Error (NeutronRules M × KnpStatus)
  | [], acc => .ok acc
  | e :: es, (n, s) => do
    let s ← patchCrd s (.removeRule e.1)
    removeRules es (n.deleteSecurityGroupRule e.2, s)

/-- The security group of the policy. -/
def securityGroup (api : NeutronApi M) (n : NeutronRules M) (s : KnpStatus) : String :=
  s.securityGroupId.getD (api.newSecurityGroup n)

/-- A policy without a security group gets one (kuryrnetworkpolicy.py:98–109). The
two rules Neutron puts into a new group are deleted with its creation. -/
def ensureSecurityGroup (api : NeutronApi M) (n : NeutronRules M) (s : KnpStatus) :
    Except Error KnpStatus :=
  match s.securityGroupId with
  | none => patchCrd s (.securityGroupId (securityGroup api n s))
  | some _ => .ok s

/-- `on_present` (kuryrnetworkpolicy.py:94–215) as far as it touches the rules and
the status. -/
def onPresent (api : NeutronApi M) (knp : KuryrNetworkPolicy) (n : NeutronRules M) (s : KnpStatus) :
    Except Error (NeutronRules M × KnpStatus) := do
  let sg := securityGroup api n s
  let s ← ensureSecurityGroup api n s
  let current := s.securityGroupRules
  let (n, s) ← addRules api sg (toAdd (required knp) current) (n, s)
  -- from the last one on, so that the positions stay right
  let (n, s) ← removeRules (toRemove (required knp) current).reverse (n, s)
  let s ← patchCrd s (.podSelector knp.podSelector)
  return (n, s)

/-! ## What the loops do -/

theorem compareSgs_iff {a b : SgRule} : compareSgs a b = true ↔ a.props = b.props := by
  simp [compareSgs, SgRule.props, and_assoc]

theorem findSgs_iff {a : SgRule} {rules : List SgRule} :
    findSgs a rules = true ↔ ∃ r ∈ rules, r.props = a.props := by
  simp [findSgs, compareSgs_iff]

omit [DecidableEq M] in
/-- The id is read back from the message. -/
theorem existing_exists (api : NeutronApi M) {id : String} (h : IsUuid id) :
    (api.exists_ id).existing = .ok id := by
  obtain ⟨front, htext⟩ := api.exists_text id
  have hword : ∀ ch ∈ id.toList ++ ['.'], ¬ isSpace ch = true := by
    intro ch hch
    rcases List.mem_append.mp hch with hch | hch
    · have hall : ("0123456789abcdef-".toList.all fun ch => !isSpace ch) = true := by decide
      simpa using List.all_eq_true.mp hall ch (h ch hch)
    · obtain rfl := List.mem_singleton.mp hch
      decide
  have hlast := getLast?_words (s := ' ') (by decide) (by simp) hword front
  rw [Conflict.existing, htext, hlast]
  simp

/-- A rule with the meaning asked for: the one that is there, or a new one. -/
theorem createSecurityGroupRule_spec {api : NeutronApi M} {n n' : NeutronRules M} {sg id : String}
    {r : SgRule} (h : createSecurityGroupRule api n sg r = .ok (n', id)) :
    ((⟨id, sg, api.meaning r.props⟩ : NeutronRule M) ∈ n.rules ∧ n' = n) ∨
      n'.rules = n.rules ++ [⟨id, sg, api.meaning r.props⟩] := by
  unfold createSecurityGroupRule NeutronApi.createSecurityGroupRule at h
  by_cases hq : api.quota ≤ n.rules.length
  · rw [if_pos hq] at h
    -- over quota the conflict is raised again
    simp only [if_pos api.quotaExceeded_details] at h
    cases h
  · rw [if_neg hq] at h
    split at h
    · next created hcreated =>
      split at hcreated
      · cases hcreated
      · cases hcreated
        cases h
        exact .inr rfl
    · next ex hex =>
      split at hex
      · next rule hfind =>
        cases hex
        have hmem := List.mem_of_find?_eq_some hfind
        obtain ⟨hsg, hm⟩ : rule.securityGroup = sg ∧ rule.meaning = api.meaning r.props := by
          simpa using List.find?_some hfind
        have huuid := n.ids_uuid rule hmem
        -- a rule with this meaning exists, and its id is read from the message
        rw [api.exists_details rule.id huuid, existing_exists api huuid] at h
        cases h
        refine .inl ⟨?_, rfl⟩
        rw [← hsg, ← hm]
        exact hmem
      · cases hex

/-- The listed rules are the rules of the security group. -/
structure Listed (api : NeutronApi M) (sg : String) (n : NeutronRules M) (rules : List StatusRule) :
    Prop where
  exist : ∀ e ∈ rules, ⟨e.id, sg, api.meaning e.sgRule.props⟩ ∈ n.rules
  only : ∀ r ∈ n.rules, r.securityGroup = sg → ∃ e ∈ rules, e.id = r.id

omit [DecidableEq M] in
/-- Entries with the same id have the same meaning, and the other way around. -/
theorem Listed.id_eq_iff {api : NeutronApi M} {sg : String} {n : NeutronRules M}
    {rules : List StatusRule} (h : Listed api sg n rules) {e e' : StatusRule} (he : e ∈ rules)
    (he' : e' ∈ rules) :
    e.id = e'.id ↔ api.meaning e.sgRule.props = api.meaning e'.sgRule.props := by
  have hr := h.exist e he
  have hr' := h.exist e' he'
  constructor
  · intro hid
    have heq := List.inj_on_of_nodup_map n.ids_nodup hr hr' hid
    exact congrArg NeutronRule.meaning heq
  · intro hm
    have heq := List.inj_on_of_nodup_map n.meanings_nodup hr hr' (by rw [hm])
    exact congrArg NeutronRule.id heq

theorem Listed.create {api : NeutronApi M} {sg id : String} {n n' : NeutronRules M}
    {rules : List StatusRule} {r : SgRule} (hl : Listed api sg n rules)
    (h : createSecurityGroupRule api n sg r = .ok (n', id)) :
    Listed api sg n' (rules ++ [⟨r, sg, id⟩]) := by
  rcases createSecurityGroupRule_spec h with ⟨hmem, rfl⟩ | hrules
  · refine ⟨fun e he => ?_, fun rule hrule hsg => ?_⟩
    · rcases List.mem_append.mp he with he | he
      · exact hl.exist e he
      · obtain rfl := List.mem_singleton.mp he
        exact hmem
    · obtain ⟨e, he, hid⟩ := hl.only rule hrule hsg
      exact ⟨e, List.mem_append_left _ he, hid⟩
  · refine ⟨fun e he => ?_, fun rule hrule hsg => ?_⟩
    · rw [hrules]
      rcases List.mem_append.mp he with he | he
      · exact List.mem_append_left _ (hl.exist e he)
      · obtain rfl := List.mem_singleton.mp he
        exact List.mem_append_right _ (List.mem_singleton.mpr rfl)
    · rw [hrules] at hrule
      rcases List.mem_append.mp hrule with hrule | hrule
      · obtain ⟨e, he, hid⟩ := hl.only rule hrule hsg
        exact ⟨e, List.mem_append_left _ he, hid⟩
      · obtain rfl := List.mem_singleton.mp hrule
        exact ⟨_, List.mem_append_right _ (List.mem_singleton.mpr rfl), rfl⟩

/-- The rules to add are listed behind the others. -/
theorem addRules_spec {api : NeutronApi M} {sg : String} : ∀ {rs : List SgRule}
    {n n' : NeutronRules M} {s s' : KnpStatus}, addRules api sg rs (n, s) = .ok (n', s') →
      Listed api sg n s.securityGroupRules → Listed api sg n' s'.securityGroupRules ∧
        ∃ added, s'.securityGroupRules = s.securityGroupRules ++ added ∧
          added.map StatusRule.sgRule = rs
  | [], n, n', s, s', h, hl => by
    cases h
    exact ⟨hl, [], by simp⟩
  | r :: rs, n, n', s, s', h, hl => by
    obtain ⟨⟨n₁, id⟩, hcreate, h⟩ := bind_eq_ok.mp h
    obtain ⟨s₁, hs₁, h⟩ := bind_eq_ok.mp h
    cases hs₁
    obtain ⟨hl', added, hrules, hadded⟩ := addRules_spec h (hl.create hcreate)
    refine ⟨hl', ⟨r, sg, id⟩ :: added, ?_, ?_⟩
    · rw [hrules]
      simp [addLast]
    · rw [List.map_cons, hadded]

theorem patchCrd_removeRule {s s' : KnpStatus} {i : Nat}
    (h : patchCrd s (.removeRule i) = .ok s') :
    removeAt s.securityGroupRules i = some s'.securityGroupRules := by
  cases hrem : removeAt s.securityGroupRules i with
  | none =>
    rw [patchCrd, hrem] at h
    cases h
  | some rules =>
    rw [patchCrd, hrem] at h
    cases h
    rfl

omit [DecidableEq M] in
/-- The rules to remove are taken out by position, and deleted by id. -/
theorem removeRules_spec : ∀ {es : List (Nat × String)} {n n' : NeutronRules M} {s s' : KnpStatus},
    removeRules es (n, s) = .ok (n', s') →
      removeAll s.securityGroupRules (es.map Prod.fst) = some s'.securityGroupRules ∧
        n'.rules = n.rules.filter (·.id ∉ es.map Prod.snd)
  | [], n, n', s, s', h => by
    cases h
    exact ⟨rfl, by simp⟩
  | e :: es, n, n', s, s', h => by
    obtain ⟨s₁, hs₁, h⟩ := bind_eq_ok.mp h
    obtain ⟨hrules, hn⟩ := removeRules_spec h
    refine ⟨?_, ?_⟩
    · show (removeAt s.securityGroupRules e.1).bind _ = _
      rw [patchCrd_removeRule hs₁]
      exact hrules
    · rw [hn, NeutronRules.deleteSecurityGroupRule, List.filter_filter]
      refine List.filter_congr fun r _ => ?_
      by_cases hid : r.id = e.2
      · simp [hid]
      · simp [hid, List.mem_cons]

theorem toRemove_positions (required : List SgRule) (current : List StatusRule) :
    (toRemove required current).map Prod.fst =
      positions (fun e => !findSgs e.sgRule required) current := by
  simp [toRemove, positions, Function.comp_def]

theorem toRemove_ids (required : List SgRule) (current : List StatusRule) (id : String) :
    id ∈ (toRemove required current).map Prod.snd ↔
      ∃ e ∈ current, findSgs e.sgRule required = false ∧ e.id = id := by
  simp only [toRemove, List.map_map, List.mem_map, List.mem_filter, Function.comp_apply,
    Bool.not_eq_true']
  constructor
  · rintro ⟨e, ⟨he, hfind⟩, hid⟩
    exact ⟨e.1, List.fst_mem_of_mem_zipIdx he, hfind, hid⟩
  · rintro ⟨e, he, hfind, hid⟩
    obtain ⟨i, hi⟩ := List.mem_iff_getElem?.mp he
    exact ⟨(e, i), ⟨List.mem_zipIdx_iff_getElem?.mpr hi, hfind⟩, hid⟩

/-! ## Reconciliation -/

/-- What one `on_present` leaves behind: the entries without those to remove, then
the added ones; up to the compared properties the required rules, and nothing else;
and these are the rules of the security group. -/
structure Reconciled (knp : KuryrNetworkPolicy) (sg : String) (s : KnpStatus) (n' : NeutronRules M)
    (s' : KnpStatus) : Prop where
  entries : ∃ added, added.map StatusRule.sgRule = toAdd (required knp) s.securityGroupRules ∧
    s'.securityGroupRules =
      s.securityGroupRules.filter (fun e => findSgs e.sgRule (required knp)) ++ added
  missing : ∀ r ∈ required knp, ∃ e ∈ s'.securityGroupRules, e.sgRule.props = r.props
  extra : ∀ e ∈ s'.securityGroupRules, ∃ r ∈ required knp, r.props = e.sgRule.props
  exist : ∀ e ∈ s'.securityGroupRules, ∃ r ∈ n'.rules, r.securityGroup = sg ∧ r.id = e.id
  only : ∀ r ∈ n'.rules, r.securityGroup = sg → ∃ e ∈ s'.securityGroupRules, e.id = r.id

/-- A successful run, before and after the removals. -/
theorem onPresent_spec {api : NeutronApi M} {knp : KuryrNetworkPolicy} {n n' : NeutronRules M}
    {s s' : KnpStatus} (hl : Listed api (securityGroup api n s) n s.securityGroupRules)
    (h : onPresent api knp n s = .ok (n', s')) :
    ∃ n₁ added, added.map StatusRule.sgRule = toAdd (required knp) s.securityGroupRules ∧
      Listed api (securityGroup api n s) n₁ (s.securityGroupRules ++ added) ∧
      s'.securityGroupRules =
        s.securityGroupRules.filter (fun e => findSgs e.sgRule (required knp)) ++ added ∧
      ∀ r, r ∈ n'.rules ↔ r ∈ n₁.rules ∧
        ∀ e ∈ s.securityGroupRules, findSgs e.sgRule (required knp) = false → e.id ≠ r.id := by
  obtain ⟨s₀, hs₀, h⟩ := bind_eq_ok.mp h
  obtain ⟨⟨n₁, s₁⟩, hadd, h⟩ := bind_eq_ok.mp h
  obtain ⟨⟨n₂, s₂⟩, hrem, h⟩ := bind_eq_ok.mp h
  obtain ⟨s₃, hs₃, h⟩ := bind_eq_ok.mp h
  cases hs₃
  cases h
  have hrules : s₀.securityGroupRules = s.securityGroupRules := by
    unfold ensureSecurityGroup at hs₀
    split at hs₀
    · cases hs₀
      rfl
    · cases hs₀
      rfl
  rw [hrules] at hadd hrem
  obtain ⟨hl₁, added, hs₁, hadded⟩ := addRules_spec hadd (by rwa [hrules])
  rw [hs₁, hrules] at hl₁
  obtain ⟨hremoved, hn⟩ := removeRules_spec hrem
  refine ⟨n₁, added, hadded, hl₁, ?_, fun r => ?_⟩
  -- the last position goes first, so the others stay right
  · rw [List.map_reverse, toRemove_positions, hs₁, hrules, removeAll_positions] at hremoved
    simpa using (Option.some.inj hremoved).symm
  · rw [hn, List.mem_filter, decide_eq_true_iff, List.map_reverse, List.mem_reverse, toRemove_ids]
    simp only [not_exists, not_and]

/-- Below the quota the rule is made, or found. -/
theorem createSecurityGroupRule_returns (api : NeutronApi M) {n : NeutronRules M} (sg : String)
    (r : SgRule) (hq : n.rules.length < api.quota) :
    ∃ n' id, createSecurityGroupRule api n sg r = .ok (n', id) ∧
      n'.rules.length ≤ n.rules.length + 1 := by
  unfold createSecurityGroupRule NeutronApi.createSecurityGroupRule
  rw [if_neg (by omega)]
  split
  · next created hcreated =>
    split at hcreated
    · cases hcreated
    · cases hcreated
      exact ⟨_, _, rfl, by simp [NeutronRules.add]⟩
  · next ex hex =>
    split at hex
    · next rule hfind =>
      cases hex
      have huuid := n.ids_uuid rule (List.mem_of_find?_eq_some hfind)
      rw [api.exists_details rule.id huuid, existing_exists api huuid]
      exact ⟨n, rule.id, rfl, Nat.le_succ _⟩
    · cases hex

theorem addRules_returns (api : NeutronApi M) (sg : String) : ∀ (rs : List SgRule)
    (n : NeutronRules M) (s : KnpStatus), n.rules.length + rs.length ≤ api.quota →
      ∃ acc, addRules api sg rs (n, s) = .ok acc
  | [], n, s, _ => ⟨(n, s), rfl⟩
  | r :: rs, n, s, hq => by
    rw [List.length_cons] at hq
    obtain ⟨n₁, id, hcreate, hlen⟩ := createSecurityGroupRule_returns api sg r (n := n) (by omega)
    obtain ⟨acc, hacc⟩ := addRules_returns api sg rs n₁
      { s with securityGroupRules := addLast s.securityGroupRules ⟨r, sg, id⟩ } (by omega)
    exact ⟨acc, bind_eq_ok.mpr ⟨_, hcreate, hacc⟩⟩

omit [DecidableEq M] in
theorem removeRules_returns : ∀ (es : List (Nat × String)) (n : NeutronRules M) (s : KnpStatus)
    {rules : List StatusRule}, removeAll s.securityGroupRules (es.map Prod.fst) = some rules →
      ∃ acc, removeRules es (n, s) = .ok acc
  | [], n, s, _, _ => ⟨(n, s), rfl⟩
  | e :: es, n, s, rules, h => by
    obtain ⟨l, hl, hrest⟩ := Option.bind_eq_some_iff.mp h
    obtain ⟨acc, hacc⟩ := removeRules_returns es (n.deleteSecurityGroupRule e.2)
      { s with securityGroupRules := l } hrest
    refine ⟨acc, bind_eq_ok.mpr ⟨{ s with securityGroupRules := l }, ?_, hacc⟩⟩
    rw [patchCrd, hl]

/-- Below the quota a run succeeds: every position to remove exists. -/
theorem onPresent_returns (api : NeutronApi M) (knp : KuryrNetworkPolicy) (n : NeutronRules M)
    (s : KnpStatus) (hl : Listed api (securityGroup api n s) n s.securityGroupRules)
    (hq : n.rules.length + (required knp).length ≤ api.quota) :
    ∃ acc, onPresent api knp n s = .ok acc := by
  obtain ⟨s₀, hs₀, hrules⟩ : ∃ s₀, ensureSecurityGroup api n s = .ok s₀ ∧
      s₀.securityGroupRules = s.securityGroupRules := by
    unfold ensureSecurityGroup
    split
    · exact ⟨_, rfl, rfl⟩
    · exact ⟨s, rfl, rfl⟩
  have hlen : (toAdd (required knp) s₀.securityGroupRules).length ≤ (required knp).length :=
    List.length_filter_le _ _
  obtain ⟨⟨n₁, s₁⟩, hadd⟩ := addRules_returns api (securityGroup api n s)
    (toAdd (required knp) s₀.securityGroupRules) n s₀ (by omega)
  obtain ⟨-, added, hs₁, -⟩ := addRules_spec hadd (by rwa [hrules])
  have hall := removeAll_positions (fun e => !findSgs e.sgRule (required knp))
    s₀.securityGroupRules added
  rw [← hs₁, ← toRemove_positions, ← List.map_reverse] at hall
  obtain ⟨⟨n₂, s₂⟩, hrem⟩ := removeRules_returns _ n₁ s₁ hall
  exact ⟨_, bind_eq_ok.mpr ⟨s₀, hs₀, bind_eq_ok.mpr ⟨_, hadd, bind_eq_ok.mpr ⟨_, hrem, rfl⟩⟩⟩⟩

/-- **Reconciliation.** A run that succeeds reconciles the policy if and only if no
listed rule means the same as a required one and is written otherwise than all of
them. -/
theorem onPresent_reconciles_iff (api : NeutronApi M) (knp : KuryrNetworkPolicy)
    (n n' : NeutronRules M) (s s' : KnpStatus)
    (hl : Listed api (securityGroup api n s) n s.securityGroupRules)
    (h : onPresent api knp n s = .ok (n', s')) :
    Reconciled knp (securityGroup api n s) s n' s' ↔
      ∀ e ∈ s.securityGroupRules,
        (∃ r ∈ required knp, api.meaning r.props = api.meaning e.sgRule.props) →
          ∃ r ∈ required knp, r.props = e.sgRule.props := by
  obtain ⟨n₁, added, hadded, hl₁, hs', hn'⟩ := onPresent_spec hl h
  have hmissing : ∀ r ∈ required knp, ∃ e ∈ s'.securityGroupRules, e.sgRule.props = r.props := by
    intro r hr
    rw [hs']
    cases hfind : findSgs r (s.securityGroupRules.map StatusRule.sgRule) with
    | true =>
      obtain ⟨c, hc, hprops⟩ := findSgs_iff.mp hfind
      obtain ⟨e, he, rfl⟩ := List.mem_map.mp hc
      have hkept : findSgs e.sgRule (required knp) = true := findSgs_iff.mpr ⟨r, hr, hprops.symm⟩
      exact ⟨e, List.mem_append_left _ (List.mem_filter.mpr ⟨he, hkept⟩), hprops⟩
    | false =>
      have hr' : r ∈ added.map StatusRule.sgRule := by
        rw [hadded]
        exact List.mem_filter.mpr ⟨hr, by rw [hfind]; rfl⟩
      obtain ⟨e, he, rfl⟩ := List.mem_map.mp hr'
      exact ⟨e, List.mem_append_right _ he, rfl⟩
  have hextra : ∀ e ∈ s'.securityGroupRules, ∃ r ∈ required knp, r.props = e.sgRule.props := by
    intro e he
    rw [hs'] at he
    rcases List.mem_append.mp he with he | he
    · exact findSgs_iff.mp (List.mem_filter.mp he).2
    · have hr : e.sgRule ∈ toAdd (required knp) s.securityGroupRules := by
        rw [← hadded]
        exact List.mem_map_of_mem he
      exact ⟨e.sgRule, (List.mem_filter.mp hr).1, rfl⟩
  have hsub : ∀ e ∈ s'.securityGroupRules, e ∈ s.securityGroupRules ++ added := by
    intro e he
    rw [hs'] at he
    rcases List.mem_append.mp he with he | he
    · exact List.mem_append_left _ (List.mem_filter.mp he).1
    · exact List.mem_append_right _ he
  constructor
  · -- an adopted rule that is deleted is missed in Neutron
    rintro hrec c hc ⟨r, hr, hmeaning⟩
    by_contra hno
    have hgone : findSgs c.sgRule (required knp) = false := by
      rw [Bool.eq_false_iff]
      exact fun h => hno (findSgs_iff.mp h)
    obtain ⟨e, he, hprops⟩ := hmissing r hr
    have hid : c.id = e.id := by
      rw [hl₁.id_eq_iff (List.mem_append_left _ hc) (hsub e he), hprops, hmeaning]
    obtain ⟨rule, hrule, -, hrid⟩ := hrec.exist e he
    exact ((hn' rule).mp hrule).2 c hc hgone (hid.trans hrid.symm)
  · intro hok
    -- a deleted rule is not the one of an entry that stays: they mean different things
    refine ⟨⟨added, hadded, hs'⟩, hmissing, hextra, fun e he => ?_, fun rule hrule hsg => ?_⟩
    · refine ⟨_, (hn' _).mpr ⟨hl₁.exist e (hsub e he), fun c hc hgone hid => ?_⟩, rfl, rfl⟩
      have hmeaning := (hl₁.id_eq_iff (List.mem_append_left _ hc) (hsub e he)).mp hid
      obtain ⟨r, hr, hprops⟩ := hextra e he
      have hfound := findSgs_iff.mpr (hok c hc ⟨r, hr, by rw [hprops, hmeaning]⟩)
      rw [hgone] at hfound
      cases hfound
    · obtain ⟨hrule, hkeep⟩ := (hn' rule).mp hrule
      obtain ⟨e, he, hid⟩ := hl₁.only rule hrule hsg
      refine ⟨e, ?_, hid⟩
      rw [hs']
      rcases List.mem_append.mp he with he | he
      · refine List.mem_append_left _ (List.mem_filter.mpr ⟨he, ?_⟩)
        by_contra hgone
        exact hkeep e he (by simpa using hgone) hid
      · exact List.mem_append_right _ he

/-! ## A small installation -/

/-- A bare address is the network that has only this address. -/
def canonicalPrefix (cidr : String) : String :=
  if '/' ∈ cidr.toList then cidr
  else if ':' ∈ cidr.toList then cidr ++ "/128"
  else cidr ++ "/32"

/-- An id longer than all of these. -/
def longerId (ids : List String) : String :=
  String.ofList (List.replicate ((ids.map String.length).sum + 1) 'a')

theorem longerId_fresh {ids : List String} {id : String} (h : id ∈ ids) : id ≠ longerId ids := by
  rintro rfl
  have hle := List.le_sum_of_mem (List.mem_map_of_mem (f := String.length) h)
  rw [longerId, String.length_ofList, List.length_replicate] at hle
  omega

theorem longerId_uuid (ids : List String) : IsUuid (longerId ids) := by
  intro ch hch
  rw [longerId, String.toList_ofList] at hch
  rw [List.eq_of_mem_replicate hch]
  decide

/-- The start of the refusal of a rule that exists. -/
def existsText : String := "Security group rule already exists. Rule id is"

/-- A Neutron with its usual messages. -/
def sampleApi : NeutronApi RuleProps where
  meaning := fun p => { p with remote_ip_prefix := p.remote_ip_prefix.map canonicalPrefix }
  newId := fun n => longerId (n.rules.map NeutronRule.id)
  newId_fresh := fun _ _ hr => longerId_fresh (List.mem_map_of_mem hr)
  newId_uuid := fun _ => longerId_uuid _
  quota := 100
  quotaExceeded := ⟨"Quota exceeded for resources: [security_group_rule].",
    "ConflictException: 409"⟩
  quotaExceeded_details := by decide +kernel
  exists_ := fun id =>
    ⟨existsText ++ " " ++ id ++ ".", "ConflictException: 409, " ++ existsText ++ " " ++ id ++ "."⟩
  exists_details := by
    intro id h
    have hq : 'q' ∉ (existsText ++ " " ++ id ++ ".").toList.map Char.toLower := by
      simp only [String.toList_append, List.map_append, List.mem_append, not_or]
      refine ⟨⟨⟨by decide +kernel, by decide⟩, fun hmem => ?_⟩, by decide⟩
      obtain ⟨ch, hch, heq⟩ := List.mem_map.mp hmem
      have hall : ("0123456789abcdef-".toList.all fun ch => ch.toLower ≠ 'q') = true := by decide
      exact of_decide_eq_true (List.all_eq_true.mp hall ch (h ch hch)) heq
    refine Conflict.aboutQuota_eq_false.mpr fun hpart => ?_
    exact hq (hpart.subset (by decide))
  exists_text := fun id => ⟨("ConflictException: 409, " ++ existsText).toList, by simp⟩
  newSecurityGroup := fun n => longerId (n.rules.map NeutronRule.securityGroup)
  newSecurityGroup_fresh := fun _ _ hr => longerId_fresh (List.mem_map_of_mem hr)

/-- Ingress from one address. -/
def fromAddress (cidr : String) : SgRule :=
  ⟨.IPv4, "Kuryr-Kubernetes NetPolicy SG rule", .ingress, none, none, none, some cidr⟩

/-- The rule of an IP block, as Neutron has it. -/
def blockRules : NeutronRules RuleProps where
  rules := [⟨"1a", "5c", sampleApi.meaning (fromAddress "10.0.0.5/32").props⟩]
  ids_nodup := List.nodup_singleton _
  meanings_nodup := List.nodup_singleton _
  ids_uuid := by
    intro r hr
    obtain rfl := List.mem_singleton.mp hr
    have hall : ("1a".toList.all fun ch => ch ∈ "0123456789abcdef-".toList) = true := by decide
    exact fun ch hch => of_decide_eq_true (List.all_eq_true.mp hall ch hch)

/-- Its entry in the status. -/
def blockStatus : KnpStatus :=
  ⟨some "5c", [⟨fromAddress "10.0.0.5/32", "5c", "1a"⟩], none⟩

/-- The policy after an edit, with one rule. -/
def editedPolicy (cidr : String) : KuryrNetworkPolicy :=
  ⟨"policy", "default", LabelSelector.none, [⟨fromAddress cidr, none, none⟩], []⟩

theorem blockStatus_listed : Listed sampleApi (securityGroup sampleApi blockRules blockStatus)
    blockRules blockStatus.securityGroupRules where
  exist := by
    intro e he
    obtain rfl := List.mem_singleton.mp he
    exact List.mem_singleton.mpr rfl
  only := by
    intro r hr _
    obtain rfl := List.mem_singleton.mp hr
    exact ⟨_, List.mem_singleton.mpr rfl, rfl⟩

/-- The block gives way to another one. -/
theorem onPresent_reconciles_replaced_block :
    ∃ n' s', onPresent sampleApi (editedPolicy "10.0.0.6/32") blockRules blockStatus =
      .ok (n', s') ∧
      Reconciled (editedPolicy "10.0.0.6/32") (securityGroup sampleApi blockRules blockStatus)
        blockStatus n' s' := by
  refine ⟨_, _, rfl, (onPresent_reconciles_iff sampleApi _ _ _ _ _ blockStatus_listed rfl).mpr ?_⟩
  decide +kernel

/-- The block gives way to a pod with this address: the status keeps the id of a rule
that is gone. -/
theorem onPresent_drops_adopted_rule :
    Listed sampleApi (securityGroup sampleApi blockRules blockStatus) blockRules
        blockStatus.securityGroupRules ∧
      ∃ n' s', onPresent sampleApi (editedPolicy "10.0.0.5") blockRules blockStatus = .ok (n', s') ∧
        ¬ Reconciled (editedPolicy "10.0.0.5") (securityGroup sampleApi blockRules blockStatus)
          blockStatus n' s' := by
  refine ⟨blockStatus_listed, ?_⟩
  have hrun : ((onPresent sampleApi (editedPolicy "10.0.0.5") blockRules blockStatus).toOption.map
      fun r => (r.1.rules.map NeutronRule.id, r.2.securityGroupRules.map StatusRule.id)) =
        some ([], ["1a"]) := by decide +kernel
  cases hres : onPresent sampleApi (editedPolicy "10.0.0.5") blockRules blockStatus with
  | error e =>
    rw [hres] at hrun
    cases hrun
  | ok r =>
    rw [hres] at hrun
    obtain ⟨hn, hs⟩ := Prod.mk.inj (Option.some.inj hrun)
    refine ⟨r.1, r.2, rfl, fun hrec => ?_⟩
    obtain ⟨e, he, -⟩ := List.mem_map.mp (by rw [hs]; exact List.mem_singleton.mpr rfl :
      "1a" ∈ r.2.securityGroupRules.map StatusRule.id)
    obtain ⟨rule, hrule, -⟩ := hrec.exist e he
    rw [List.map_eq_nil_iff.mp hn] at hrule
    cases hrule

end KuryrNetworkPolicyHandler

end KuryrKubernetes
