import KuryrKubernetes.Policy.Peers

/-!
# Why a rule is made

The appends of the compiler as a relation: `Made` says which appends a block leads to
in a cluster, and for what reason. A `Reason` names the objects of the cluster that a
rule owes its existence to: the peer it is for, the pod that has the named port, and
the pod that puts a service into an IP block.

- `Opens` and `OpensCidr` say what is opened for a peer and for the cluster CIDRs: all
  ports, a number, or a container port that some pod has under the name asked for.
- `ForResource` says which rules follow for a peer: its own address, and on egress the
  services behind it.
- `mem_parseNetworkPolicyRules` connects the relation with the loops.

What the loops pass from one block to the next depends on the policy only
(`blockMemos`, `portSelectors`), so two clusters can be compared reason by reason.
-/

namespace KuryrKubernetes

open Dicts LabelSelectors Results

/-! ## The pods behind a container port -/

/-- A pod that is left out of the rules on named ports. -/
def excluded (spec : Option (LabelSelector × String)) (p : Pod) : Bool :=
  spec.any fun s => matchSelector (some s.1) p.labels && s.2 = p.ns

/-- The container ports found in a list, each with its pods. -/
def gather (spec : Option (LabelSelector × String)) (es : List (Pod × Nat)) : Matched :=
  es.foldl (addContainerPort spec) Dict.empty

/-- A container port is listed with an address. -/
def Has (m : Matched) (cp : Nat) (address : Option String) : Prop :=
  ∃ pods, (cp, pods) ∈ m.items ∧ address ∈ pods.keys

theorem addContainerPort_eq (spec : Option (LabelSelector × String)) (m : Matched) (e : Pod × Nat) :
    addContainerPort spec m e = if excluded spec e.1 = true then m
      else m.upsert e.2 fun pods => (pods.getD Dict.empty).set e.1.podIP e.1.ns :=
  rfl

theorem has_addContainerPort {spec : Option (LabelSelector × String)} {m : Matched} {e : Pod × Nat}
    {cp : Nat} {address : Option String} :
    Has (addContainerPort spec m e) cp address ↔
      Has m cp address ∨ (e.2 = cp ∧ e.1.podIP = address ∧ excluded spec e.1 = false) := by
  rw [addContainerPort_eq]
  by_cases hex : excluded spec e.1 = true
  · rw [if_pos hex]
    simp [hex]
  · rw [if_neg hex]
    have hex' : excluded spec e.1 = false := by simpa using hex
    simp only [Has, Dict.mem_items_upsert, hex', and_true]
    constructor
    · rintro ⟨pods, hmem | hmem, hkey⟩
      · cases hmem
        rcases Dict.mem_keys_upsert.mp hkey with hkey | hkey
        · exact .inr ⟨rfl, hkey.symm⟩
        · refine .inl ?_
          cases hget : m.get? e.2 with
          | none =>
            rw [hget] at hkey
            cases hkey
          | some pods =>
            rw [hget] at hkey
            exact ⟨pods, Dict.get?_eq_some.mp hget, hkey⟩
      · exact .inl ⟨pods, hmem.1, hkey⟩
    · rintro (⟨pods, hmem, hkey⟩ | ⟨rfl, rfl⟩)
      · by_cases hcp : cp = e.2
        · subst hcp
          refine ⟨_, .inl rfl, Dict.mem_keys_upsert.mpr (.inr ?_)⟩
          rw [Dict.get?_eq_some.mpr hmem]
          exact hkey
        · exact ⟨pods, .inr ⟨hmem, hcp⟩, hkey⟩
      · exact ⟨_, .inl rfl, Dict.mem_keys_upsert.mpr (.inl rfl)⟩

theorem has_foldl {spec : Option (LabelSelector × String)} {es : List (Pod × Nat)} {m : Matched}
    {cp : Nat} {address : Option String} :
    Has (es.foldl (addContainerPort spec) m) cp address ↔
      Has m cp address ∨ ∃ p, (p, cp) ∈ es ∧ p.podIP = address ∧ excluded spec p = false := by
  induction es generalizing m with
  | nil => simp
  | cons e es ih =>
    rw [List.foldl_cons, ih, has_addContainerPort, or_assoc]
    refine or_congr_right ?_
    constructor
    · rintro (⟨rfl, hip, hex⟩ | ⟨p, hp, hip, hex⟩)
      · exact ⟨e.1, List.mem_cons_self, hip, hex⟩
      · exact ⟨p, List.mem_cons_of_mem _ hp, hip, hex⟩
    · rintro ⟨p, hp, hip, hex⟩
      rcases List.mem_cons.mp hp with rfl | hp
      · exact .inl ⟨rfl, hip, hex⟩
      · exact .inr ⟨p, hp, hip, hex⟩

/-- **A gathered port has the pods that have it**, apart from the excluded ones. -/
theorem has_gather {spec : Option (LabelSelector × String)} {es : List (Pod × Nat)} {cp : Nat}
    {address : Option String} :
    Has (gather spec es) cp address ↔
      ∃ p, (p, cp) ∈ es ∧ p.podIP = address ∧ excluded spec p = false := by
  rw [gather, has_foldl]
  refine or_iff_right ?_
  rintro ⟨pods, hpods, -⟩
  cases hpods

/-- No pod map is empty. -/
theorem foldl_pods_ne {spec : Option (LabelSelector × String)} {es : List (Pod × Nat)} {m : Matched}
    (hm : ∀ e ∈ m.items, e.2.keys ≠ []) :
    ∀ e ∈ (es.foldl (addContainerPort spec) m).items, e.2.keys ≠ [] := by
  induction es generalizing m with
  | nil => exact hm
  | cons x es ih =>
    refine ih fun e he => ?_
    rw [addContainerPort_eq] at he
    split at he
    · exact hm e he
    · rcases Dict.mem_items_upsert.mp he with rfl | he
      · exact List.ne_nil_of_mem (Dict.mem_keys_upsert.mpr (.inl rfl))
      · exact hm e he.1

/-- Every gathered port is there because of some pod. -/
theorem gather_owner {spec : Option (LabelSelector × String)} {es : List (Pod × Nat)}
    {e : Nat × PodMap} (he : e ∈ (gather spec es).items) :
    ∃ p, (p, e.1) ∈ es ∧ excluded spec p = false := by
  have hne := foldl_pods_ne (m := Dict.empty) (fun _ h => by cases h) e he
  obtain ⟨address, haddress⟩ := List.exists_mem_of_ne_nil _ hne
  obtain ⟨p, hp, -, hex⟩ := has_gather.mp ⟨e.2, he, haddress⟩
  exact ⟨p, hp, hex⟩

/-! ## What is opened, and for whom -/

/-- Ports that a rule opens. A named port comes with the pods that have it. -/
structure Opening where
  port : Option Nat
  protocol : Option Protocol
  owners : Option PodMap

/-- The objects of the cluster a rule is owed to: the peer, the pod that has the named
port, and for the address of a service the service, with the pod that puts it into an
IP block. -/
structure Reason where
  resource : Option Resource
  owner : Option Pod
  via : Option (Service × Option Pod)

/-- The rule for the address of a resource. Without a named port it carries the
namespace of the resource. -/
def ownAppend (net : Net) (d : Direction) (o : Opening) (r : Resource) (cidr : String) : Append :=
  ⟨createSecurityGroupRuleBody net d o.port o.protocol .IPv4 (some cidr)
    (if o.owners.isSome then none else r.details.2) o.owners, o.owners.isSome, some r, o.owners⟩

/-- The rule for a service behind a resource. -/
def serviceAppend (net : Net) (o : Opening) (r : Resource) (clusterIP : String) : Append :=
  ⟨createSecurityGroupRuleBody net .egress o.port o.protocol .IPv4 (some clusterIP) none none,
    true, some r, o.owners⟩

/-- The rule for one of the cluster CIDRs. -/
def cidrAppend (net : Net) (d : Direction) (o : Opening) (cidr : String) : Append :=
  ⟨createSecurityGroupRuleBody net d o.port o.protocol .IPv4 (some cidr) none o.owners,
    false, none, o.owners⟩

/-- A service is behind a resource; `backend` is the pod that puts it into an IP
block. -/
def Backs (c : Cluster) (net : Net) (policyNs : String) (svc : Service) (r : Resource)
    (backend : Option Pod) : Prop :=
  match r, truthyLabels svc.selector with
  | .cidr cidr, some svcSelector =>
    svc.ns = policyNs ∧ ∃ pods q ip, getServicePods c svcSelector (some svc.ns) = .ok pods ∧
      q ∈ pods ∧ q.kuryrPortIP = some ip ∧ net.inNetwork ip cidr = .ok true ∧ backend = some q
  | r, _ => svcMatches c net policyNs svc r = .ok true ∧ backend = none

/-- The rules a resource leads to: for its own address, and via the services behind
it. -/
def ForResource (c : Cluster) (net : Net) (d : Direction) (policyNs : String) (o : Opening)
    (r : Resource) (a : Append) (via : Option (Service × Option Pod)) : Prop :=
  ∃ cidr, r.details.1 = some cidr ∧
    match via with
    | none => a = ownAppend net d o r cidr
    | some (svc, backend) => d = .egress ∧ svc ∈ c.services ∧ ∃ ip, svc.address = some ip ∧
        Backs c net policyNs svc r backend ∧ a = serviceAppend net o r ip

/-! ## What the loops pass on -/

/-- The policy's own selector after a look-up of a named port. -/
def poppedFor (d : Direction) (s : LabelSelector) : LabelSelector :=
  match d with
  | .ingress => s.popHash
  | .egress => s

@[simp] theorem poppedFor_poppedFor (d : Direction) (s : LabelSelector) :
    poppedFor d (poppedFor d s) = poppedFor d s := by
  cases d with
  | ingress => exact s.popHash_popHash
  | egress => rfl

/-- The selector after one port. -/
def selectorAfter (d : Direction) (s : LabelSelector) (port : PolicyPort) : LabelSelector :=
  match port.port with
  | .text _ => poppedFor d s
  | .number _ => s

/-- The ports of a block, with the selector each of them finds. -/
def portSelectors (d : Direction) : List PolicyPort → LabelSelector →
    List (PolicyPort × LabelSelector)
  | [], _ => []
  | port :: ports, s => (port, s) :: portSelectors d ports (selectorAfter d s port)

/-- The CIDRs a block opens to the whole cluster. -/
def blockCidrs (net : Net) (block : RuleBlock) (memo : Memo) : List String :=
  (clusterCidrs net (block.peers.getD []) (none, memo.prefixes)).1.getD []

/-- The memo after a block. -/
def memoAfter (net : Net) (d : Direction) (block : RuleBlock) (memo : Memo) : Memo where
  podSelector := (block.ports.getD []).foldl (selectorAfter d) memo.podSelector
  prefixes := (clusterCidrs net (block.peers.getD []) (none, memo.prefixes)).2

/-- The blocks of a direction, with the memo each of them finds. -/
def blockMemos (net : Net) (d : Direction) : List RuleBlock → Memo → List (RuleBlock × Memo)
  | [], _ => []
  | block :: blocks, memo => (block, memo) :: blockMemos net d blocks (memoAfter net d block memo)

/-! ## The relation -/

/-- A block that names no peer. -/
def RuleBlock.bare (net : Net) (block : RuleBlock) : Bool :=
  !selectorsGiven (block.peers.getD []) && ipBlockResources net block = []

/-- The resources of a block. -/
def BlockResources (c : Cluster) (net : Net) (policyNs : String) (block : RuleBlock)
    (rs : List Resource) : Prop :=
  ∃ found, collect (peerResources c policyNs) (block.peers.getD []) = .ok found ∧
    rs = found ++ ipBlockResources net block

/-- The resources a named port is opened for: all pods when the block names no
peer. -/
def NamedResources (c : Cluster) (net : Net) (policyNs : String) (block : RuleBlock)
    (rs : List Resource) : Prop :=
  if block.bare net then rs = c.pods.map .pod else BlockResources c net policyNs block rs

/-- The pods in which a named port is looked for, and the resources it is then
opened for, in the order of the calls. -/
def namedCalls (c : Cluster) (d : Direction) (npPort : Option String) (policyNs : String)
    (rs : List Resource) (s : LabelSelector) : Except Error (List (List (Pod × Nat) × Resource)) :=
  match d with
  | .ingress => (getPods c s (some policyNs)).map fun selected =>
      selected.flatMap fun p => rs.map fun r => (getContainerPorts npPort p, r)
  | .egress => .ok ((rs.filter Resource.hasSpec).map fun r => (getPorts c npPort r, r))

/-- The container ports of some calls. -/
abbrev portsOf (calls : List (List (Pod × Nat) × Resource)) : List (Pod × Nat) :=
  calls.flatMap Prod.fst

section

variable (c : Cluster) (net : Net) (d : Direction) (policyNs : String) (block : RuleBlock)
  (memo : Memo)

/-- What a block opens for a resource. -/
inductive Opens : Resource → Opening → Option Pod → Prop
  | everything {rs r} (hports : block.ports = none) (hrs : BlockResources c net policyNs block rs)
      (hr : r ∈ rs) : Opens r ⟨none, none, none⟩ none
  | number {ports port n rs r} (hports : block.ports = some ports) (hport : port ∈ ports)
      (hn : port.port = .number n) (hbare : block.bare net = false)
      (hrs : BlockResources c net policyNs block rs) (hr : r ∈ rs) :
      Opens r ⟨some n, port.protocolOrTCP, none⟩ none
  | named {ports port s npPort rs calls before call after e owner}
      (hports : block.ports = some ports)
      (hport : (port, s) ∈ portSelectors d ports memo.podSelector)
      (hnp : port.port = .text npPort) (hrs : NamedResources c net policyNs block rs)
      (hcalls : namedCalls c d npPort policyNs rs s = .ok calls)
      (hsplit : calls = before ++ call :: after)
      (he : e ∈ (gather (ownPods d (poppedFor d s) policyNs) (portsOf (before ++ [call]))).items)
      (howner : (owner, e.1) ∈ portsOf (before ++ [call]))
      (hex : excluded (ownPods d (poppedFor d s) policyNs) owner = false) :
      Opens call.2 ⟨some e.1, port.protocolOrTCP, some e.2⟩ (some owner)

/-- What a block opens for the cluster CIDRs. -/
inductive OpensCidr : Opening → Option Pod → Prop
  | everything (hports : block.ports = none) : OpensCidr ⟨none, none, none⟩ none
  | number {ports port n} (hports : block.ports = some ports) (hport : port ∈ ports)
      (hn : port.port = .number n) : OpensCidr ⟨some n, port.protocol, none⟩ none
  | named {ports port s npPort calls e owner}
      (hports : block.ports = some ports)
      (hport : (port, s) ∈ portSelectors d ports memo.podSelector)
      (hnp : port.port = .text npPort)
      (hcalls : namedCalls c d npPort policyNs (c.pods.map .pod) (poppedFor d s) = .ok calls)
      (he : e ∈ (gather (ownPods d (poppedFor d s) policyNs) (portsOf calls)).items)
      (howner : (owner, e.1) ∈ portsOf calls)
      (hex : excluded (ownPods d (poppedFor d s) policyNs) owner = false) :
      OpensCidr ⟨some e.1, port.protocolOrTCP, some e.2⟩ (some owner)

/-- The appends of a block, with their reasons. -/
inductive Made : Append → Reason → Prop
  | peer {r o owner a via} (ho : Opens c net d policyNs block memo r o owner)
      (ha : ForResource c net d policyNs o r a via) : Made a ⟨some r, owner, via⟩
  | cidr {o owner cidr} (ho : OpensCidr c d policyNs block memo o owner)
      (hc : cidr ∈ blockCidrs net block memo) : Made (cidrAppend net d o cidr) ⟨none, owner, none⟩
  | anywhere {ports port n ethertype} (hbare : block.bare net = true)
      (hports : block.ports = some ports) (hport : port ∈ ports) (hn : port.port = .number n) :
      Made ⟨createSecurityGroupRuleBody net d (some n) port.protocolOrTCP ethertype none none none,
        false, none, none⟩ ⟨none, none, none⟩

end

/-- The rule for the address of a peer. -/
theorem Made.own {c : Cluster} {net : Net} {d : Direction} {policyNs : String} {block : RuleBlock}
    {memo : Memo} {r : Resource} {o : Opening} {owner : Option Pod} {cidr : String}
    (ho : Opens c net d policyNs block memo r o owner) (hcidr : r.details.1 = some cidr) :
    Made c net d policyNs block memo (ownAppend net d o r cidr) ⟨some r, owner, none⟩ :=
  .peer ho ⟨cidr, hcidr, rfl⟩

/-! ## The loops and the relation -/

section

variable {c : Cluster} {net : Net} {d : Direction} {policyNs : String}

theorem podsInIpBlock_ok {cidr : String} : ∀ {pods : List Pod} {b : Bool},
    podsInIpBlock net cidr pods = .ok b →
      (b = true ↔ ∃ q ∈ pods, ∃ ip, q.kuryrPortIP = some ip ∧ net.inNetwork ip cidr = .ok true)
  | [], b, h => by
    cases h
    simp
  | p :: ps, b, h => by
    unfold podsInIpBlock at h
    cases hip : p.kuryrPortIP with
    | none =>
      rw [hip] at h
      rw [podsInIpBlock_ok h]
      simp [hip]
    | some ip =>
      rw [hip] at h
      obtain ⟨inside, hinside, h⟩ := bind_eq_ok.mp h
      cases inside with
      | true =>
        cases h
        exact ⟨fun _ => ⟨p, List.mem_cons_self, ip, hip, hinside⟩, fun _ => rfl⟩
      | false =>
        rw [podsInIpBlock_ok h]
        simp [hip, hinside]

/-- A service matches for some reason. -/
theorem svcMatches_ok {svc : Service} {r : Resource} {b : Bool}
    (h : svcMatches c net policyNs svc r = .ok b) :
    b = true ↔ ∃ backend, Backs c net policyNs svc r backend := by
  have hplain : (svcMatches c net policyNs svc r = .ok true) ↔ b = true := by
    rw [h]
    simp
  rcases r with p | n | cidr
  · simp [Backs, hplain]
  · simp [Backs, hplain]
  · unfold Backs
    cases hsel : truthyLabels svc.selector with
    | none => simp [hplain]
    | some svcSelector =>
      unfold svcMatches at h
      rw [hsel] at h
      by_cases hns : svc.ns = policyNs
      · simp only [hns, ne_eq, not_true_eq_false, if_false] at h
        obtain ⟨pods, hpods, h⟩ := bind_eq_ok.mp h
        rw [podsInIpBlock_ok h]
        simp only [hns, hpods, true_and]
        constructor
        · rintro ⟨q, hq, ip, hip, hin⟩
          exact ⟨some q, pods, q, ip, rfl, hq, hip, hin, rfl⟩
        · rintro ⟨_, _, q, ip, hok, hq, hip, hin, -⟩
          cases hok
          exact ⟨q, hq, ip, hip, hin⟩
      · simp only [ne_eq, hns, not_false_eq_true, if_true] at h
        cases h
        simp [hns]

theorem mem_serviceAppends {r : Resource} {o : Opening} {out : List Append}
    (h : serviceAppends c net d policyNs r o.port o.protocol o.owners = .ok out) {a : Append} :
    a ∈ out ↔ d = .egress ∧ ∃ svc ∈ c.services, ∃ ip, svc.address = some ip ∧
      (∃ backend, Backs c net policyNs svc r backend) ∧ a = serviceAppend net o r ip := by
  cases d with
  | ingress =>
    cases h
    simp
  | egress =>
    obtain ⟨hall, hmem⟩ := mem_collect h
    rw [hmem]
    simp only [true_and]
    refine exists_congr fun svc => and_congr_right fun hsvc => ?_
    obtain ⟨l, hl⟩ := hall svc hsvc
    rw [hl]
    cases hip : svc.address with
    | none =>
      rw [hip] at hl
      cases hl
      simp
    | some ip =>
      rw [hip] at hl
      obtain ⟨b, hb, hl⟩ := bind_eq_ok.mp hl
      have hwhy := svcMatches_ok hb
      cases b with
      | false =>
        cases hl
        have hnot : ¬ ∃ backend, Backs c net policyNs svc r backend := by
          rw [← hwhy]
          simp
        simp [hnot]
      | true =>
        cases hl
        have hyes : ∃ backend, Backs c net policyNs svc r backend := hwhy.mp rfl
        simp [hyes, serviceAppend]

/-- The rules of one resource. -/
theorem mem_forResource {r : Resource} {o : Opening} {cidr : String} {out : List Append}
    (hcidr : r.details.1 = some cidr)
    (h : serviceAppends c net d policyNs r o.port o.protocol o.owners = .ok out) {a : Append} :
    a ∈ ownAppend net d o r cidr :: out ↔ ∃ via, ForResource c net d policyNs o r a via := by
  rw [List.mem_cons, mem_serviceAppends h]
  constructor
  · rintro (rfl | ⟨hd, svc, hsvc, ip, hip, ⟨backend, hb⟩, rfl⟩)
    · exact ⟨none, cidr, hcidr, rfl⟩
    · exact ⟨some (svc, backend), cidr, hcidr, hd, hsvc, ip, hip, hb, rfl⟩
  · rintro ⟨via, cidr', hcidr', hcase⟩
    obtain rfl := Option.some.inj (hcidr.symm.trans hcidr')
    cases via with
    | none => exact .inl hcase
    | some v =>
      obtain ⟨hd, hsvc, ip, hip, hb, ha⟩ := hcase
      exact .inr ⟨hd, v.1, hsvc, ip, hip, ⟨v.2, hb⟩, ha⟩

theorem mem_resourceAppends {port : Option Nat} {protocol : Option Protocol} {rs : List Resource}
    {out : List Append} (h : resourceAppends c net d port protocol policyNs rs = .ok out)
    {a : Append} :
    a ∈ out ↔ ∃ r ∈ rs, ∃ via, ForResource c net d policyNs ⟨port, protocol, none⟩ r a via := by
  obtain ⟨hall, hmem⟩ := mem_collect h
  rw [hmem]
  refine exists_congr fun r => and_congr_right fun hr => ?_
  obtain ⟨l, hl⟩ := hall r hr
  rw [hl]
  rcases hdet : r.details with ⟨_ | cidr, ns⟩
  · rw [hdet] at hl
    cases hl
    simp [ForResource, hdet]
  · rw [hdet] at hl
    obtain ⟨svc, hsvc, hl⟩ := bind_eq_ok.mp hl
    cases hl
    have hcidr : r.details.1 = some cidr := by rw [hdet]
    rw [← mem_forResource (o := ⟨port, protocol, none⟩) hcidr hsvc]
    simp [ownAppend, hdet]

/-- The rules of one call for a named port. -/
theorem createSgRulesWithContainerPorts_ok {port : PolicyPort} {s : LabelSelector}
    {cidrs : List String} {m m' : Matched} {ports : List (Pod × Nat)} {r : Resource}
    {out : List Append}
    (h : createSgRulesWithContainerPorts c net d port s policyNs cidrs m ports r = .ok (out, m')) :
    m' = ports.foldl (addContainerPort (ownPods d s policyNs)) m ∧
      ∀ a, a ∈ out ↔ cidrs = [] ∧ ∃ e ∈ m'.items, ∃ via,
        ForResource c net d policyNs ⟨some e.1, port.protocolOrTCP, some e.2⟩ r a via := by
  unfold createSgRulesWithContainerPorts at h
  cases cidrs with
  | cons cidr cidrs =>
    -- with cluster CIDRs the rules are made behind the loops
    cases h
    exact ⟨rfl, by simp⟩
  | nil =>
    cases hcidr : r.details.1 with
    | none =>
      simp only [hcidr] at h
      cases h
      exact ⟨rfl, by simp [ForResource, hcidr]⟩
    | some cidr =>
      simp only [hcidr] at h
      obtain ⟨appends, happends, h⟩ := bind_eq_ok.mp h
      cases h
      obtain ⟨hall, hmem⟩ := mem_collect happends
      refine ⟨rfl, fun a => ?_⟩
      rw [hmem]
      simp only [true_and]
      refine exists_congr fun e => and_congr_right fun he => ?_
      obtain ⟨l, hl⟩ := hall e he
      rw [hl]
      obtain ⟨svc, hsvc, hl⟩ := bind_eq_ok.mp hl
      cases hl
      rw [← mem_forResource (o := ⟨some e.1, port.protocolOrTCP, some e.2⟩) hcidr hsvc]
      simp [ownAppend]

/-- The calls for a named port: what is found so far is opened for the resource of
each call. -/
theorem runContainerPorts_ok {port : PolicyPort} {s : LabelSelector} {cidrs : List String} :
    ∀ {calls : List (List (Pod × Nat) × Resource)} {m m' : Matched} {out : List Append},
      runContainerPorts c net d port s policyNs cidrs m calls = .ok (out, m') →
      m' = (portsOf calls).foldl (addContainerPort (ownPods d s policyNs)) m ∧
      ∀ a, a ∈ out ↔ cidrs = [] ∧ ∃ before call after, calls = before ++ call :: after ∧
        ∃ e ∈ ((portsOf (before ++ [call])).foldl
          (addContainerPort (ownPods d s policyNs)) m).items,
          ∃ via,
            ForResource c net d policyNs ⟨some e.1, port.protocolOrTCP, some e.2⟩ call.2 a via
  | [], m, m', out, h => by
    cases h
    exact ⟨rfl, by simp⟩
  | call :: calls, m, m', out, h => by
    obtain ⟨⟨now, m₁⟩, hnow, h⟩ := bind_eq_ok.mp h
    obtain ⟨⟨rest, m₂⟩, hrest, h⟩ := bind_eq_ok.mp h
    cases h
    obtain ⟨hm₁, hmem⟩ := createSgRulesWithContainerPorts_ok hnow
    obtain ⟨hm', hmemRest⟩ := runContainerPorts_ok hrest
    subst hm₁
    -- a call opens what it finds, and what the calls before it have found
    refine ⟨by rw [hm', ← List.foldl_append]; rfl, fun a => ?_⟩
    rw [List.mem_append, hmem, hmemRest]
    constructor
    · rintro (⟨hc, e, he, hfor⟩ | ⟨hc, before, call', after, rfl, e, he, hfor⟩)
      · refine ⟨hc, [], call, calls, rfl, e, ?_, hfor⟩
        simpa [portsOf] using he
      · refine ⟨hc, call :: before, call', after, rfl, e, ?_, hfor⟩
        rw [← List.foldl_append] at he
        exact he
    · rintro ⟨hc, before, call', after, hsplit, e, he, hfor⟩
      cases before with
      | nil =>
        cases hsplit
        refine .inl ⟨hc, e, ?_, hfor⟩
        simpa [portsOf] using he
      | cons first before =>
        cases hsplit
        refine .inr ⟨hc, before, call', after, rfl, e, ?_, hfor⟩
        rw [← List.foldl_append]
        exact he

theorem createSgRuleBodyOnTextPort_eq {port : PolicyPort} {npPort : Option String}
    {rs : List Resource} {cidrs : List String} {memo : Memo} :
    createSgRuleBodyOnTextPort c net d port npPort rs policyNs cidrs memo =
      (namedCalls c d npPort policyNs rs memo.podSelector >>= fun calls =>
        runContainerPorts c net d port
          (poppedFor d memo.podSelector) policyNs cidrs Dict.empty calls
          >>= fun x => .ok (x.1 ++ cidrAppends net d port cidrs x.2,
            { memo with podSelector := poppedFor d memo.podSelector })) := by
  cases d with
  | ingress =>
    unfold createSgRuleBodyOnTextPort namedCalls
    cases getPods c memo.podSelector (some policyNs) <;> rfl
  | egress => rfl

/-- The rules on a named port, for resources and for CIDRs. -/
theorem createSgRuleBodyOnTextPort_ok {port : PolicyPort} {npPort : Option String}
    {rs : List Resource} {cidrs : List String} {memo memo' : Memo} {out : List Append}
    (h : createSgRuleBodyOnTextPort c net d port npPort rs policyNs cidrs memo = .ok (out, memo')) :
    memo' = { memo with podSelector := poppedFor d memo.podSelector } ∧
      ∃ calls, namedCalls c d npPort policyNs rs memo.podSelector = .ok calls ∧
        ∀ a, a ∈ out ↔
          (cidrs = [] ∧ ∃ before call after, calls = before ++ call :: after ∧
            ∃ e ∈ (gather (ownPods d (poppedFor d memo.podSelector) policyNs)
              (portsOf (before ++ [call]))).items, ∃ via,
              ForResource c net d policyNs ⟨some e.1, port.protocolOrTCP, some e.2⟩ call.2 a via) ∨
          ∃ e ∈ (gather (ownPods d (poppedFor d memo.podSelector) policyNs) (portsOf calls)).items,
            ∃ cidr ∈ cidrs, a = cidrAppend net d ⟨some e.1, port.protocolOrTCP, some e.2⟩ cidr := by
  rw [createSgRuleBodyOnTextPort_eq] at h
  obtain ⟨calls, hcalls, h⟩ := bind_eq_ok.mp h
  obtain ⟨⟨appends, m⟩, hrun, h⟩ := bind_eq_ok.mp h
  cases h
  obtain ⟨hm, hmem⟩ := runContainerPorts_ok hrun
  refine ⟨rfl, calls, hcalls, fun a => ?_⟩
  rw [List.mem_append, hmem]
  refine or_congr Iff.rfl ?_
  subst hm
  constructor
  · intro ha
    obtain ⟨e, he, ha⟩ := List.mem_flatMap.mp ha
    obtain ⟨cidr, hc, rfl⟩ := List.mem_map.mp ha
    exact ⟨e, he, cidr, hc, rfl⟩
  · rintro ⟨e, he, cidr, hc, rfl⟩
    exact List.mem_flatMap.mpr ⟨e, he, List.mem_map.mpr ⟨cidr, hc, rfl⟩⟩

/-! ### One block -/

theorem peerResources_of_ipBlock {rule : Peer} (h : rule.kind = .ipBlock) :
    peerResources c policyNs rule = .ok [] := by
  rw [peerResources, h]

/-- Without selectors nothing is looked up. -/
theorem collect_of_not_selectorsGiven : ∀ {rules : List Peer}, selectorsGiven rules = false →
    collect (peerResources c policyNs) rules = .ok []
  | [], _ => rfl
  | rule :: rules, h => by
    obtain ⟨hrule, hrules⟩ : rule.kind = .ipBlock ∧ selectorsGiven rules = false := by
      simpa [selectorsGiven] using h
    rw [collect, peerResources_of_ipBlock hrule, collect_of_not_selectorsGiven hrules]
    rfl

theorem clusterCidrs_of_not_selectorsGiven : ∀ {rules : List Peer}, selectorsGiven rules = false →
    ∀ acc, clusterCidrs net rules acc = acc
  | [], _, _ => rfl
  | rule :: rules, h, acc => by
    obtain ⟨hrule, hrules⟩ : rule.kind = .ipBlock ∧ selectorsGiven rules = false := by
      simpa [selectorsGiven] using h
    rw [clusterCidrs, if_neg (by rw [hrule]; simp), clusterCidrs_of_not_selectorsGiven hrules]

/-- What `_parse_selectors` and the IP blocks give for a block. -/
def blockPeers (net : Net) (block : RuleBlock) (memo : Memo) (found : List Resource) : Peers :=
  ⟨(clusterCidrs net (block.peers.getD []) (none, memo.prefixes)).1,
    selectorsGiven (block.peers.getD []), found ++ ipBlockResources net block⟩

/-- The test of `portAppends` is about the policy only. -/
theorem blockPeers_bare {block : RuleBlock} {memo : Memo} {found : List Resource}
    (hfound : collect (peerResources c policyNs) (block.peers.getD []) = .ok found) :
    ((blockPeers net block memo found).allowedResources = [] ∧
      (blockPeers net block memo found).allowedCidrs.getD [] = [] ∧
      ¬ (blockPeers net block memo found).selectors = true) ↔ block.bare net = true := by
  cases hsel : selectorsGiven (block.peers.getD []) with
  | true => simp [blockPeers, RuleBlock.bare, hsel]
  | false =>
    rw [collect_of_not_selectorsGiven hsel] at hfound
    cases hfound
    simp [blockPeers, RuleBlock.bare, hsel, clusterCidrs_of_not_selectorsGiven hsel]

theorem blockCidrs_of_bare {block : RuleBlock} {memo : Memo} (h : block.bare net = true) :
    blockCidrs net block memo = [] := by
  have hsel : selectorsGiven (block.peers.getD []) = false := by
    simp only [RuleBlock.bare, Bool.and_eq_true, Bool.not_eq_true'] at h
    exact h.1
  rw [blockCidrs, clusterCidrs_of_not_selectorsGiven hsel]
  rfl

/-- The appends of one port. -/
def PortMade (c : Cluster) (net : Net) (d : Direction) (policyNs : String) (block : RuleBlock)
    (memo : Memo) (port : PolicyPort) (s : LabelSelector) (a : Append) : Prop :=
  match port.port with
  | .number n =>
    (block.bare net = true ∧ ∃ ethertype, a = ⟨createSecurityGroupRuleBody net d (some n)
      port.protocolOrTCP ethertype none none none, false, none, none⟩) ∨
    (block.bare net = false ∧ ∃ rs, BlockResources c net policyNs block rs ∧ ∃ r ∈ rs, ∃ via,
      ForResource c net d policyNs ⟨some n, port.protocolOrTCP, none⟩ r a via) ∨
    ∃ cidr ∈ blockCidrs net block memo, a = cidrAppend net d ⟨some n, port.protocol, none⟩ cidr
  | .text npPort =>
    (∃ rs calls before call after, NamedResources c net policyNs block rs ∧
      namedCalls c d npPort policyNs rs s = .ok calls ∧ calls = before ++ call :: after ∧
      ∃ e ∈ (gather (ownPods d (poppedFor d s) policyNs) (portsOf (before ++ [call]))).items,
        ∃ via,
          ForResource c net d policyNs ⟨some e.1, port.protocolOrTCP, some e.2⟩ call.2 a via) ∨
    ∃ calls, namedCalls c d npPort policyNs (c.pods.map .pod) (poppedFor d s) = .ok calls ∧
      ∃ e ∈ (gather (ownPods d (poppedFor d s) policyNs) (portsOf calls)).items,
        ∃ cidr ∈ blockCidrs net block memo,
          a = cidrAppend net d ⟨some e.1, port.protocolOrTCP, some e.2⟩ cidr

theorem blockResources_iff {block : RuleBlock} {found rs : List Resource}
    (hfound : collect (peerResources c policyNs) (block.peers.getD []) = .ok found) :
    BlockResources c net policyNs block rs ↔ rs = found ++ ipBlockResources net block := by
  constructor
  · rintro ⟨found', hfound', rfl⟩
    rw [hfound] at hfound'
    cases hfound'
    rfl
  · rintro rfl
    exact ⟨found, hfound, rfl⟩

/-- A port of a block without peers. -/
theorem createAllPodsSgRules_bare {block : RuleBlock} {memo m m' : Memo} {port : PolicyPort}
    {out : List Append} (hbare : block.bare net = true)
    (h : createAllPodsSgRules c net d port policyNs [] m = .ok (out, m')) :
    m' = { m with podSelector := selectorAfter d m.podSelector port } ∧
      ∀ a, a ∈ out ↔ PortMade c net d policyNs block memo port m.podSelector a := by
  unfold createAllPodsSgRules at h
  unfold PortMade selectorAfter
  rw [blockCidrs_of_bare hbare]
  cases hport : port.port with
  | text npPort =>
    rw [hport] at h
    obtain ⟨rfl, calls, hcalls, hmem⟩ := createSgRuleBodyOnTextPort_ok h
    refine ⟨rfl, fun a => ?_⟩
    rw [hmem]
    simp only [true_and, List.not_mem_nil, false_and, exists_false, and_false, or_false,
      NamedResources, hbare, if_true]
    constructor
    · rintro ⟨before, call, after, hsplit, hrest⟩
      exact ⟨_, calls, before, call, after, rfl, hcalls, hsplit, hrest⟩
    · rintro ⟨_, calls', before, call, after, rfl, hcalls', hsplit, hrest⟩
      rw [hcalls] at hcalls'
      cases hcalls'
      exact ⟨before, call, after, hsplit, hrest⟩
  | number n =>
    rw [hport] at h
    simp only [ne_eq, not_true_eq_false, if_false] at h
    -- everybody may come in, in both families
    cases h
    refine ⟨rfl, fun a => ?_⟩
    simp only [hbare, true_and, Bool.true_eq_false, false_and, List.not_mem_nil, exists_false,
      or_false, List.mem_map]
    constructor
    · rintro ⟨ethertype, -, rfl⟩
      exact ⟨ethertype, rfl⟩
    · rintro ⟨ethertype, rfl⟩
      exact ⟨ethertype, by cases ethertype <;> simp, rfl⟩

/-- A port of a block, towards the cluster CIDRs. -/
theorem createAllPodsSgRules_cidrs {cidrs : List String} {m m' : Memo} {port : PolicyPort}
    {out : List Append} (hne : cidrs ≠ [])
    (h : createAllPodsSgRules c net d port policyNs cidrs m = .ok (out, m')) :
    m' = { m with podSelector := selectorAfter d m.podSelector port } ∧
      ∀ a, a ∈ out ↔ match port.port with
        | .number n => ∃ cidr ∈ cidrs, a = cidrAppend net d ⟨some n, port.protocol, none⟩ cidr
        | .text npPort =>
          ∃ calls, namedCalls c d npPort policyNs (c.pods.map .pod) m.podSelector = .ok calls ∧
            ∃ e ∈ (gather (ownPods d (poppedFor d m.podSelector) policyNs) (portsOf calls)).items,
              ∃ cidr ∈ cidrs, a = cidrAppend net d
                ⟨some e.1, port.protocolOrTCP, some e.2⟩ cidr := by
  unfold createAllPodsSgRules at h
  unfold selectorAfter
  cases hport : port.port with
  | text npPort =>
    rw [hport] at h
    obtain ⟨rfl, calls, hcalls, hmem⟩ := createSgRuleBodyOnTextPort_ok h
    refine ⟨rfl, fun a => ?_⟩
    rw [hmem]
    simp only [hne, false_and, false_or]
    constructor
    · intro hrest
      exact ⟨calls, hcalls, hrest⟩
    · rintro ⟨calls', hcalls', hrest⟩
      rw [hcalls] at hcalls'
      cases hcalls'
      exact hrest
  | number n =>
    rw [hport] at h
    simp only [ne_eq, hne, not_false_eq_true, if_true] at h
    cases h
    refine ⟨rfl, fun a => ?_⟩
    simp [cidrAppend, eq_comm]

/-- A port of a block, towards its resources. -/
theorem resourcePortAppends_ok {rs : List Resource} {m m' : Memo} {port : PolicyPort}
    {out : List Append} (h : resourcePortAppends c net d policyNs rs port m = .ok (out, m')) :
    m' = { m with podSelector := selectorAfter d m.podSelector port } ∧
      ∀ a, a ∈ out ↔ match port.port with
        | .number n => ∃ r ∈ rs, ∃ via,
            ForResource c net d policyNs ⟨some n, port.protocolOrTCP, none⟩ r a via
        | .text npPort => ∃ calls before call after,
            namedCalls c d npPort policyNs rs m.podSelector = .ok calls ∧
            calls = before ++ call :: after ∧
            ∃ e ∈ (gather (ownPods d (poppedFor d m.podSelector) policyNs)
              (portsOf (before ++ [call]))).items, ∃ via,
              ForResource c net d policyNs ⟨some e.1, port.protocolOrTCP, some e.2⟩ call.2 a
                via := by
  unfold resourcePortAppends at h
  unfold selectorAfter
  cases hport : port.port with
  | text npPort =>
    rw [hport] at h
    obtain ⟨rfl, calls, hcalls, hmem⟩ := createSgRuleBodyOnTextPort_ok h
    refine ⟨rfl, fun a => ?_⟩
    rw [hmem]
    simp only [true_and, List.not_mem_nil, false_and, exists_false, and_false, or_false]
    constructor
    · rintro ⟨before, call, after, hsplit, hrest⟩
      exact ⟨calls, before, call, after, hcalls, hsplit, hrest⟩
    · rintro ⟨calls', before, call, after, hcalls', hsplit, hrest⟩
      rw [hcalls] at hcalls'
      cases hcalls'
      exact ⟨before, call, after, hsplit, hrest⟩
  | number n =>
    rw [hport] at h
    obtain ⟨appends, happends, h⟩ := bind_eq_ok.mp h
    cases h
    exact ⟨rfl, fun a => mem_resourceAppends happends⟩

theorem portAppends_ok {block : RuleBlock} {memo m m' : Memo} {port : PolicyPort}
    {found : List Resource} {out : List Append}
    (hfound : collect (peerResources c policyNs) (block.peers.getD []) = .ok found)
    (h : portAppends c net d policyNs (blockPeers net block memo found) port m = .ok (out, m')) :
    m' = { m with podSelector := selectorAfter d m.podSelector port } ∧
      ∀ a, a ∈ out ↔ PortMade c net d policyNs block memo port m.podSelector a := by
  unfold portAppends at h
  cases hbare : block.bare net with
  | true =>
    rw [if_pos ((blockPeers_bare hfound).mpr hbare)] at h
    exact createAllPodsSgRules_bare hbare h
  | false =>
    rw [if_neg fun hp => by rw [(blockPeers_bare hfound).mp hp] at hbare; cases hbare] at h
    obtain ⟨⟨appends, m₁⟩, happends, h⟩ := bind_eq_ok.mp h
    simp only at h
    obtain ⟨rfl, hmem⟩ := resourcePortAppends_ok happends
    -- the rules for the peers, and what is left to say for the cluster CIDRs
    have hres : ∀ a, a ∈ appends ∨ (match port.port with
        | .number n => ∃ cidr ∈ blockCidrs net block memo,
            a = cidrAppend net d ⟨some n, port.protocol, none⟩ cidr
        | .text npPort => ∃ calls,
            namedCalls c d npPort policyNs (c.pods.map .pod) (poppedFor d m.podSelector) =
              .ok calls ∧
            ∃ e ∈ (gather (ownPods d (poppedFor d m.podSelector) policyNs) (portsOf calls)).items,
              ∃ cidr ∈ blockCidrs net block memo,
                a = cidrAppend net d ⟨some e.1, port.protocolOrTCP, some e.2⟩ cidr) ↔
        PortMade c net d policyNs block memo port m.podSelector a := by
      intro a
      rw [hmem]
      unfold PortMade
      cases hport : port.port with
      | text npPort =>
        refine or_congr ?_ Iff.rfl
        simp only [NamedResources, hbare, Bool.false_eq_true, if_false, blockResources_iff hfound]
        simp [blockPeers]
      | number n =>
        simp only [hbare, Bool.false_eq_true, false_and, false_or, true_and,
          blockResources_iff hfound, exists_eq_left]
        rfl
    by_cases hc : (blockPeers net block memo found).allowedCidrs.getD [] = []
    · rw [if_pos hc] at h
      cases h
      refine ⟨rfl, fun a => ?_⟩
      rw [← hres a]
      have hno : blockCidrs net block memo = [] := hc
      cases port.port <;> simp [hno]
    · rw [if_neg hc] at h
      obtain ⟨⟨more, m₂⟩, hmore, h⟩ := bind_eq_ok.mp h
      cases h
      obtain ⟨rfl, hmemMore⟩ := createAllPodsSgRules_cidrs hc hmore
      refine ⟨?_, fun a => ?_⟩
      · simp only [selectorAfter]
        cases port.port <;> simp
      · rw [List.mem_append, hmemMore, ← hres a]
        refine or_congr Iff.rfl ?_
        cases hport : port.port with
        | text npPort => simp [selectorAfter, hport, blockCidrs, blockPeers]
        | number n => rfl

theorem portsAppends_ok {block : RuleBlock} {memo : Memo} {found : List Resource}
    (hfound : collect (peerResources c policyNs) (block.peers.getD []) = .ok found) :
    ∀ {ports : List PolicyPort} {m m' : Memo} {out : List Append},
      portsAppends c net d policyNs (blockPeers net block memo found) ports m = .ok (out, m') →
      m' = { m with podSelector := ports.foldl (selectorAfter d) m.podSelector } ∧
        ∀ a, a ∈ out ↔ ∃ port s, (port, s) ∈ portSelectors d ports m.podSelector ∧
          PortMade c net d policyNs block memo port s a
  | [], m, m', out, h => by
    cases h
    exact ⟨rfl, by simp [portSelectors]⟩
  | port :: ports, m, m', out, h => by
    obtain ⟨⟨appends, m₁⟩, happends, h⟩ := bind_eq_ok.mp h
    obtain ⟨⟨rest, m₂⟩, hrest, h⟩ := bind_eq_ok.mp h
    cases h
    obtain ⟨rfl, hmem⟩ := portAppends_ok hfound happends
    obtain ⟨rfl, hmemRest⟩ := portsAppends_ok hfound hrest
    refine ⟨rfl, fun a => ?_⟩
    rw [List.mem_append, hmem, hmemRest]
    simp only [portSelectors, List.mem_cons, Prod.mk.injEq]
    constructor
    · rintro (h | ⟨port', s, hport, h⟩)
      · exact ⟨port, _, .inl ⟨rfl, rfl⟩, h⟩
      · exact ⟨port', s, .inr hport, h⟩
    · rintro ⟨port', s, ⟨rfl, rfl⟩ | hport, h⟩
      · exact .inl h
      · exact .inr ⟨port', s, hport, h⟩

theorem exists_portSelector {port : PolicyPort} : ∀ {ports : List PolicyPort} {s : LabelSelector},
    port ∈ ports → ∃ s', (port, s') ∈ portSelectors d ports s
  | first :: ports, s, h => by
    rcases List.mem_cons.mp h with rfl | h
    · exact ⟨s, List.mem_cons_self⟩
    · obtain ⟨s', hs'⟩ := exists_portSelector h
      exact ⟨s', List.mem_cons_of_mem _ hs'⟩

theorem mem_of_portSelectors {port : PolicyPort} {s' : LabelSelector} :
    ∀ {ports : List PolicyPort} {s : LabelSelector}, (port, s') ∈ portSelectors d ports s →
      port ∈ ports
  | first :: ports, s, h => by
    rcases List.mem_cons.mp h with h | h
    · cases h
      exact List.mem_cons_self
    · exact List.mem_cons_of_mem _ (mem_of_portSelectors h)

/-- A block with ports. -/
theorem made_iff_portMade {block : RuleBlock} {memo : Memo} {ports : List PolicyPort} {a : Append}
    (hports : block.ports = some ports) :
    (∃ why, Made c net d policyNs block memo a why) ↔
      ∃ port s, (port, s) ∈ portSelectors d ports memo.podSelector ∧
        PortMade c net d policyNs block memo port s a := by
  constructor
  · rintro ⟨why, hmade⟩
    cases hmade with
    | peer ho ha =>
      cases ho with
      | everything hnone => rw [hports] at hnone; cases hnone
      | number hp hport hn hbare hrs hr =>
        -- a number does not read the selector: any one that goes with the port will do
        rw [hports] at hp
        cases hp
        obtain ⟨s, hs⟩ := exists_portSelector (d := d) (s := memo.podSelector) hport
        refine ⟨_, s, hs, ?_⟩
        rw [PortMade, hn]
        exact .inr (.inl ⟨hbare, _, hrs, _, hr, _, ha⟩)
      | named hp hport hnp hrs hcalls hsplit he howner hex =>
        rw [hports] at hp
        cases hp
        refine ⟨_, _, hport, ?_⟩
        rw [PortMade, hnp]
        exact .inl ⟨_, _, _, _, _, hrs, hcalls, hsplit, _, he, _, ha⟩
    | cidr ho hc =>
      cases ho with
      | everything hnone => rw [hports] at hnone; cases hnone
      | number hp hport hn =>
        rw [hports] at hp
        cases hp
        obtain ⟨s, hs⟩ := exists_portSelector (d := d) (s := memo.podSelector) hport
        refine ⟨_, s, hs, ?_⟩
        rw [PortMade, hn]
        exact .inr (.inr ⟨_, hc, rfl⟩)
      | named hp hport hnp hcalls he howner hex =>
        rw [hports] at hp
        cases hp
        refine ⟨_, _, hport, ?_⟩
        rw [PortMade, hnp]
        exact .inr ⟨_, hcalls, _, he, _, hc, rfl⟩
    | anywhere hbare hp hport hn =>
      rw [hports] at hp
      cases hp
      obtain ⟨s, hs⟩ := exists_portSelector (d := d) (s := memo.podSelector) hport
      refine ⟨_, s, hs, ?_⟩
      rw [PortMade, hn]
      exact .inl ⟨hbare, _, rfl⟩
  · rintro ⟨port, s, hport, hmade⟩
    have hmem := mem_of_portSelectors hport
    unfold PortMade at hmade
    split at hmade
    · next n hn =>
      rcases hmade with ⟨hbare, ethertype, rfl⟩ | ⟨hbare, rs, hrs, r, hr, via, ha⟩ |
        ⟨cidr, hc, rfl⟩
      · exact ⟨_, .anywhere hbare hports hmem hn⟩
      · exact ⟨_, .peer (.number hports hmem hn hbare hrs hr) ha⟩
      · exact ⟨_, .cidr (.number hports hmem hn) hc⟩
    · next npPort hnp =>
      rcases hmade with ⟨rs, calls, before, call, after, hrs, hcalls, hsplit, e, he, via, ha⟩ |
        ⟨calls, hcalls, e, he, cidr, hc, rfl⟩
      · obtain ⟨owner, howner, hex⟩ := gather_owner he
        exact ⟨_, .peer (.named hports hport hnp hrs hcalls hsplit he howner hex) ha⟩
      · obtain ⟨owner, howner, hex⟩ := gather_owner he
        exact ⟨_, .cidr (.named hports hport hnp hcalls he howner hex) hc⟩

/-- **The appends of a block are those of the relation.** -/
theorem blockAppends_ok {block : RuleBlock} {memo memo' : Memo} {out : List Append}
    (h : blockAppends c net d policyNs block memo = .ok (out, memo')) :
    memo' = memoAfter net d block memo ∧
      ∀ a, a ∈ out ↔ ∃ why, Made c net d policyNs block memo a why := by
  obtain ⟨⟨peers, prefixes⟩, hpeers, h⟩ := bind_eq_ok.mp h
  rw [parseSelectors_eq] at hpeers
  cases hfound : collect (peerResources c policyNs) (block.peers.getD []) with
  | error e => rw [hfound] at hpeers; cases hpeers
  | ok found =>
    rw [hfound] at hpeers
    cases hpeers
    cases hports : block.ports with
    | some ports =>
      simp only [hports] at h
      change portsAppends c net d policyNs (blockPeers net block memo found) ports _ = _ at h
      obtain ⟨rfl, hmem⟩ := portsAppends_ok hfound h
      refine ⟨by simp [memoAfter, hports], fun a => ?_⟩
      rw [hmem, made_iff_portMade hports]
    | none =>
      simp only [hports] at h
      obtain ⟨appends, happends, h⟩ := bind_eq_ok.mp h
      cases h
      refine ⟨by simp [memoAfter, hports], fun a => ?_⟩
      rw [List.mem_append, mem_resourceAppends happends]
      constructor
      · rintro (⟨r, hr, via, ha⟩ | ha)
        · exact ⟨_, .peer (.everything hports ⟨found, hfound, rfl⟩ hr) ha⟩
        · obtain ⟨cidr, hc, rfl⟩ := List.mem_map.mp ha
          exact ⟨_, .cidr (.everything hports) hc⟩
      · rintro ⟨why, hmade⟩
        cases hmade with
        | peer ho ha =>
          cases ho with
          | everything _ hrs hr =>
            rw [(blockResources_iff hfound).mp hrs] at hr
            exact .inl ⟨_, hr, _, ha⟩
          | number hp => rw [hports] at hp; cases hp
          | named hp => rw [hports] at hp; cases hp
        | cidr ho hc =>
          cases ho with
          | everything _ => exact .inr (List.mem_map.mpr ⟨_, hc, rfl⟩)
          | number hp => rw [hports] at hp; cases hp
          | named hp => rw [hports] at hp; cases hp
        | anywhere _ hp => rw [hports] at hp; cases hp

theorem blocksAppends_ok : ∀ {blocks : List RuleBlock} {memo memo' : Memo} {out : List Append},
    blocksAppends c net d policyNs blocks memo = .ok (out, memo') →
      memo' = blocks.foldl (fun m block => memoAfter net d block m) memo ∧
        ∀ a, a ∈ out ↔ ∃ block m, (block, m) ∈ blockMemos net d blocks memo ∧
          ∃ why, Made c net d policyNs block m a why
  | [], memo, memo', out, h => by
    cases h
    exact ⟨rfl, by simp [blockMemos]⟩
  | block :: blocks, memo, memo', out, h => by
    obtain ⟨⟨appends, m₁⟩, happends, h⟩ := bind_eq_ok.mp h
    obtain ⟨⟨rest, m₂⟩, hrest, h⟩ := bind_eq_ok.mp h
    cases h
    obtain ⟨rfl, hmem⟩ := blockAppends_ok happends
    obtain ⟨rfl, hmemRest⟩ := blocksAppends_ok hrest
    refine ⟨rfl, fun a => ?_⟩
    rw [List.mem_append, hmem, hmemRest]
    simp only [blockMemos, List.mem_cons, Prod.mk.injEq]
    constructor
    · rintro (hwhy | ⟨block', m, hblock, hwhy⟩)
      · exact ⟨block, memo, .inl ⟨rfl, rfl⟩, hwhy⟩
      · exact ⟨block', m, .inr hblock, hwhy⟩
    · rintro ⟨block', m, ⟨rfl, rfl⟩ | hblock, hwhy⟩
      · exact .inl hwhy
      · exact .inr ⟨block', m, hblock, hwhy⟩

end

/-! ### A policy -/

/-- All blocks of a compilation that succeeds have been resolved. -/
theorem blocksAppends_resolved {c : Cluster} {net : Net} {d : Direction} {policyNs : String}
    {block : RuleBlock} : ∀ {blocks : List RuleBlock} {memo memo' : Memo} {out : List Append},
    blocksAppends c net d policyNs blocks memo = .ok (out, memo') → block ∈ blocks →
      ∃ rs, BlockResources c net policyNs block rs
  | first :: blocks, memo, memo', out, h, hblock => by
    obtain ⟨⟨appends, m₁⟩, happends, h⟩ := bind_eq_ok.mp h
    obtain ⟨⟨rest, m₂⟩, hrest, -⟩ := bind_eq_ok.mp h
    rcases List.mem_cons.mp hblock with rfl | hblock
    · obtain ⟨peers, hpeers, -⟩ := bind_eq_ok.mp happends
      rw [parseSelectors_eq] at hpeers
      cases hfound : collect (peerResources c policyNs) (block.peers.getD []) with
      | error e => rw [hfound] at hpeers; cases hpeers
      | ok found => exact ⟨_, found, hfound, rfl⟩
    · exact blocksAppends_resolved hrest hblock

/-- The memo each direction starts with: ingress comes first. -/
def startMemo (net : Net) (policy : NetworkPolicy) (prefixes : List String) : Direction → Memo
  | .ingress => ⟨policy.spec.podSelector, prefixes⟩
  | .egress => (policy.spec.blocks .ingress).foldl (fun m block => memoAfter net .ingress block m)
      ⟨policy.spec.podSelector, prefixes⟩

/-- The unrestricted rules the code adds to a direction. -/
def defaultAppends (net : Net) (spec : PolicySpec) (d : Direction) : List Append :=
  match spec.blocks d with
  | [] => if (d = .ingress ∧ spec.policyTypes = [.egress]) ∨
      (d = .egress ∧ spec.policyTypes ≠ [] ∧ .egress ∉ spec.policyTypes) then
    createDefaultSgRule net d else []
  | block :: _ => if block = RuleBlock.empty then createDefaultSgRule net d else []

/-- The appends of a direction of a policy, with their reasons. -/
inductive PolicyMade (c : Cluster) (net : Net) (policy : NetworkPolicy) (prefixes : List String)
    (d : Direction) : Append → Reason → Prop
  | default {a} (h : a ∈ defaultAppends net policy.spec d) :
      PolicyMade c net policy prefixes d a ⟨none, none, none⟩
  | block {block memo a why}
      (hblock : (block, memo) ∈
        blockMemos net d (policy.spec.blocks d) (startMemo net policy prefixes d))
      (h : Made c net d policy.ns block memo a why) : PolicyMade c net policy prefixes d a why

theorem parseSgRules_ok {c : Cluster} {net : Net} {d : Direction} {policy : NetworkPolicy}
    {memo memo' : Memo} {out : List Append}
    (h : parseSgRules c net d policy memo = .ok (out, memo')) :
    memo' = (policy.spec.blocks d).foldl (fun m block => memoAfter net d block m) memo ∧
      ∀ a, a ∈ out ↔ a ∈ defaultAppends net policy.spec d ∨
        ∃ block m, (block, m) ∈ blockMemos net d (policy.spec.blocks d) memo ∧
          ∃ why, Made c net d policy.ns block m a why := by
  cases hb : policy.spec.blocks d with
  | nil =>
    refine ⟨?_, fun a => ?_⟩
    · unfold parseSgRules at h
      rw [show (policy.spec.ruleList d).getD [] = [] from hb] at h
      cases d <;> cases h <;> rfl
    · rw [parseSgRules_of_no_blocks hb h, defaultAppends, hb]
      simp [blockMemos]
  | cons block blocks =>
    obtain ⟨bs, hbs, rfl⟩ := parseSgRules_of_blocks hb h
    obtain ⟨rfl, hmem⟩ := blocksAppends_ok hbs
    refine ⟨rfl, fun a => ?_⟩
    rw [List.mem_append, hmem, defaultAppends, hb]

/-- The appends of one direction of a compilation. -/
def appendsOf (out : List Append × List Append) : Direction → List Append
  | .ingress => out.1
  | .egress => out.2

/-- **The compiler makes exactly the rules that have a reason.** -/
theorem mem_parseNetworkPolicyRules {c : Cluster} {net : Net} {policy : NetworkPolicy}
    {prefixes : List String} {out : List Append × List Append}
    (h : parseNetworkPolicyRules c net policy prefixes = .ok out) (d : Direction) (a : Append) :
    a ∈ appendsOf out d ↔ ∃ why, PolicyMade c net policy prefixes d a why := by
  obtain ⟨⟨ingress, memo₁⟩, hin, h⟩ := bind_eq_ok.mp h
  obtain ⟨⟨egress, memo₂⟩, heg, h⟩ := bind_eq_ok.mp h
  cases h
  obtain ⟨rfl, hmemIn⟩ := parseSgRules_ok hin
  obtain ⟨-, hmemEg⟩ := parseSgRules_ok heg
  have hiff : a ∈ appendsOf (ingress, egress) d ↔ a ∈ defaultAppends net policy.spec d ∨
      ∃ block m, (block, m) ∈
        blockMemos net d (policy.spec.blocks d) (startMemo net policy prefixes d) ∧
          ∃ why, Made c net d policy.ns block m a why := by
    cases d with
    | ingress => exact hmemIn a
    | egress => exact hmemEg a
  rw [hiff]
  constructor
  · rintro (hdef | ⟨block, m, hblock, why, hwhy⟩)
    · exact ⟨_, .default hdef⟩
    · exact ⟨why, .block hblock hwhy⟩
  · rintro ⟨why, hmade⟩
    cases hmade with
    | default hdef => exact .inl hdef
    | block hblock hwhy => exact .inr ⟨_, _, hblock, why, hwhy⟩

theorem parseSgRules_resolved {c : Cluster} {net : Net} {d : Direction} {policy : NetworkPolicy}
    {memo : Memo} {out : List Append × Memo} {block : RuleBlock}
    (h : parseSgRules c net d policy memo = .ok out) (hblock : block ∈ policy.spec.blocks d) :
    ∃ rs, BlockResources c net policy.ns block rs := by
  cases hb : policy.spec.blocks d with
  | nil => rw [hb] at hblock; cases hblock
  | cons first blocks =>
    obtain ⟨bs, hbs, -⟩ := parseSgRules_of_blocks hb h
    exact blocksAppends_resolved hbs (hb ▸ hblock)

theorem parseNetworkPolicyRules_resolved {c : Cluster} {net : Net} {policy : NetworkPolicy}
    {prefixes : List String} {out : List Append × List Append} {d : Direction} {block : RuleBlock}
    (h : parseNetworkPolicyRules c net policy prefixes = .ok out)
    (hblock : block ∈ policy.spec.blocks d) : ∃ rs, BlockResources c net policy.ns block rs := by
  obtain ⟨⟨ingress, memo₁⟩, hin, h⟩ := bind_eq_ok.mp h
  obtain ⟨⟨egress, memo₂⟩, heg, -⟩ := bind_eq_ok.mp h
  cases d with
  | ingress => exact parseSgRules_resolved hin hblock
  | egress => exact parseSgRules_resolved heg hblock

end KuryrKubernetes
