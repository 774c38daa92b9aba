import KuryrKubernetes.Drivers.ListenerAcls
import KuryrKubernetes.Handlers.KuryrNetwork
import Mathlib.Logic.Function.Basic

/-!
# The callers of `_apply_members_security_groups`

Two methods of the driver bring the listeners of a Service in line with its security
groups: `update_lbaas_sg`, for all ports of the Service when its groups change, and
`ensure_member`, for the first member of a pool. The first one reads the target port from
the Service, the second one from the endpoints.

- `Octavia`: all listeners, and the rules of the load balancer's group.
- `TargetPort`: a number or a name. Names are never in a range of port numbers.
- `aclSgs_eq`: the loop of `_create_listeners_acls` collects the prefixes of the rules
  that pass.
- `applyTo_cidrs`, `updatePorts_cidrs`: what the two callers set on the listener of a port.
-/

namespace KuryrKubernetes

namespace ListenerAcls

open KuryrNetwork (Text getResourceName)

variable {π : Type}

/-! ## Target ports -/

/-- `targetPort` of a Service port. -/
inductive TargetPort where
  | number (n : Nat)
  | name (s : String)
deriving DecidableEq, Repr

/-- `target_port in range(min_port, max_port+1)`. -/
def TargetPort.InRange (minPort maxPort : Nat) : TargetPort → Prop
  | .number n => minPort ≤ n ∧ n ≤ maxPort
  | .name _ => False

/-- The port as a number. No range that is looked at starts with 0, so 0 stands for a
name (`outside_asNumber`). -/
def TargetPort.asNumber : TargetPort → Nat
  | .number n => n
  | .name _ => 0

/-- The endpoints have the port under this number. -/
def TargetPort.Resolves (n : Nat) : TargetPort → Prop
  | .number m => m = n
  | .name _ => True

theorem outside_asNumber {r : SgRule π} {t : TargetPort} :
    r.outside t.asNumber = true ↔ ∃ minPort maxPort, r.portRange = some (minPort, maxPort) ∧
      minPort ≠ 0 ∧ ¬ t.InRange minPort maxPort := by
  unfold SgRule.outside
  cases hrange : r.portRange with
  | none => simp
  | some range =>
    obtain ⟨a, b⟩ := range
    cases t with
    | number n =>
      simp only [TargetPort.asNumber, TargetPort.InRange, Option.some.injEq, Prod.mk.injEq]
      grind
    | name s =>
      simp only [TargetPort.asNumber, TargetPort.InRange, Option.some.injEq, Prod.mk.injEq]
      grind

/-! ## The driver -/

structure ServicePort where
  protocol : Protocol
  port : Nat
  targetPort : TargetPort
deriving DecidableEq, Repr

/-- A Service. Its ports differ in protocol or number, and its names are labels. -/
structure Service where
  ns : Text
  name : Text
  ports : List ServicePort
  ports_nodup : (ports.map fun p => (p.protocol, p.port)).Nodup
  ns_length : ns.length ≤ 63
  name_length : name.length ≤ 63

def protocolName : Protocol → String
  | .TCP => "TCP"
  | .UDP => "UDP"
  | .SCTP => "SCTP"

/-- `f":{port_protocol}:{lbaas_port}"`. -/
def portSuffix (protocol : Protocol) (port : Nat) : Text :=
  [':'] ++ (protocolName protocol).toList ++ [':'] ++ (Nat.repr port).toList

/-- `get_service_loadbalancer_name`. -/
def Service.loadbalancerName (svc : Service) : Text := svc.ns ++ ['/'] ++ svc.name

/-- The name of a listener, and of its pool, in `ensure_listener`. -/
def Service.listenerName (svc : Service) (protocol : Protocol) (port : Nat) : Text :=
  svc.loadbalancerName ++ portSuffix protocol port

/-- `sg_rule_name` of `update_lbaas_sg`. -/
def Service.sgRuleName (svc : Service) (p : ServicePort) : Text :=
  getResourceName (getResourceName svc.name [] (svc.ns ++ ['/']) []) [] []
    (portSuffix p.protocol p.port)

/-- An item of `status['listeners']`, as far as it is read. -/
structure KnownListener where
  id : String
  protocol : Protocol
  port : Nat
deriving DecidableEq, Repr

/-- The status of the KuryrLoadBalancer. -/
structure Klb where
  loadbalancer : Option LoadBalancer
  listeners : Option (List KnownListener)

/-- The answers `update_lbaas_sg` gets from Kubernetes. -/
structure Requests where
  endpoints : Except Exc Unit
  klb : Except Exc Klb
  patch : Except Exc Unit

/-- The listeners, and the rules of the load balancer's group. -/
structure Octavia (π : Type) where
  listeners : String → Listener π
  lbRules : List (SgRule π)

/-- `lsnr_ids`: a later listener hides an earlier one. -/
def lsnrIds (listeners : List KnownListener) (protocol : Protocol) (port : Nat) : Option String :=
  (listeners.reverse.find? fun l => l.protocol = protocol ∧ l.port = port).map KnownListener.id

/-- A pool of `status['pools']`. -/
structure MemberPool where
  name : Text
  protocol : Protocol
  listenerId : String

section Driver

variable [DecidableEq π] (octaviaAcls : Bool) (env : Env π)

/-- `_apply_members_security_groups` for one of the listeners. -/
def applyTo (lb : LoadBalancer) (c : Args) (id : String) (o : Octavia π) :
    Octavia π × Except Exc Unit :=
  match applyMembersSecurityGroups octaviaAcls env lb c ⟨o.listeners id, o.lbRules⟩ with
  | .ok w => (⟨Function.update o.listeners id w.listener, w.lbRules⟩, .ok ())
  | .error e => (o, .error e)

/-- The arguments `update_lbaas_sg` passes for a port. -/
def ServicePort.args (svc : Service) (sgs : List String) (p : ServicePort) : Args :=
  ⟨p.port, p.targetPort.asNumber, protocolName p.protocol, svc.sgRuleName p, some sgs⟩

/-- One port in the loop of `update_lbaas_sg`. -/
def updatePort (svc : Service) (lb : LoadBalancer) (listeners : List KnownListener)
    (sgs : List String) (p : ServicePort) (o : Octavia π) : Octavia π × Except Exc Unit :=
  match lsnrIds listeners p.protocol p.port with
  | none => (o, .ok ())
  | some id => applyTo octaviaAcls env lb (p.args svc sgs) id o

def updatePorts (svc : Service) (lb : LoadBalancer) (listeners : List KnownListener)
    (sgs : List String) : List ServicePort → Octavia π → Octavia π × Except Exc Unit
  | [], o => (o, .ok ())
  | p :: ps, o =>
    match updatePort octaviaAcls env svc lb listeners sgs p o with
    | (o, .ok ()) => updatePorts svc lb listeners sgs ps o
    | (o, .error e) => (o, .error e)

def updateLbaasSg (q : Requests) (svc : Service) (sgs : List String) (o : Octavia π) :
    Octavia π × Except Exc Unit :=
  match q.endpoints with
  | .error .k8sNotFound => (o, .ok ())
  | .error e => (o, .error e)
  | .ok () =>
    match q.klb with
    | .error .k8sNotFound => (o, .error .notReady)
    | .error e => (o, .error e)
    | .ok ⟨some lb, some listeners⟩ =>
      match q.patch with
      | .error .k8sNotFound => (o, .ok ())
      | .error e => (o, .error e)
      | .ok () =>
        updatePorts octaviaAcls env svc { lb with securityGroups := sgs } listeners sgs svc.ports o
    | .ok _ => (o, .error .notReady)

/-- `ensure_member` after `_ensure_provisioned`. `networkPolicy` when the handlers and the
security groups driver are those of network policies; a port of 0 is as good as none. -/
def ensureMember (networkPolicy : Bool) (lb : LoadBalancer) (pool : MemberPool) (port : Nat)
    (listenerPort : Option Nat) (provisioned : Except Exc Unit) (o : Octavia π) :
    Octavia π × Except Exc Unit :=
  match provisioned with
  | .error e => (o, .error e)
  | .ok () =>
    match listenerPort with
    | none | some 0 => (o, .ok ())
    | some (lsnrPort + 1) =>
      if networkPolicy ∧ env.enforceSgRules then
        applyTo octaviaAcls env lb
          ⟨lsnrPort + 1, port, protocolName pool.protocol, pool.name, none⟩ pool.listenerId o
      else (o, .ok ())

end Driver

/-! ## The CIDRs of a listener -/

/-- The rule is for the pods' side of a listener of this protocol. -/
def SgRule.Applies (protocol : String) (r : SgRule π) : Prop :=
  r.remoteGroupId = none ∧ (r.protocol.getD "" = "" ∨ r.protocol = some protocol) ∧
    r.direction = .ingress

instance (protocol : String) (r : SgRule π) : Decidable (r.Applies protocol) :=
  inferInstanceAs (Decidable (_ ∧ _ ∧ _))

/-- The loop of `_create_listeners_acls` does not skip the rule. -/
def SgRule.passes (c : Args) (r : SgRule π) : Bool :=
  r.Applies c.lower && !r.outside c.targetPort

/-- The rules that pass. -/
def passing (env : Env π) (c : Args) (lbSg : String) (l : List String) : List (SgRule π) :=
  (l.filter fun sg => sg ≠ lbSg).flatMap fun sg => (env.securityGroupRules sg).filter (·.passes c)

theorem aclRule_eq (c : Args) (acc : List π × Bool) (r : SgRule π) :
    aclRule c acc r =
      if r.passes c then (acc.1 ++ r.remoteIpPrefix.toList, acc.2 || r.remoteIpPrefix.isNone)
      else acc := by
  unfold aclRule SgRule.passes SgRule.Applies
  by_cases hgroup : r.remoteGroupId = none
  · by_cases hmatch : (r.protocol.getD "" = "" ∨ r.protocol = some c.lower) ∧ r.direction = .ingress
    · cases hout : r.outside c.targetPort with
      | true => simp [hgroup, hmatch]
      | false => cases hcidr : r.remoteIpPrefix <;> simp [hgroup, hmatch]
    · simp [hgroup, hmatch]
  · have hsome : r.remoteGroupId.isSome = true := Option.isSome_iff_ne_none.mpr hgroup
    simp [hgroup, hsome]

theorem aclRules_eq (c : Args) (rules : List (SgRule π)) (acc : List π × Bool) :
    rules.foldl (aclRule c) acc =
      (acc.1 ++ (rules.filter (·.passes c)).filterMap SgRule.remoteIpPrefix,
        acc.2 || (rules.filter (·.passes c)).any fun r => r.remoteIpPrefix.isNone) := by
  induction rules generalizing acc with
  | nil => simp
  | cons r rules ih =>
    rw [List.foldl_cons, ih, aclRule_eq]
    by_cases hr : r.passes c = true
    · rw [if_pos hr, List.filter_cons_of_pos hr]
      cases hcidr : r.remoteIpPrefix <;> simp [hcidr]
    · rw [if_neg hr, List.filter_cons_of_neg hr]

/-- **The loop over the groups** collects the prefixes of the rules that pass. A default
group opens the listener whatever was collected. -/
theorem aclSgs_eq (env : Env π) (c : Args) (lbSg : String) (l : List String) (acc : List π × Bool) :
    (HasDefault env lbSg l → (aclSgs env c lbSg l acc).2 = true) ∧
      (¬ HasDefault env lbSg l → aclSgs env c lbSg l acc =
        (acc.1 ++ (passing env c lbSg l).filterMap SgRule.remoteIpPrefix,
          acc.2 || (passing env c lbSg l).any fun r => r.remoteIpPrefix.isNone)) := by
  induction l generalizing acc with
  | nil => simp [HasDefault, aclSgs, passing]
  | cons sg l ih =>
    unfold aclSgs
    by_cases hsg : sg = lbSg
    · have hdefault : HasDefault env lbSg (sg :: l) ↔ HasDefault env lbSg l := by
        simp [HasDefault, hsg]
      have hpassing : passing env c lbSg (sg :: l) = passing env c lbSg l := by
        rw [passing, List.filter_cons_of_neg (by simp [hsg])]
        rfl
      rw [if_pos hsg, hdefault, hpassing]
      exact ih acc
    · by_cases hpod : sg ∈ env.podSecurityGroups
      · have hdefault : HasDefault env lbSg (sg :: l) := ⟨sg, List.mem_cons_self, hsg, hpod⟩
        rw [if_neg hsg, if_pos hpod]
        exact ⟨fun _ => rfl, fun h => absurd hdefault h⟩
      · rw [if_neg hsg, if_neg hpod, hasDefault_cons hsg hpod]
        refine ⟨(ih _).1, fun h => ?_⟩
        have hpassing : passing env c lbSg (sg :: l) =
            (env.securityGroupRules sg).filter (·.passes c) ++ passing env c lbSg l := by
          rw [passing, List.filter_cons_of_pos (by simpa using hsg), List.flatMap_cons]
          rfl
        rw [(ih _).2 h, aclRules_eq, hpassing, List.filterMap_append, List.any_append,
          List.append_assoc, Bool.or_assoc]

/-- The CIDRs for `_update_listener_acls`. -/
def allowedCidrs (env : Env π) (c : Args) (lbSg : String) (l : List String) : Option (List π) :=
  let (allPodRules, addDefaultRules) := aclSgs env c lbSg l ([], l.isEmpty)
  if addDefaultRules then none else some allPodRules

/-- The listener is opened to every source: there is no group, a default group, or a rule
without a prefix passes. -/
def Opened (env : Env π) (c : Args) (lbSg : String) (l : List String) : Prop :=
  l = [] ∨ HasDefault env lbSg l ∨ ∃ r ∈ passing env c lbSg l, r.remoteIpPrefix = none

theorem allowedCidrs_eq (env : Env π) (c : Args) (lbSg : String) (l : List String) :
    (Opened env c lbSg l → allowedCidrs env c lbSg l = none) ∧
      (¬ Opened env c lbSg l → allowedCidrs env c lbSg l =
        some ((passing env c lbSg l).filterMap SgRule.remoteIpPrefix)) := by
  obtain ⟨hdefault, hother⟩ := aclSgs_eq env c lbSg l ([], l.isEmpty)
  unfold allowedCidrs
  by_cases hd : HasDefault env lbSg l
  · simp only [hdefault hd]
    exact ⟨fun _ => rfl, fun h => absurd (.inr (.inl hd)) h⟩
  · simp only [hother hd]
    have hiff : (l.isEmpty || (passing env c lbSg l).any fun r => r.remoteIpPrefix.isNone) = true ↔
        Opened env c lbSg l := by
      simp [Opened, hd]
    refine ⟨fun h => if_pos (hiff.mpr h), fun h => ?_⟩
    rw [if_neg fun hf => h (hiff.mp hf)]
    rfl

theorem createListenersAcls_cidrs {env : Env π} {lb : LoadBalancer} {c : Args} {lbSg : String}
    {w : World π} (hprovisioned : env.provisioned = true) :
    (createListenersAcls env lb c lbSg w).listener.allowedCidrs =
      allowedCidrs env c lbSg (sgs lb c) := by
  unfold createListenersAcls allowedCidrs
  generalize aclSgs env c lbSg (sgs lb c) ([], (sgs lb c).isEmpty) = acc
  obtain ⟨cidrs, addDefault⟩ := acc
  cases addDefault <;> simp [updateListenerAcls, hprovisioned]

/-- Of the arguments only the protocol and the target port matter. -/
theorem allowedCidrs_congr {env : Env π} {c c' : Args} {lbSg : String} {l : List String}
    (hlower : c.lower = c'.lower) (htarget : c.targetPort = c'.targetPort) :
    allowedCidrs env c lbSg l = allowedCidrs env c' lbSg l := by
  have hrule : (aclRule c : List π × Bool → SgRule π → List π × Bool) = aclRule c' := by
    funext acc r
    rw [aclRule, aclRule, hlower, htarget]
  have hloop : ∀ (l : List String) (acc : List π × Bool),
      aclSgs env c lbSg l acc = aclSgs env c' lbSg l acc := by
    intro l
    induction l with
    | nil => exact fun _ => rfl
    | cons sg l ih =>
      intro acc
      rw [aclSgs, aclSgs, hrule, ih, ih]
  rw [allowedCidrs, allowedCidrs, hloop]

/-! ## A name and the number behind it -/

/-- The rule is not limited to a range of ports. -/
def SgRule.AllPorts (r : SgRule π) : Prop := ∀ a b, r.portRange = some (a, b) → a = 0

/-- The rule is limited to a range that the port is in. -/
def SgRule.Ranged (n : Nat) (r : SgRule π) : Prop :=
  ∃ a b, r.portRange = some (a, b) ∧ a ≠ 0 ∧ a ≤ n ∧ n ≤ b

theorem outside_zero {r : SgRule π} : r.outside 0 = false ↔ r.AllPorts := by
  unfold SgRule.outside SgRule.AllPorts
  cases hrange : r.portRange with
  | none => simp
  | some range => grind

theorem outside_iff {r : SgRule π} {n : Nat} : r.outside n = false ↔ r.AllPorts ∨ r.Ranged n := by
  unfold SgRule.outside SgRule.AllPorts SgRule.Ranged
  cases hrange : r.portRange with
  | none => simp
  | some range => grind

theorem mem_passing {env : Env π} {c : Args} {lbSg : String} {l : List String} {r : SgRule π} :
    r ∈ passing env c lbSg l ↔ ∃ sg ∈ l, sg ≠ lbSg ∧ r ∈ env.securityGroupRules sg ∧
      r.Applies c.lower ∧ r.outside c.targetPort = false := by
  simp only [passing, List.mem_flatMap, List.mem_filter, SgRule.passes, decide_eq_true_eq,
    Bool.and_eq_true, Bool.not_eq_true', and_assoc]

/-- A rule of the groups, in so far as the ACLs look at it. -/
def HasRule (env : Env π) (protocol : String) (lbSg : String) (l : List String)
    (P : SgRule π → Prop) : Prop :=
  ∃ sg ∈ l, sg ≠ lbSg ∧ ∃ r ∈ env.securityGroupRules sg, r.Applies protocol ∧ P r

theorem exists_passing {env : Env π} {c : Args} {lbSg : String} {l : List String}
    {P : SgRule π → Prop} : (∃ r ∈ passing env c lbSg l, P r) ↔
      HasRule env c.lower lbSg l fun r => r.outside c.targetPort = false ∧ P r := by
  constructor
  · rintro ⟨r, hr, hP⟩
    obtain ⟨sg, hsg, hne, hmem, happlies, hout⟩ := mem_passing.mp hr
    exact ⟨sg, hsg, hne, r, hmem, happlies, hout, hP⟩
  · rintro ⟨sg, hsg, hne, r, hmem, happlies, hout, hP⟩
    exact ⟨r, mem_passing.mpr ⟨sg, hsg, hne, hmem, happlies, hout⟩, hP⟩

/-- The rules that pass for a name are those that pass for the number and are for all
ports. -/
theorem passing_zero {env : Env π} {c c₀ : Args} {lbSg : String} {l : List String}
    (hlower : c₀.lower = c.lower) (hzero : c₀.targetPort = 0) :
    passing env c₀ lbSg l = (passing env c lbSg l).filter fun r => !r.outside 0 := by
  unfold passing
  rw [List.filter_flatMap]
  congr 1
  funext sg
  rw [List.filter_filter]
  congr 1
  funext r
  unfold SgRule.passes
  rw [hlower, hzero]
  cases h0 : r.outside 0 with
  | true => simp
  | false =>
    have hn : r.outside c.targetPort = false := outside_iff.mpr (.inl (outside_zero.mp h0))
    simp [hn]

/-- Where a name gives the same CIDRs as the number it stands for. -/
def NameAsGood (env : Env π) (protocol : String) (lbSg : String) (l : List String) (n : Nat) :
    Prop :=
  l = [] ∨ HasDefault env lbSg l ∨
    HasRule env protocol lbSg l (fun r => r.AllPorts ∧ r.remoteIpPrefix = none) ∨
    ¬ HasRule env protocol lbSg l (SgRule.Ranged n)

theorem length_filterMap_of_some {rules : List (SgRule π)}
    (h : ∀ r ∈ rules, r.remoteIpPrefix ≠ none) :
    (rules.filterMap SgRule.remoteIpPrefix).length = rules.length := by
  induction rules with
  | nil => rfl
  | cons r rules ih =>
    obtain ⟨cidr, hcidr⟩ := Option.ne_none_iff_exists'.mp (h r List.mem_cons_self)
    rw [List.filterMap_cons_some hcidr, List.length_cons, List.length_cons,
      ih fun x hx => h x (List.mem_cons_of_mem _ hx)]

theorem allowedCidrs_name_iff {env : Env π} {c c₀ : Args} {lbSg : String} {l : List String}
    (hlower : c₀.lower = c.lower) (hzero : c₀.targetPort = 0) :
    allowedCidrs env c₀ lbSg l = allowedCidrs env c lbSg l ↔
      NameAsGood env c.lower lbSg l c.targetPort := by
  have hpassing : passing env c₀ lbSg l = (passing env c lbSg l).filter fun r => !r.outside 0 :=
    passing_zero hlower hzero
  obtain ⟨hopen₀, hclosed₀⟩ := allowedCidrs_eq env c₀ lbSg l
  obtain ⟨hopen, hclosed⟩ := allowedCidrs_eq env c lbSg l
  have hopened : Opened env c₀ lbSg l ↔ l = [] ∨ HasDefault env lbSg l ∨
      HasRule env c.lower lbSg l fun r => r.AllPorts ∧ r.remoteIpPrefix = none := by
    rw [Opened, exists_passing, hlower, hzero]
    simp only [outside_zero]
  by_cases ho : Opened env c₀ lbSg l
  · -- what passes for the name passes for the number
    have ho' : Opened env c lbSg l := by
      refine ho.imp_right (Or.imp_right fun h => ?_)
      obtain ⟨r, hr, hnone⟩ := h
      rw [hpassing] at hr
      exact ⟨r, List.mem_of_mem_filter hr, hnone⟩
    rw [hopen₀ ho, hopen ho']
    refine iff_of_true rfl ?_
    rcases hopened.mp ho with h | h | h
    · exact .inl h
    · exact .inr (.inl h)
    · exact .inr (.inr (.inl h))
  · have hgood : NameAsGood env c.lower lbSg l c.targetPort ↔
        ¬ HasRule env c.lower lbSg l (SgRule.Ranged c.targetPort) := by
      rw [hopened, not_or, not_or] at ho
      simp [NameAsGood, ho.1, ho.2.1, ho.2.2]
    have hsome₀ : ∀ r ∈ passing env c₀ lbSg l, r.remoteIpPrefix ≠ none := by
      intro r hr hnone
      exact ho (.inr (.inr ⟨r, hr, hnone⟩))
    rw [hgood, hclosed₀ ho]
    constructor
    · rintro h ⟨sg, hsg, hne, r, hmem, happlies, hranged⟩
      -- the rule passes for the number only
      have hr : r ∈ passing env c lbSg l :=
        mem_passing.mpr ⟨sg, hsg, hne, hmem, happlies, outside_iff.mpr (.inr hranged)⟩
      have hr₀ : ¬ (!r.outside 0) = true := by
        obtain ⟨a, b, hab, ha, -, -⟩ := hranged
        rw [Bool.not_eq_true', outside_zero]
        exact fun hall => ha (hall a b hab)
      have hlt : (passing env c₀ lbSg l).length < (passing env c lbSg l).length := by
        rw [hpassing]
        exact List.length_filter_lt_length_iff_exists.mpr ⟨r, hr, hr₀⟩
      by_cases ho' : Opened env c lbSg l
      · rw [hopen ho'] at h
        cases h
      · have hsome : ∀ r ∈ passing env c lbSg l, r.remoteIpPrefix ≠ none := by
          intro r hr hnone
          exact ho' (.inr (.inr ⟨r, hr, hnone⟩))
        rw [hclosed ho'] at h
        have hlength := congrArg List.length (Option.some.inj h)
        rw [length_filterMap_of_some hsome₀, length_filterMap_of_some hsome] at hlength
        omega
    · intro hno
      have hsame : passing env c₀ lbSg l = passing env c lbSg l := by
        rw [hpassing, List.filter_eq_self]
        intro r hr
        obtain ⟨sg, hsg, hne, hmem, happlies, hout⟩ := mem_passing.mp hr
        rw [Bool.not_eq_true', outside_zero]
        refine (outside_iff.mp hout).resolve_right fun hranged => ?_
        exact hno ⟨sg, hsg, hne, r, hmem, happlies, hranged⟩
      have ho' : ¬ Opened env c lbSg l := by
        rintro (h | h | ⟨r, hr, hnone⟩)
        · exact ho (.inl h)
        · exact ho (.inr (.inl h))
        · exact hsome₀ r (hsame ▸ hr) hnone
      rw [hclosed ho', hsame]

/-! ## The two callers -/

theorem mem_of_lsnrIds {listeners : List KnownListener} {protocol : Protocol} {port : Nat}
    {id : String} (h : lsnrIds listeners protocol port = some id) :
    ∃ l ∈ listeners, l.id = id ∧ l.protocol = protocol ∧ l.port = port := by
  obtain ⟨l, hfind, hid⟩ := Option.map_eq_some_iff.mp h
  have hl := List.find?_some hfind
  have hmem := List.mem_of_find?_eq_some hfind
  simp only [decide_eq_true_eq] at hl
  exact ⟨l, List.mem_reverse.mp hmem, hid, hl⟩

section Callers

variable [DecidableEq π] {env : Env π} {lbSg : String} {others : List String}

theorem applyTo_acls (henforce : env.enforceSgRules = true)
    (hvip : env.vipPort = some (lbSg :: others)) (lb : LoadBalancer) (c : Args) (id : String)
    (o : Octavia π) :
    applyTo true env lb c id o = (⟨Function.update o.listeners id
      (createListenersAcls env lb c lbSg ⟨o.listeners id, o.lbRules⟩).listener,
      (createListenersAcls env lb c lbSg ⟨o.listeners id, o.lbRules⟩).lbRules⟩, .ok ()) := by
  simp [applyTo, applyMembersSecurityGroups, henforce, hvip]

/-- The CIDRs of a listener after a call for it. -/
theorem applyTo_cidrs (henforce : env.enforceSgRules = true)
    (hvip : env.vipPort = some (lbSg :: others)) (hprovisioned : env.provisioned = true)
    (lb : LoadBalancer) (c : Args) (id : String) (o : Octavia π) :
    (applyTo true env lb c id o).2 = .ok () ∧
      ((applyTo true env lb c id o).1.listeners id).allowedCidrs =
        allowedCidrs env c lbSg (sgs lb c) ∧
      ∀ id' ≠ id, (applyTo true env lb c id o).1.listeners id' = o.listeners id' := by
  rw [applyTo_acls henforce hvip]
  refine ⟨rfl, ?_, fun id' hne => Function.update_of_ne hne _ _⟩
  show (Function.update o.listeners id _ id).allowedCidrs = _
  rw [Function.update_self, createListenersAcls_cidrs hprovisioned]

/-- The loop of `update_lbaas_sg` sets the CIDRs of a listener in the iteration of its
port and leaves them alone in the others. -/
theorem updatePorts_cidrs (henforce : env.enforceSgRules = true)
    (hvip : env.vipPort = some (lbSg :: others)) (hprovisioned : env.provisioned = true)
    (svc : Service) (lb : LoadBalancer) {listeners : List KnownListener} (groups : List String)
    {p : ServicePort} {id : String} (hid : lsnrIds listeners p.protocol p.port = some id)
    (hids : (listeners.map KnownListener.id).Nodup) (ps : List ServicePort) (o : Octavia π)
    (hps : (ps.map fun p => (p.protocol, p.port)).Nodup) :
    (updatePorts true env svc lb listeners groups ps o).2 = .ok () ∧
      (p ∈ ps → ((updatePorts true env svc lb listeners groups ps o).1.listeners id).allowedCidrs =
        allowedCidrs env (p.args svc groups) lbSg (sgs lb (p.args svc groups))) ∧
      ((p.protocol, p.port) ∉ ps.map (fun p => (p.protocol, p.port)) →
        (updatePorts true env svc lb listeners groups ps o).1.listeners id = o.listeners id) := by
  induction ps generalizing o with
  | nil => exact ⟨rfl, fun h => absurd h List.not_mem_nil, fun _ => rfl⟩
  | cons q ps ih =>
    obtain ⟨hq, hps⟩ := List.nodup_cons.mp hps
    unfold updatePorts updatePort
    cases hqid : lsnrIds listeners q.protocol q.port with
    | none =>
      have hne : p ≠ q := by
        rintro rfl
        rw [hid] at hqid
        cases hqid
      obtain ⟨hok, hset, hkeep⟩ := ih o hps
      refine ⟨hok, fun hp => hset ((List.mem_cons.mp hp).resolve_left hne), fun hp => hkeep ?_⟩
      exact fun hmem => hp (List.mem_cons_of_mem _ hmem)
    | some qid =>
      obtain ⟨hok, hcidrs, hother⟩ := applyTo_cidrs henforce hvip hprovisioned lb
        (q.args svc groups) qid o
      have hcall : applyTo true env lb (q.args svc groups) qid o =
          ((applyTo true env lb (q.args svc groups) qid o).1, .ok ()) := Prod.ext rfl hok
      simp only
      rw [hcall]
      obtain ⟨hok', hset, hkeep⟩ := ih (applyTo true env lb (q.args svc groups) qid o).1 hps
      refine ⟨hok', fun hp => ?_, fun hp => ?_⟩
      · rcases List.mem_cons.mp hp with rfl | hp
        · obtain rfl : id = qid := Option.some.inj (hid.symm.trans hqid)
          rw [← hcidrs]
          exact congrArg Listener.allowedCidrs (hkeep hq)
        · exact hset hp
      · rw [List.map_cons, List.mem_cons, not_or] at hp
        refine (hkeep hp.2).trans (hother id ?_)
        -- one listener is on one port only
        rintro rfl
        obtain ⟨l, hl, hlid, hproto, hport⟩ := mem_of_lsnrIds hid
        obtain ⟨l', hl', hlid', hproto', hport'⟩ := mem_of_lsnrIds hqid
        obtain rfl := List.inj_on_of_nodup_map hids hl hl' (hlid.trans hlid'.symm)
        exact hp.1 (by rw [← hproto, ← hport, hproto', hport'])

/-- Both callers get to the ACL of the listener: the requests of `update_lbaas_sg` find the
load balancer, and the first member of the pool of port `p` has the port number `n`. -/
structure BothCall (env : Env π) (lbSg : String) (q : Requests) (svc : Service) (lb : LoadBalancer)
    (listeners : List KnownListener) (p : ServicePort) (pool : MemberPool) (n : Nat) : Prop where
  enforce : env.enforceSgRules = true
  vip : ∃ others, env.vipPort = some (lbSg :: others)
  provisioned : env.provisioned = true
  endpoints : q.endpoints = .ok ()
  klb : q.klb = .ok ⟨some lb, some listeners⟩
  patch : q.patch = .ok ()
  ids : (listeners.map KnownListener.id).Nodup
  port : p ∈ svc.ports
  port_ne : p.port ≠ 0
  listener : lsnrIds listeners p.protocol p.port = some pool.listenerId
  protocol : pool.protocol = p.protocol
  resolves : p.targetPort.Resolves n

/-- **The two callers** set the same CIDRs exactly where the target port is a number, or
where its name is as good as the number. -/
theorem callers_agree_iff {q : Requests} {svc : Service} {lb : LoadBalancer}
    {listeners : List KnownListener} {p : ServicePort} {pool : MemberPool} {n : Nat}
    (h : BothCall env lbSg q svc lb listeners p pool n) (groups : List String) (o : Octavia π) :
    let updated := updateLbaasSg true env q svc groups o
    let ensured := ensureMember true env true { lb with securityGroups := groups } pool n
      (some p.port) (.ok ()) o
    updated.2 = .ok () ∧ ensured.2 = .ok () ∧
      ((updated.1.listeners pool.listenerId).allowedCidrs =
          (ensured.1.listeners pool.listenerId).allowedCidrs ↔
        (∃ m, p.targetPort = .number m) ∨
          NameAsGood env (protocolName p.protocol).toLower lbSg groups n) := by
  intro updated ensured
  obtain ⟨others, hvip⟩ := h.vip
  have hupdated : updated = updatePorts true env svc { lb with securityGroups := groups } listeners
      groups svc.ports o := by
    simp only [updated, updateLbaasSg, h.endpoints, h.klb, h.patch]
  obtain ⟨hok, hset, -⟩ := updatePorts_cidrs h.enforce hvip h.provisioned svc
    { lb with securityGroups := groups } groups h.listener h.ids svc.ports o svc.ports_nodup
  have hsgs : sgs { lb with securityGroups := groups } (p.args svc groups) = groups := ite_self _
  -- the call for the first member
  obtain ⟨port, hport⟩ := Nat.exists_eq_succ_of_ne_zero h.port_ne
  have hensured : ensured = applyTo true env { lb with securityGroups := groups }
      ⟨p.port, n, protocolName p.protocol, pool.name, none⟩ pool.listenerId o := by
    simp only [ensured, ensureMember, hport, h.enforce, h.protocol, and_self, if_true]
  obtain ⟨hok', hset', -⟩ := applyTo_cidrs h.enforce hvip h.provisioned
    { lb with securityGroups := groups } ⟨p.port, n, protocolName p.protocol, pool.name, none⟩
    pool.listenerId o
  rw [hupdated, hensured, hset h.port, hset', hsgs]
  refine ⟨hok, hok', ?_⟩
  show allowedCidrs env _ lbSg groups = allowedCidrs env _ lbSg groups ↔ _
  cases htarget : p.targetPort with
  | number m =>
    have hm : m = n := by
      have hresolves := h.resolves
      rw [htarget] at hresolves
      exact hresolves
    refine iff_of_true ?_ (.inl ⟨m, rfl⟩)
    refine allowedCidrs_congr rfl ?_
    simp only [ServicePort.args, htarget, TargetPort.asNumber]
    exact hm
  | name s =>
    have hzero : (p.args svc groups).targetPort = 0 := by
      simp only [ServicePort.args, htarget, TargetPort.asNumber]
    have hname : allowedCidrs env (p.args svc groups) lbSg groups =
        allowedCidrs env ⟨p.port, n, protocolName p.protocol, pool.name, none⟩ lbSg groups ↔ _ :=
      allowedCidrs_name_iff rfl hzero
    have hnot : ¬ ∃ m, TargetPort.name s = .number m := by
      rintro ⟨m, hm⟩
      cases hm
    rw [hname, or_iff_right hnot]
    rfl

end Callers

/-! ## A Service with a named target port -/

/-- One policy group `np` for the Service, whose rule admits 10.0.0.0/24 to the given
ports. -/
def rangedEnv (range : Option (Nat × Nat)) : Env String where
  enforceSgRules := true
  podSecurityGroups := ["default"]
  sgRuleEthertype := .IPv4
  projectId := "k8s"
  vipPort := some ["lb"]
  provisioned := true
  securityGroupRules sg :=
    if sg = "np" then [⟨.ingress, .IPv4, some "tcp", range, some "10.0.0.0/24", none, "k8s", []⟩]
    else []
  duplicate s r := s.key = r.key

def namedPort : ServicePort := ⟨.TCP, 80, .name "http"⟩

def namedService : Service where
  ns := "ns".toList
  name := "svc".toList
  ports := [namedPort]
  ports_nodup := List.nodup_singleton _
  ns_length := by decide
  name_length := by decide

def foundKlb : Klb := ⟨some policyLb, some [⟨"listener", .TCP, 80⟩]⟩

def httpPool : MemberPool := ⟨"ns/svc:TCP:80".toList, .TCP, "listener"⟩

theorem namedService_bothCall (range : Option (Nat × Nat)) :
    BothCall (rangedEnv range) "lb" ⟨.ok (), .ok foundKlb, .ok ()⟩ namedService policyLb
      [⟨"listener", .TCP, 80⟩] namedPort httpPool 8080 where
  enforce := rfl
  vip := ⟨[], rfl⟩
  provisioned := rfl
  endpoints := rfl
  klb := rfl
  patch := rfl
  ids := List.nodup_singleton _
  port := List.mem_singleton_self _
  port_ne := by decide
  listener := by decide
  protocol := rfl
  resolves := trivial

/-- A listener that is still open. -/
def openListener : Octavia String := ⟨fun _ => ⟨none, true⟩, []⟩

/-- A rule for all ports admits its prefix through either caller. -/
theorem callers_agree_allPorts :
    NameAsGood (rangedEnv none) "tcp" "lb" ["np"] 8080 ∧
      ((updateLbaasSg true (rangedEnv none) ⟨.ok (), .ok foundKlb, .ok ()⟩ namedService ["np"]
          openListener).1.listeners "listener").allowedCidrs =
        ((ensureMember true (rangedEnv none) true { policyLb with securityGroups := ["np"] }
          httpPool
          8080 (some 80) (.ok ()) openListener).1.listeners "listener").allowedCidrs := by
  have hgood : NameAsGood (rangedEnv none) "tcp" "lb" ["np"] 8080 := by
    refine .inr (.inr (.inr ?_))
    rintro ⟨sg, hsg, -, r, hr, -, a, b, hab, -⟩
    rw [List.mem_singleton] at hsg
    subst hsg
    rw [show (rangedEnv none).securityGroupRules "np" =
      [⟨.ingress, .IPv4, some "tcp", none, some "10.0.0.0/24", none, "k8s", []⟩] from rfl,
      List.mem_singleton] at hr
    subst hr
    cases hab
  have hlower : (protocolName namedPort.protocol).toLower = "tcp" := by decide +kernel
  refine ⟨hgood, (callers_agree_iff (namedService_bothCall none) ["np"] openListener).2.2.mpr ?_⟩
  rw [hlower]
  exact .inr hgood

/-- A rule for port 8080 admits its prefix when the first member is made, and nobody when
the groups of the Service are updated. -/
theorem callers_disagree_on_name :
    BothCall (rangedEnv (some (8080, 8080))) "lb" ⟨.ok (), .ok foundKlb, .ok ()⟩ namedService
        policyLb [⟨"listener", .TCP, 80⟩] namedPort httpPool 8080 ∧
      ((updateLbaasSg true (rangedEnv (some (8080, 8080))) ⟨.ok (), .ok foundKlb, .ok ()⟩
          namedService ["np"] openListener).1.listeners "listener").allowedCidrs = some [] ∧
      ((ensureMember true (rangedEnv (some (8080, 8080))) true
          { policyLb with securityGroups := ["np"] } httpPool 8080 (some 80) (.ok ())
          openListener).1.listeners "listener").allowedCidrs = some ["10.0.0.0/24"] :=
  ⟨namedService_bothCall _, by decide +kernel, by decide +kernel⟩

end ListenerAcls

end KuryrKubernetes
