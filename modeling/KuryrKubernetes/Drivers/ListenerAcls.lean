import KuryrKubernetes.K8s.Objects
import Mathlib.Data.List.Infix

/-!
# Who may reach a listener

`_apply_members_security_groups` lets through to a listener what the security groups of
the Service let through to its pods. Where Octavia has ACLs it sets the allowed CIDRs of
the listener at once; elsewhere it adds rules to the security group of the load balancer
and deletes the ones that no longer match.

- `World`: the listener in Octavia and the rules of the load balancer's group in Neutron.
- `Listener.Admits`, `RulesAdmit`: the sources either lets through, among the addresses
  of the version the service subnet has. `inCidr` stands for membership in a prefix.
- A rule keeps both ends of its port range or neither; that is so for every protocol a
  listener can have.

Neutron keeps protocols in lower case, answers Conflict to a rule that it takes for one that
is there (`Env.duplicate`), and gives a rule to the project of the session that created it.
The SDK lists lazily, so the loop that deletes rules also sees the ones just created.
-/

namespace KuryrKubernetes

namespace ListenerAcls

inductive Direction where
  | ingress | egress
deriving DecidableEq, Repr

inductive EtherType where
  | IPv4 | IPv6
deriving DecidableEq, Repr

/-- A security group rule, with prefixes of type `π`. -/
structure SgRule (π : Type) where
  direction : Direction
  etherType : EtherType
  protocol : Option String
  portRange : Option (Nat × Nat)
  remoteIpPrefix : Option π
  remoteGroupId : Option String
  projectId : String
  description : List Char
deriving DecidableEq, Repr

structure Listener (π : Type) where
  allowedCidrs : Option (List π)
  adminStateUp : Bool
deriving DecidableEq, Repr

structure World (π : Type) where
  listener : Listener π
  lbRules : List (SgRule π)
deriving DecidableEq, Repr

structure LoadBalancer where
  projectId : String
  securityGroups : List String

/-- The configuration, the project of the session, and what the clouds answer: the
security groups of the VIP port, whether the load balancer became active, the rules of
every security group, and whether a rule is the duplicate of one that is there. -/
structure Env (π : Type) where
  enforceSgRules : Bool
  podSecurityGroups : List String
  sgRuleEthertype : EtherType
  projectId : String
  vipPort : Option (List String)
  provisioned : Bool
  securityGroupRules : String → List (SgRule π)
  duplicate : SgRule π → SgRule π → Bool

/-- The arguments of `_apply_members_security_groups`. -/
structure Args where
  port : Nat
  targetPort : Nat
  protocol : String
  sgRuleName : List Char
  newSgs : Option (List String)

variable {π α : Type}

/-- `protocol.lower()`. -/
def Args.lower (c : Args) : String := c.protocol.toLower

/-- `new_sgs`, unless it is empty or missing, and the groups of the load balancer then. -/
def sgs (lb : LoadBalancer) (c : Args) : List String :=
  if c.newSgs.getD [] ≠ [] then c.newSgs.getD [] else lb.securityGroups

/-- `min_port and target_port not in range(min_port, max_port+1)`. -/
def SgRule.outside (r : SgRule π) (targetPort : Nat) : Bool :=
  match r.portRange with
  | none => false
  | some (minPort, maxPort) => minPort ≠ 0 && !(minPort ≤ targetPort && targetPort ≤ maxPort)

/-! ## With ACLs -/

/-- One rule in the loop of `_create_listeners_acls`, on `all_pod_rules` and
`add_default_rules`. -/
def aclRule (c : Args) (acc : List π × Bool) (r : SgRule π) : List π × Bool :=
  if r.remoteGroupId.isSome then acc
  else if (r.protocol.getD "" = "" ∨ r.protocol = some c.lower) ∧ r.direction = .ingress then
    if r.outside c.targetPort then acc
    else match r.remoteIpPrefix with
      | some cidr => (acc.1 ++ [cidr], acc.2)
      | none => (acc.1, true)
  else acc

/-- The loop over the security groups; a default group ends it. -/
def aclSgs (env : Env π) (c : Args) (lbSg : String) :
    List String → List π × Bool → List π × Bool
  | [], acc => acc
  | sg :: rest, acc =>
    if sg = lbSg then aclSgs env c lbSg rest acc
    else if sg ∈ env.podSecurityGroups then (acc.1, true)
    else aclSgs env c lbSg rest ((env.securityGroupRules sg).foldl (aclRule c) acc)

/-- `None` lifts every restriction, and no CIDR at all takes the listener down. -/
def updateListenerAcls (env : Env π) (allowedCidrs : Option (List π)) (w : World π) : World π :=
  if env.provisioned then
    { w with listener :=
        { allowedCidrs := allowedCidrs
          adminStateUp := match allowedCidrs with
            | none => true
            | some cidrs => !cidrs.isEmpty } }
  else w

def createListenersAcls (env : Env π) (lb : LoadBalancer) (c : Args) (lbSg : String)
    (w : World π) : World π :=
  let (allPodRules, addDefaultRules) := aclSgs env c lbSg (sgs lb c) ([], (sgs lb c).isEmpty)
  if addDefaultRules then updateListenerAcls env none w
  else updateListenerAcls env (some allPodRules) w

/-! ## With security group rules -/

/-- A rule that `_apply_members_security_groups` creates for the listener. -/
def listenerRule (env : Env π) (c : Args) (cidr : Option π) (description : List Char) :
    SgRule π where
  direction := .ingress
  etherType := env.sgRuleEthertype
  protocol := some c.lower
  portRange := some (c.port, c.port)
  remoteIpPrefix := cidr
  remoteGroupId := none
  projectId := env.projectId
  description := description

/-- `create_security_group_rule`, with the Conflict of a duplicate passed over. -/
def createSecurityGroupRule (env : Env π) (r : SgRule π) (rules : List (SgRule π)) :
    List (SgRule π) :=
  if rules.any (env.duplicate · r) then rules else rules ++ [r]

/-- One rule in the loop of `_apply_members_security_groups`, on `all_pod_rules` and the
rules of the load balancer's group. -/
def podRule (env : Env π) (c : Args) (acc : List (SgRule π) × List (SgRule π)) (r : SgRule π) :
    List (SgRule π) × List (SgRule π) :=
  if r.protocol = some c.lower ∧ r.direction = .ingress then
    if r.outside c.targetPort then acc
    else (acc.1 ++ [r],
      createSecurityGroupRule env (listenerRule env c r.remoteIpPrefix c.sgRuleName) acc.2)
  else acc

/-- The loop over the security groups, with `add_default_rules` at the end. -/
def podSgs (env : Env π) (c : Args) (lbSg : String) :
    List String → List (SgRule π) × List (SgRule π) →
      (List (SgRule π) × List (SgRule π)) × Bool
  | [], acc => (acc, false)
  | sg :: rest, acc =>
    if sg = lbSg then podSgs env c lbSg rest acc
    else if sg ∈ env.podSecurityGroups then (acc, true)
    else podSgs env c lbSg rest ((env.securityGroupRules sg).foldl (podRule env c) acc)

def isDefaultRule (r : SgRule π) : Bool :=
  r.direction = .ingress && r.remoteIpPrefix.isNone &&
    !decide ("network-policy".toList <:+: r.description)

section

variable [DecidableEq π]

/-- Whether the last loop deletes a rule of the load balancer's group. It lists the rules
of the load balancer's project only. -/
def deletes (lb : LoadBalancer) (c : Args) (allPodRules : List (SgRule π)) (r : SgRule π) :
    Bool :=
  if r.projectId ≠ lb.projectId then false
  else if r.protocol ≠ some c.lower ∨ r.portRange.map Prod.fst ≠ some c.port ∨
      r.direction ≠ .ingress then
    !allPodRules.isEmpty && isDefaultRule r
  else !allPodRules.any (·.remoteIpPrefix = r.remoteIpPrefix)

def applySgRules (env : Env π) (lb : LoadBalancer) (c : Args) (lbSg : String) (w : World π) :
    World π :=
  let ((allPodRules, rules), addDefaultRules) := podSgs env c lbSg (sgs lb c) ([], w.lbRules)
  let rules := rules.filter fun r => !deletes lb c allPodRules r
  { w with lbRules :=
      if addDefaultRules then
        createSecurityGroupRule env (listenerRule env c none c.sgRuleName) rules
      else rules }

def applyMembersSecurityGroups (octaviaAcls : Bool) (env : Env π) (lb : LoadBalancer) (c : Args)
    (w : World π) : Except Exc (World π) :=
  if !env.enforceSgRules then .ok w
  else match env.vipPort with
    | none => .ok w
    | some [] => .error .notReady
    | some (lbSg :: _) =>
      if octaviaAcls then .ok (createListenersAcls env lb c lbSg w)
      else .ok (applySgRules env lb c lbSg w)

end

/-! ## Sources -/

section Sources

variable (inCidr : π → α → Prop)

/-- The source is in the prefix of the rule, if it has one. -/
def SgRule.Covers (r : SgRule π) (a : α) : Prop :=
  ∀ cidr, r.remoteIpPrefix = some cidr → inCidr cidr a

/-- What a listener lets through. Octavia takes an empty list for no restriction. -/
def Listener.Admits (l : Listener π) (a : α) : Prop :=
  l.adminStateUp = true ∧
    ∀ cidrs, l.allowedCidrs = some cidrs → cidrs ≠ [] → ∃ cidr ∈ cidrs, inCidr cidr a

/-- The rule lets the source through to the port of the listener. -/
def SgRule.Admits (env : Env π) (c : Args) (r : SgRule π) (a : α) : Prop :=
  r.direction = .ingress ∧ r.etherType = env.sgRuleEthertype ∧ r.remoteGroupId = none ∧
    (∀ protocol, r.protocol = some protocol → protocol = c.lower) ∧
    (∀ range, r.portRange = some range → range.1 ≤ c.port ∧ c.port ≤ range.2) ∧
    r.Covers inCidr a

/-- What the load balancer's group lets through to the listener. -/
def RulesAdmit (env : Env π) (c : Args) (rules : List (SgRule π)) (a : α) : Prop :=
  ∃ r ∈ rules, r.Admits inCidr env c a

/-- A rule of a security group of the Service that lets pods take the traffic of the
listener, in so far as the two paths agree. -/
def SgRule.Open (c : Args) (r : SgRule π) : Prop :=
  r.direction = .ingress ∧ r.outside c.targetPort = false

/-- Sources that a rule for the protocol of the listener covers. -/
def Named (env : Env π) (c : Args) (lbSg : String) (l : List String) (a : α) : Prop :=
  ∃ sg ∈ l, sg ≠ lbSg ∧ ∃ r ∈ env.securityGroupRules sg,
    r.protocol = some c.lower ∧ r.Open c ∧ r.Covers inCidr a

/-- Sources that a rule for every protocol covers. -/
def Unnamed (env : Env π) (c : Args) (lbSg : String) (l : List String) (a : α) : Prop :=
  ∃ sg ∈ l, sg ≠ lbSg ∧ ∃ r ∈ env.securityGroupRules sg,
    r.protocol.getD "" = "" ∧ r.Open c ∧ r.Covers inCidr a

/-- A default group of pods is among the groups. -/
def HasDefault (env : Env π) (lbSg : String) (l : List String) : Prop :=
  ∃ sg ∈ l, sg ≠ lbSg ∧ sg ∈ env.podSecurityGroups

/-- No rule of the groups names a remote group. -/
def NoRemoteGroup (env : Env π) (l : List String) : Prop :=
  ∀ sg ∈ l, ∀ r ∈ env.securityGroupRules sg, r.remoteGroupId = none

theorem hasDefault_cons {env : Env π} {lbSg sg : String} {l : List String} (hsg : sg ≠ lbSg)
    (hpod : sg ∉ env.podSecurityGroups) :
    HasDefault env lbSg (sg :: l) ↔ HasDefault env lbSg l := by
  simp [HasDefault, hsg, hpod]

theorem named_cons {env : Env π} {c : Args} {lbSg sg : String} {l : List String} {a : α}
    (hsg : sg ≠ lbSg) :
    Named inCidr env c lbSg (sg :: l) a ↔
      (∃ r ∈ env.securityGroupRules sg, r.protocol = some c.lower ∧ r.Open c ∧
        r.Covers inCidr a) ∨ Named inCidr env c lbSg l a := by
  simp [Named, hsg]

theorem unnamed_cons {env : Env π} {c : Args} {lbSg sg : String} {l : List String} {a : α}
    (hsg : sg ≠ lbSg) :
    Unnamed inCidr env c lbSg (sg :: l) a ↔
      (∃ r ∈ env.securityGroupRules sg, r.protocol.getD "" = "" ∧ r.Open c ∧
        r.Covers inCidr a) ∨ Unnamed inCidr env c lbSg l a := by
  simp [Unnamed, hsg]

/-! ## The ACLs -/

/-- What the accumulated CIDRs let through. -/
def AclAdmits (acc : List π × Bool) (a : α) : Prop := acc.2 = true ∨ ∃ cidr ∈ acc.1, inCidr cidr a

theorem aclRule_admits {c : Args} {acc : List π × Bool} {r : SgRule π}
    (hgroup : r.remoteGroupId = none) (a : α) :
    AclAdmits inCidr (aclRule c acc r) a ↔ AclAdmits inCidr acc a ∨
      ((r.protocol.getD "" = "" ∨ r.protocol = some c.lower) ∧ r.Open c ∧ r.Covers inCidr a) := by
  unfold aclRule
  rw [hgroup]
  by_cases hmatch : (r.protocol.getD "" = "" ∨ r.protocol = some c.lower) ∧ r.direction = .ingress
  · rw [if_neg (by simp), if_pos hmatch]
    cases hout : r.outside c.targetPort with
    | true => simp [SgRule.Open, hout]
    | false =>
      have hopen : r.Open c := ⟨hmatch.2, hout⟩
      cases hcidr : r.remoteIpPrefix with
      | none =>
        have hcovers : r.Covers inCidr a := by
          intro cidr h
          rw [hcidr] at h
          cases h
        simp [AclAdmits, hmatch.1, hopen, hcovers]
      | some cidr =>
        have hcovers : r.Covers inCidr a ↔ inCidr cidr a := by
          simp [SgRule.Covers, hcidr]
        simp [AclAdmits, hmatch.1, hopen, hcovers, or_and_right, exists_or, or_assoc]
  · rw [if_neg (by simp), if_neg hmatch]
    have hnot : ¬ ((r.protocol.getD "" = "" ∨ r.protocol = some c.lower) ∧ r.Open c ∧
        r.Covers inCidr a) := fun h => hmatch ⟨h.1, h.2.1.1⟩
    simp [hnot]

theorem aclRules_admits {c : Args} {a : α} : ∀ {rules : List (SgRule π)} {acc : List π × Bool},
    (∀ r ∈ rules, r.remoteGroupId = none) →
    (AclAdmits inCidr (rules.foldl (aclRule c) acc) a ↔ AclAdmits inCidr acc a ∨
      ∃ r ∈ rules, (r.protocol.getD "" = "" ∨ r.protocol = some c.lower) ∧ r.Open c ∧
        r.Covers inCidr a)
  | [], acc, _ => by simp
  | r :: rules, acc, h => by
    rw [List.foldl_cons, aclRules_admits fun x hx => h x (List.mem_cons_of_mem _ hx),
      aclRule_admits inCidr (h r List.mem_cons_self), List.exists_mem_cons_iff, or_assoc]

/-- The loop lets through what its rules cover, and everything once it met a default
group. -/
theorem aclSgs_admits {env : Env π} {c : Args} {lbSg : String} {a : α} :
    ∀ {l : List String} {acc : List π × Bool}, NoRemoteGroup env l →
      (AclAdmits inCidr (aclSgs env c lbSg l acc) a ↔ AclAdmits inCidr acc a ∨
        HasDefault env lbSg l ∨ Named inCidr env c lbSg l a ∨ Unnamed inCidr env c lbSg l a)
  | [], acc, _ => by simp [aclSgs, HasDefault, Named, Unnamed]
  | sg :: l, acc, h => by
    have hl : NoRemoteGroup env l := fun x hx => h x (List.mem_cons_of_mem _ hx)
    unfold aclSgs
    by_cases hsg : sg = lbSg
    · rw [if_pos hsg, aclSgs_admits hl]
      simp [HasDefault, Named, Unnamed, hsg]
    · by_cases hpod : sg ∈ env.podSecurityGroups
      · rw [if_neg hsg, if_pos hpod]
        have hdefault : HasDefault env lbSg (sg :: l) := ⟨sg, List.mem_cons_self, hsg, hpod⟩
        simp [AclAdmits, hdefault]
      · rw [if_neg hsg, if_neg hpod, aclSgs_admits hl,
          aclRules_admits inCidr (h sg List.mem_cons_self), hasDefault_cons hsg hpod,
          named_cons inCidr hsg, unnamed_cons inCidr hsg]
        simp only [or_and_right, and_or_left, exists_or]
        exact iff_of_eq (by ac_rfl)

/-- The sources a listener with ACLs lets through. -/
theorem createListenersAcls_admits {env : Env π} {lb : LoadBalancer} {c : Args} {lbSg : String}
    {w : World π} (hprovisioned : env.provisioned = true) (hgroup : NoRemoteGroup env (sgs lb c))
    (a : α) :
    (createListenersAcls env lb c lbSg w).listener.Admits inCidr a ↔
      sgs lb c = [] ∨ HasDefault env lbSg (sgs lb c) ∨ Named inCidr env c lbSg (sgs lb c) a ∨
        Unnamed inCidr env c lbSg (sgs lb c) a := by
  have hacc : AclAdmits inCidr (aclSgs env c lbSg (sgs lb c) ([], (sgs lb c).isEmpty)) a ↔ _ :=
    aclSgs_admits inCidr hgroup
  have hstart : AclAdmits inCidr (([] : List π), (sgs lb c).isEmpty) a ↔ sgs lb c = [] := by
    simp [AclAdmits]
  rw [hstart] at hacc
  rw [← hacc]
  unfold createListenersAcls
  generalize aclSgs env c lbSg (sgs lb c) ([], (sgs lb c).isEmpty) = acc
  obtain ⟨cidrs, addDefault⟩ := acc
  cases addDefault with
  | true => simp [updateListenerAcls, hprovisioned, Listener.Admits, AclAdmits]
  | false =>
    cases cidrs with
    | nil => simp [updateListenerAcls, hprovisioned, Listener.Admits, AclAdmits]
    | cons cidr cidrs => simp [updateListenerAcls, hprovisioned, Listener.Admits, AclAdmits]

/-! ## The rules of the load balancer's group -/

end Sources

section Rules

/-- A rule without what makes no difference to the traffic. -/
def SgRule.key (r : SgRule π) : SgRule π := { r with projectId := "", description := [] }

/-- A prefix that the call creates a rule for. -/
def Occurs (env : Env π) (lb : LoadBalancer) (c : Args) (cidr : Option π) : Prop :=
  cidr = none ∨ ∃ sg ∈ sgs lb c, ∃ r ∈ env.securityGroupRules sg, r.remoteIpPrefix = cidr

/-- Among the rules the call finds and creates, Neutron takes none for the duplicate of one
with another prefix. To Neutron a rule for `0.0.0.0/0` is one without a prefix. -/
def Distinguished (env : Env π) (lb : LoadBalancer) (c : Args) (earlier : List (SgRule π)) :
    Prop :=
  ∀ s cidr, (s ∈ earlier ∨
      ∃ cidr', Occurs env lb c cidr' ∧ s = listenerRule env c cidr' c.sgRuleName) →
    Occurs env lb c cidr → env.duplicate s (listenerRule env c cidr c.sgRuleName) = true →
      s.key = (listenerRule env c cidr c.sgRuleName).key

theorem mem_createSecurityGroupRule {env : Env π} {r s : SgRule π} {rules : List (SgRule π)}
    (h : s ∈ createSecurityGroupRule env r rules) : s ∈ rules ∨ s = r := by
  unfold createSecurityGroupRule at h
  split at h
  · exact .inl h
  · simpa using h

theorem subset_createSecurityGroupRule (env : Env π) (r : SgRule π) (rules : List (SgRule π)) :
    rules ⊆ createSecurityGroupRule env r rules := by
  unfold createSecurityGroupRule
  split
  · exact fun _ h => h
  · exact List.subset_append_left _ _

/-- Created or found, the rule is there. -/
theorem exists_createSecurityGroupRule {env : Env π} {r : SgRule π} {rules : List (SgRule π)}
    (h : ∀ s ∈ rules, env.duplicate s r = true → s.key = r.key) :
    ∃ s ∈ createSecurityGroupRule env r rules, s.key = r.key := by
  unfold createSecurityGroupRule
  split
  · next hany =>
    obtain ⟨s, hs, hdup⟩ := List.any_eq_true.mp hany
    exact ⟨s, hs, h s hs hdup⟩
  · exact ⟨r, by simp, rfl⟩

/-- The loop over the pods' rules, started with the rules `earlier`: every pod rule has
its rule, and nothing else is new. -/
structure Copied (env : Env π) (lb : LoadBalancer) (c : Args) (earlier : List (SgRule π))
    (acc : List (SgRule π) × List (SgRule π)) : Prop where
  copy : ∀ r ∈ acc.1, ∃ s ∈ acc.2, s.key = (listenerRule env c r.remoteIpPrefix c.sgRuleName).key
  origin : ∀ s ∈ acc.2, s ∈ earlier ∨
    ∃ r ∈ acc.1, s = listenerRule env c r.remoteIpPrefix c.sgRuleName
  keep : earlier ⊆ acc.2
  occurs : ∀ r ∈ acc.1, Occurs env lb c r.remoteIpPrefix

variable {env : Env π} {lb : LoadBalancer} {c : Args} {earlier : List (SgRule π)}
  {acc : List (SgRule π) × List (SgRule π)}

theorem Copied.start : Copied env lb c earlier ([], earlier) where
  copy _ h := by cases h
  origin _ h := .inl h
  keep _ h := h
  occurs _ h := by cases h

/-- A rule that is not created is there already. -/
theorem Copied.create (h : Copied env lb c earlier acc)
    (hdup : Distinguished env lb c earlier) {cidr : Option π} (hcidr : Occurs env lb c cidr)
    {rules : List (SgRule π)} (hrules : rules ⊆ acc.2) :
    ∃ s ∈ createSecurityGroupRule env (listenerRule env c cidr c.sgRuleName) rules,
      s.key = (listenerRule env c cidr c.sgRuleName).key := by
  refine exists_createSecurityGroupRule fun s hs => hdup s cidr ?_ hcidr
  rcases h.origin s (hrules hs) with hs | ⟨p, hp, heq⟩
  · exact .inl hs
  · exact .inr ⟨_, h.occurs p hp, heq⟩

theorem Copied.podRule (h : Copied env lb c earlier acc)
    (hdup : Distinguished env lb c earlier) {r : SgRule π}
    (hr : Occurs env lb c r.remoteIpPrefix) :
    Copied env lb c earlier (podRule env c acc r) := by
  unfold ListenerAcls.podRule
  split
  · split
    · exact h
    · refine ⟨fun p hp => ?_, fun s hs => ?_, fun s hs => ?_, fun p hp => ?_⟩
      · rcases List.mem_append.mp hp with hp | hp
        · obtain ⟨s, hs, hkey⟩ := h.copy p hp
          exact ⟨s, subset_createSecurityGroupRule _ _ _ hs, hkey⟩
        · rw [List.mem_singleton] at hp
          subst hp
          exact h.create hdup hr (List.Subset.refl _)
      · rcases mem_createSecurityGroupRule hs with hs | rfl
        · rcases h.origin s hs with hs | ⟨p, hp, rfl⟩
          · exact .inl hs
          · exact .inr ⟨p, List.mem_append_left _ hp, rfl⟩
        · exact .inr ⟨r, by simp, rfl⟩
      · exact subset_createSecurityGroupRule _ _ _ (h.keep hs)
      · rcases List.mem_append.mp hp with hp | hp
        · exact h.occurs p hp
        · rw [List.mem_singleton] at hp
          exact hp ▸ hr
  · exact h

theorem Copied.podRules (hdup : Distinguished env lb c earlier) {rules : List (SgRule π)}
    (hrules : ∀ r ∈ rules, Occurs env lb c r.remoteIpPrefix) (h : Copied env lb c earlier acc) :
    Copied env lb c earlier (rules.foldl (ListenerAcls.podRule env c) acc) := by
  induction rules generalizing acc with
  | nil => exact h
  | cons r rules ih =>
    exact ih (fun x hx => hrules x (List.mem_cons_of_mem _ hx))
      (h.podRule hdup (hrules r List.mem_cons_self))

theorem Copied.podSgs (hdup : Distinguished env lb c earlier) {lbSg : String} :
    ∀ {l : List String} {acc : List (SgRule π) × List (SgRule π)}, l ⊆ sgs lb c →
      Copied env lb c earlier acc → Copied env lb c earlier (podSgs env c lbSg l acc).1
  | [], _, _, h => h
  | sg :: l, acc, hl, h => by
    obtain ⟨hsg, hl⟩ := List.cons_subset.mp hl
    unfold ListenerAcls.podSgs
    split
    · exact Copied.podSgs hdup hl h
    · split
      · exact h
      · exact Copied.podSgs hdup hl
          (h.podRules hdup fun r hr => .inr ⟨sg, hsg, r, hr, rfl⟩)

variable (inCidr : π → α → Prop)

theorem podRule_covers {r : SgRule π} (a : α) :
    (∃ p ∈ (podRule env c acc r).1, p.Covers inCidr a) ↔ (∃ p ∈ acc.1, p.Covers inCidr a) ∨
      (r.protocol = some c.lower ∧ r.Open c ∧ r.Covers inCidr a) := by
  unfold podRule
  by_cases hmatch : r.protocol = some c.lower ∧ r.direction = .ingress
  · rw [if_pos hmatch]
    cases hout : r.outside c.targetPort with
    | true => simp [SgRule.Open, hout]
    | false =>
      have hopen : r.Open c := ⟨hmatch.2, hout⟩
      simp [hmatch.1, hopen, or_and_right, exists_or]
  · rw [if_neg hmatch]
    have hnot : ¬ (r.protocol = some c.lower ∧ r.Open c ∧ r.Covers inCidr a) :=
      fun h => hmatch ⟨h.1, h.2.1.1⟩
    simp [hnot]

theorem podRules_covers {a : α} : ∀ {rules : List (SgRule π)}
    {acc : List (SgRule π) × List (SgRule π)},
    (∃ p ∈ (rules.foldl (podRule env c) acc).1, p.Covers inCidr a) ↔
      (∃ p ∈ acc.1, p.Covers inCidr a) ∨
        ∃ r ∈ rules, r.protocol = some c.lower ∧ r.Open c ∧ r.Covers inCidr a
  | [], acc => by simp
  | r :: rules, acc => by
    rw [List.foldl_cons, podRules_covers, podRule_covers, List.exists_mem_cons_iff, or_assoc]

theorem podSgs_default {lbSg : String} : ∀ {l : List String}
    {acc : List (SgRule π) × List (SgRule π)},
    (podSgs env c lbSg l acc).2 = true ↔ HasDefault env lbSg l
  | [], acc => by simp [podSgs, HasDefault]
  | sg :: l, acc => by
    unfold podSgs
    by_cases hsg : sg = lbSg
    · rw [if_pos hsg, podSgs_default]
      simp [HasDefault, hsg]
    · by_cases hpod : sg ∈ env.podSecurityGroups
      · rw [if_neg hsg, if_pos hpod]
        exact iff_of_true rfl ⟨sg, List.mem_cons_self, hsg, hpod⟩
      · rw [if_neg hsg, if_neg hpod, podSgs_default, hasDefault_cons hsg hpod]

/-- Without a default group, the loop copies what covers the sources of rules that name
the protocol. -/
theorem podSgs_covers {lbSg : String} {a : α} : ∀ {l : List String}
    {acc : List (SgRule π) × List (SgRule π)}, ¬ HasDefault env lbSg l →
    ((∃ p ∈ (podSgs env c lbSg l acc).1.1, p.Covers inCidr a) ↔
      (∃ p ∈ acc.1, p.Covers inCidr a) ∨ Named inCidr env c lbSg l a)
  | [], acc, _ => by simp [podSgs, Named]
  | sg :: l, acc, h => by
    unfold podSgs
    by_cases hsg : sg = lbSg
    · have hl : ¬ HasDefault env lbSg l := by
        rintro ⟨x, hx, hdefault⟩
        exact h ⟨x, List.mem_cons_of_mem _ hx, hdefault⟩
      rw [if_pos hsg, podSgs_covers hl]
      simp [Named, hsg]
    · by_cases hpod : sg ∈ env.podSecurityGroups
      · exact absurd ⟨sg, List.mem_cons_self, hsg, hpod⟩ h
      · rw [hasDefault_cons hsg hpod] at h
        rw [if_neg hsg, if_neg hpod, podSgs_covers h, podRules_covers, named_cons inCidr hsg,
          or_assoc]

/-- A rule of the listener lets through what its prefix covers. -/
theorem listenerRule_admits {s : SgRule π} {cidr : Option π} {description : List Char}
    (h : s.key = (listenerRule env c cidr description).key) (a : α) :
    s.Admits inCidr env c a ↔ ∀ p, cidr = some p → inCidr p a := by
  cases s
  cases h
  simp [SgRule.Admits, SgRule.Covers]

/-- Rules of the listener that an earlier call created, among rules that let nothing
through to it. -/
def Earlier (env : Env π) (c : Args) (rules : List (SgRule π)) : Prop :=
  ∀ r ∈ rules, (∃ cidr description, r = listenerRule env c cidr description) ∨
    ∀ a, ¬ r.Admits inCidr env c a

/-- Sources that earlier rules let through which the call cannot list, because they are
not of the load balancer's project. -/
def Stale (env : Env π) (lb : LoadBalancer) (c : Args) (rules : List (SgRule π)) (a : α) : Prop :=
  env.projectId ≠ lb.projectId ∧ RulesAdmit inCidr env c rules a

variable [DecidableEq π]

theorem deletes_listenerRule {allPodRules : List (SgRule π)} {s : SgRule π}
    {cidr : Option π} {description : List Char}
    (h : s.key = (listenerRule env c cidr description).key) :
    deletes lb c allPodRules s = true ↔ s.projectId = lb.projectId ∧
      ∀ p ∈ allPodRules, p.remoteIpPrefix ≠ cidr := by
  obtain ⟨_, _, _, _, _, _, projectId, _⟩ := s
  cases h
  by_cases hproject : projectId = lb.projectId
  · simp [deletes, hproject]
  · simp [deletes, hproject]

/-- What is left after the deletions lets through what the pods' rules cover. -/
theorem filter_deletes_admits {allPodRules rules : List (SgRule π)}
    (hcopied : Copied env lb c earlier (allPodRules, rules))
    (hearlier : Earlier inCidr env c earlier) (a : α) :
    RulesAdmit inCidr env c (rules.filter fun r => !deletes lb c allPodRules r) a ↔
      (∃ p ∈ allPodRules, p.Covers inCidr a) ∨ Stale inCidr env lb c earlier a := by
  constructor
  · rintro ⟨s, hs, hadmits⟩
    obtain ⟨hs, hkept⟩ := List.mem_filter.mp hs
    rcases hcopied.origin s hs with hs | ⟨p, hp, rfl⟩
    · rcases hearlier s hs with ⟨cidr, description, rfl⟩ | hnone
      · by_cases hproject : env.projectId = lb.projectId
        · left
          by_contra hcovers
          -- a rule whose prefix no pod rule has would have been deleted
          have hdeleted :
              deletes lb c allPodRules (listenerRule env c cidr description) = true := by
            refine (deletes_listenerRule rfl).mpr ⟨hproject, fun p hp hcidr => ?_⟩
            refine hcovers ⟨p, hp, fun q hq => ?_⟩
            exact (listenerRule_admits inCidr rfl a).mp hadmits q (hcidr.symm.trans hq)
          rw [hdeleted] at hkept
          cases hkept
        · exact .inr ⟨hproject, _, hs, hadmits⟩
      · exact absurd hadmits (hnone a)
    · exact .inl ⟨p, hp, (listenerRule_admits inCidr rfl a).mp hadmits⟩
  · rintro (⟨p, hp, hcovers⟩ | ⟨hproject, s, hs, hadmits⟩)
    · obtain ⟨s, hs, hkey⟩ := hcopied.copy p hp
      refine ⟨s, List.mem_filter.mpr ⟨hs, ?_⟩, (listenerRule_admits inCidr hkey a).mpr hcovers⟩
      rw [Bool.not_eq_true', ← Bool.not_eq_true, deletes_listenerRule hkey]
      exact fun h => h.2 p hp rfl
    · refine ⟨s, List.mem_filter.mpr ⟨hcopied.keep hs, ?_⟩, hadmits⟩
      rcases hearlier s hs with ⟨cidr, description, rfl⟩ | hnone
      · rw [Bool.not_eq_true', ← Bool.not_eq_true, deletes_listenerRule rfl]
        exact fun h => hproject h.1
      · exact absurd hadmits (hnone a)

/-- The sources the load balancer's group lets through. -/
theorem applySgRules_admits {lbSg : String} {w : World π}
    (hearlier : Earlier inCidr env c w.lbRules) (hdup : Distinguished env lb c w.lbRules) (a : α) :
    RulesAdmit inCidr env c (applySgRules env lb c lbSg w).lbRules a ↔
      HasDefault env lbSg (sgs lb c) ∨ Named inCidr env c lbSg (sgs lb c) a ∨
        Stale inCidr env lb c w.lbRules a := by
  have hcopied : Copied env lb c w.lbRules (podSgs env c lbSg (sgs lb c) ([], w.lbRules)).1 :=
    Copied.podSgs hdup (List.Subset.refl _) Copied.start
  have hdefault : (podSgs env c lbSg (sgs lb c) ([], w.lbRules)).2 = true ↔ _ := podSgs_default
  have hcovers : ¬ HasDefault env lbSg (sgs lb c) →
      ((∃ p ∈ (podSgs env c lbSg (sgs lb c) ([], w.lbRules)).1.1, p.Covers inCidr a) ↔ _) :=
    podSgs_covers inCidr
  simp only [List.not_mem_nil, false_and, exists_false, false_or] at hcovers
  unfold applySgRules
  generalize podSgs env c lbSg (sgs lb c) ([], w.lbRules) = res at hcopied hdefault hcovers
  obtain ⟨⟨allPodRules, rules⟩, addDefault⟩ := res
  have hfilter :
      RulesAdmit inCidr env c (rules.filter fun r => !deletes lb c allPodRules r) a ↔ _ :=
    filter_deletes_admits inCidr hcopied hearlier a
  cases addDefault with
  | true =>
    refine iff_of_true ?_ (.inl (hdefault.mp rfl))
    obtain ⟨s, hs, hkey⟩ := hcopied.create hdup (.inl rfl)
      (List.filter_subset_self (p := fun r => !deletes lb c allPodRules r) _)
    refine ⟨s, hs, (listenerRule_admits inCidr hkey a).mpr ?_⟩
    intro p hp
    cases hp
  | false =>
    have hno : ¬ HasDefault env lbSg (sgs lb c) := fun h => by cases hdefault.mpr h
    show RulesAdmit inCidr env c (rules.filter fun r => !deletes lb c allPodRules r) a ↔ _
    rw [hfilter, hcovers hno, or_iff_right hno]

/-! ## The two paths -/

/-- Where the two paths let the same sources through. Without a default group, rules for
every protocol count for the ACLs only, no group at all opens the ACLs only, and rules of
another project stay in the group only. -/
def SameSources (env : Env π) (lb : LoadBalancer) (c : Args) (lbSg : String)
    (rules : List (SgRule π)) : Prop :=
  HasDefault env lbSg (sgs lb c) ∨
    (sgs lb c = [] ∧ ∀ a, Stale inCidr env lb c rules a) ∨
    (sgs lb c ≠ [] ∧ ∀ a, Named inCidr env c lbSg (sgs lb c) a ∨
      (Unnamed inCidr env c lbSg (sgs lb c) a ↔ Stale inCidr env lb c rules a))

/-- With every call succeeding, the ACLs of a listener and the rules of the load
balancer's group let the same sources through exactly where `SameSources` says. -/
theorem acls_admit_as_rules_iff {env : Env π} {lb : LoadBalancer} {c : Args} {lbSg : String}
    {others : List String} {w₁ w₂ : World π} (henforce : env.enforceSgRules = true)
    (hvip : env.vipPort = some (lbSg :: others)) (hprovisioned : env.provisioned = true)
    (hgroup : NoRemoteGroup env (sgs lb c)) (hearlier : Earlier inCidr env c w₂.lbRules)
    (hdup : Distinguished env lb c w₂.lbRules) :
    (∃ w₁' w₂', applyMembersSecurityGroups true env lb c w₁ = .ok w₁' ∧
      applyMembersSecurityGroups false env lb c w₂ = .ok w₂' ∧
      ∀ a, w₁'.listener.Admits inCidr a ↔ RulesAdmit inCidr env c w₂'.lbRules a) ↔
      SameSources inCidr env lb c lbSg w₂.lbRules := by
  have hacls : applyMembersSecurityGroups true env lb c w₁ =
      .ok (createListenersAcls env lb c lbSg w₁) := by
    simp [applyMembersSecurityGroups, henforce, hvip]
  have hrules : applyMembersSecurityGroups false env lb c w₂ =
      .ok (applySgRules env lb c lbSg w₂) := by
    simp [applyMembersSecurityGroups, henforce, hvip]
  have hsame : (∃ w₁' w₂', applyMembersSecurityGroups true env lb c w₁ = .ok w₁' ∧
      applyMembersSecurityGroups false env lb c w₂ = .ok w₂' ∧
      ∀ a, w₁'.listener.Admits inCidr a ↔ RulesAdmit inCidr env c w₂'.lbRules a) ↔
      ∀ a, (sgs lb c = [] ∨ HasDefault env lbSg (sgs lb c) ∨
          Named inCidr env c lbSg (sgs lb c) a ∨ Unnamed inCidr env c lbSg (sgs lb c) a) ↔
        (HasDefault env lbSg (sgs lb c) ∨ Named inCidr env c lbSg (sgs lb c) a ∨
          Stale inCidr env lb c w₂.lbRules a) := by
    rw [hacls, hrules]
    constructor
    · rintro ⟨_, _, h₁, h₂, h⟩ a
      cases h₁
      cases h₂
      rw [← createListenersAcls_admits inCidr hprovisioned hgroup a,
        ← applySgRules_admits inCidr hearlier hdup a]
      exact h a
    · intro h
      refine ⟨_, _, rfl, rfl, fun a => ?_⟩
      rw [createListenersAcls_admits inCidr hprovisioned hgroup a,
        applySgRules_admits inCidr hearlier hdup a]
      exact h a
  rw [hsame, SameSources]
  by_cases hdefault : HasDefault env lbSg (sgs lb c)
  · simp [hdefault]
  · by_cases hempty : sgs lb c = []
    · have hnamed : ∀ a, ¬ Named inCidr env c lbSg (sgs lb c) a := by
        rintro a ⟨sg, hsg, -⟩
        rw [hempty] at hsg
        cases hsg
      simp only [hempty] at hnamed
      simp only [hempty] at hdefault
      simp [hempty, hdefault, hnamed]
    · simp only [hempty, hdefault, false_or, false_and, ne_eq, not_false_eq_true, true_and]
      refine forall_congr' fun a => ?_
      by_cases hnamed : Named inCidr env c lbSg (sgs lb c) a
      · simp [hnamed]
      · simp [hnamed]

end Rules

/-! ## A policy without ports -/

/-- An IPv4 prefix: address and length. -/
abbrev Cidr := BitVec 32 × Nat

def inIpv4Cidr (cidr : Cidr) (a : BitVec 32) : Prop :=
  a >>> (32 - cidr.2) = cidr.1 >>> (32 - cidr.2)

/-- One policy group `np` for the Service, whose rule admits 10.0.0.0/24. -/
def policyRule (protocol : Option String) : SgRule Cidr where
  direction := .ingress
  etherType := .IPv4
  protocol := protocol
  portRange := none
  remoteIpPrefix := some (0x0a000000, 24)
  remoteGroupId := none
  projectId := "k8s"
  description := []

def policyEnv (protocol : Option String) : Env Cidr where
  enforceSgRules := true
  podSecurityGroups := ["default"]
  sgRuleEthertype := .IPv4
  projectId := "k8s"
  vipPort := some ["lb"]
  provisioned := true
  securityGroupRules sg := if sg = "np" then [policyRule protocol] else []
  duplicate s r := s.key = r.key

def policyLb : LoadBalancer := ⟨"k8s", []⟩

def policyArgs : Args := ⟨80, 8080, "TCP", "ns/svc:TCP:80".toList, some ["np"]⟩

/-- The listener as Octavia creates it, and one rule of an earlier policy. -/
def policyWorld : World Cidr where
  listener := ⟨none, true⟩
  lbRules := [listenerRule (policyEnv none) policyArgs (some (0x0a090000, 16)) "old".toList]

theorem policyWorld_earlier (protocol : Option String) :
    Earlier inIpv4Cidr (policyEnv protocol) policyArgs policyWorld.lbRules := by
  intro r hr
  rw [policyWorld, List.mem_singleton] at hr
  exact .inl ⟨_, _, hr⟩

theorem policyEnv_distinguished (protocol : Option String) (lb : LoadBalancer) (c : Args)
    (earlier : List (SgRule Cidr)) : Distinguished (policyEnv protocol) lb c earlier :=
  fun _ _ _ _ h => of_decide_eq_true h

theorem policyEnv_noRemoteGroup (protocol : Option String) (l : List String) :
    NoRemoteGroup (policyEnv protocol) l := by
  intro sg _ r hr
  unfold policyEnv at hr
  dsimp only at hr
  split at hr
  · rw [List.mem_singleton] at hr
    rw [hr]
    rfl
  · cases hr

theorem acls_admit_as_rules_iff_tcp :
    SameSources inIpv4Cidr (policyEnv (some "tcp")) policyLb policyArgs "lb" policyWorld.lbRules ∧
      ∃ w₁' w₂', applyMembersSecurityGroups true (policyEnv (some "tcp")) policyLb policyArgs
          policyWorld = .ok w₁' ∧
        applyMembersSecurityGroups false (policyEnv (some "tcp")) policyLb policyArgs
          policyWorld = .ok w₂' ∧
        ∀ a, w₁'.listener.Admits inIpv4Cidr a ↔
          RulesAdmit inIpv4Cidr (policyEnv (some "tcp")) policyArgs w₂'.lbRules a := by
  have hsame : SameSources inIpv4Cidr (policyEnv (some "tcp")) policyLb policyArgs "lb"
      policyWorld.lbRules := by
    refine .inr (.inr ⟨by decide, fun a => .inr (iff_of_false ?_ fun h => h.1 rfl)⟩)
    rintro ⟨sg, hsg, -, r, hr, hprotocol, -⟩
    rw [show sgs policyLb policyArgs = ["np"] from rfl, List.mem_singleton] at hsg
    subst hsg
    rw [show (policyEnv (some "tcp")).securityGroupRules "np" = [policyRule (some "tcp")] from rfl,
      List.mem_singleton] at hr
    subst hr
    exact absurd hprotocol (by decide)
  exact ⟨hsame, (acls_admit_as_rules_iff inIpv4Cidr rfl rfl rfl (policyEnv_noRemoteGroup _ _)
    (policyWorld_earlier _) (policyEnv_distinguished _ _ _ _)).mpr hsame⟩

/-- A policy rule without a protocol opens the ACLs to its prefix, and leaves the group
of the load balancer without any rule; no security group at all opens the ACLs to every
source, and leaves the group empty as well. -/
theorem acls_admit_more_than_rules :
    (∃ w₁ w₂, applyMembersSecurityGroups true (policyEnv none) policyLb policyArgs policyWorld =
        .ok w₁ ∧
      applyMembersSecurityGroups false (policyEnv none) policyLb policyArgs policyWorld = .ok w₂ ∧
      w₁.listener.Admits inIpv4Cidr (0x0a000005 : BitVec 32) ∧
      ¬ RulesAdmit inIpv4Cidr (policyEnv none) policyArgs w₂.lbRules (0x0a000005 : BitVec 32)) ∧
    ∃ w₁ w₂, applyMembersSecurityGroups true (policyEnv none) policyLb
        { policyArgs with newSgs := some [] } policyWorld = .ok w₁ ∧
      applyMembersSecurityGroups false (policyEnv none) policyLb
        { policyArgs with newSgs := some [] } policyWorld = .ok w₂ ∧
      w₁.listener.Admits inIpv4Cidr (0x0a000005 : BitVec 32) ∧
      ¬ RulesAdmit inIpv4Cidr (policyEnv none) policyArgs w₂.lbRules (0x0a000005 : BitVec 32) := by
  refine ⟨⟨⟨⟨some [(0x0a000000, 24)], true⟩, policyWorld.lbRules⟩, ⟨⟨none, true⟩, []⟩,
    ?_, ?_, ?_, ?_⟩, ⟨⟨⟨none, true⟩, policyWorld.lbRules⟩, ⟨⟨none, true⟩, []⟩, ?_, ?_, ?_, ?_⟩⟩
  · decide +kernel
  · decide +kernel
  · refine ⟨rfl, fun cidrs h _ => ?_⟩
    cases h
    exact ⟨_, List.mem_singleton_self _, by unfold inIpv4Cidr; decide⟩
  · rintro ⟨r, hr, -⟩
    cases hr
  · decide +kernel
  · decide +kernel
  · refine ⟨rfl, fun cidrs h _ => ?_⟩
    cases h
  · rintro ⟨r, hr, -⟩
    cases hr

end ListenerAcls

end KuryrKubernetes
