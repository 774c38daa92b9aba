import KuryrKubernetes.Drivers.ListenerCallers
import KuryrKubernetes.Lib.Text

/-!
# Releasing a listener

Without ACLs the rules that let traffic through to a listener are in the security group of
the load balancer. `_apply_members_security_groups` creates one for every remote prefix and
names them after the listener; `release_listener` looks for the name and deletes the first
rule it finds.

- `Call`, `run`: a history of calls of `ensure_member` and `update_lbaas_sg`.
- `Known`: the invariant of a history. A rule was in the group before, or is for a listener
  and has its name.
- `listenerName_injective`: different listeners have different names.
-/

namespace KuryrKubernetes

namespace ListenerAcls

open KuryrNetwork (Text getResourceName)

variable {π : Type}

/-- The rule is for the listener of this protocol and port. -/
def SgRule.For (protocol : Protocol) (port : Nat) (r : SgRule π) : Prop :=
  r.protocol = some (protocolName protocol).toLower ∧ r.portRange = some (port, port)

/-! ## Histories -/

/-- A call that may get to `_apply_members_security_groups`, with the answers it meets. A
member is ensured in the pool of a listener, and `first` if it is the first one there. -/
inductive Call (π : Type) where
  | updateLbaasSg (env : Env π) (q : Requests) (svc : Service) (sgs : List String)
  | ensureMember (env : Env π) (networkPolicy : Bool) (lb : LoadBalancer) (protocol : Protocol)
      (lsnrPort : Nat) (listenerId : String) (port : Nat) (first : Bool)
      (provisioned : Except Exc Unit)

/-- The call is about a Service of this name. Its ports may have changed since. -/
def Call.About (svc : Service) : Call π → Prop
  | .updateLbaasSg _ _ svc' _ =>
    svc'.ns = svc.ns ∧ svc'.name = svc.name ∧ ∀ p ∈ svc'.ports, p.port ≤ 65535
  | .ensureMember .. => True

section Driver

variable [DecidableEq π]

/-- A pool has the name and the protocol of its listener. -/
def Call.run (svc : Service) : Call π → Octavia π → Octavia π
  | .updateLbaasSg env q svc' sgs, o => (ListenerAcls.updateLbaasSg false env q svc' sgs o).1
  | .ensureMember env networkPolicy lb protocol lsnrPort listenerId port first provisioned, o =>
    (ListenerAcls.ensureMember false env networkPolicy lb
      ⟨svc.listenerName protocol lsnrPort, protocol, listenerId⟩ port
      (if first then some lsnrPort else none) provisioned o).1

def run (svc : Service) (calls : List (Call π)) (o : Octavia π) : Octavia π :=
  calls.foldl (fun o call => call.run svc o) o

end Driver

/-- `release_listener`, on the rules of the load balancer's group: `released` is what
`_release` ends with, and `deletion` the answer to the deletion of a rule. A VIP port that
is not found has no `security_group_ids`. -/
def releaseListener (env : Env π) (name : Text) (released deletion : Except Exc Unit)
    (rules : List (SgRule π)) : List (SgRule π) × Except Exc Unit :=
  match released with
  | .error e => (rules, .error e)
  | .ok () =>
    if env.enforceSgRules then
      match env.vipPort with
      | none => (rules, .ok ())
      | some [] => (rules, .error .indexError)
      | some (_ :: _) =>
        if rules.any (·.description = name) then
          match deletion with
          | .error e => (rules, .error e)
          | .ok () => (rules.eraseP (·.description = name), .ok ())
        else (rules, .ok ())
    else (rules, .ok ())

/-! ## Names -/

theorem getResourceName_of_le {name pre suffix : Text}
    (h : (pre ++ name ++ suffix).length ≤ 255) :
    getResourceName name [] pre suffix = pre ++ name ++ suffix := by
  simp only [getResourceName, if_true, List.append_nil, if_neg (Nat.not_lt.mpr h)]

theorem length_portSuffix {protocol : Protocol} {port : Nat} (h : port ≤ 65535) :
    (portSuffix protocol port).length ≤ 11 := by
  have hdigits : (Nat.toDigits 10 port).length ≤ 5 :=
    (Nat.length_toDigits_le_iff (by decide) (by decide)).mpr (by omega)
  have hname : (protocolName protocol).toList.length ≤ 4 := by
    cases protocol <;> decide
  simp only [portSuffix, List.length_append, List.length_singleton, Nat.toList_repr]
  omega

/-- Both callers name the rules of a listener after it. -/
theorem sgRuleName_eq (svc : Service) {p : ServicePort} (h : p.port ≤ 65535) :
    svc.sgRuleName p = svc.listenerName p.protocol p.port := by
  have hns := svc.ns_length
  have hname := svc.name_length
  have hsuffix : (portSuffix p.protocol p.port).length ≤ 11 := length_portSuffix h
  have hinner : getResourceName svc.name [] (svc.ns ++ ['/']) [] = svc.loadbalancerName := by
    rw [getResourceName_of_le]
    · exact List.append_nil _
    · simp only [List.length_append, List.length_singleton, List.length_nil]
      omega
  rw [Service.sgRuleName, hinner, getResourceName_of_le]
  · rfl
  · simp only [Service.loadbalancerName, List.length_append, List.length_singleton, List.length_nil]
    omega

theorem protocolName_append_injective {p p' : Protocol} {s s' : Text}
    (h : (protocolName p).toList ++ ':' :: s = (protocolName p').toList ++ ':' :: s') :
    p = p' ∧ s = s' := by
  cases p <;> cases p' <;> simp_all [protocolName]

theorem listenerName_injective {svc : Service} {p p' : Protocol} {n n' : Nat}
    (h : svc.listenerName p n = svc.listenerName p' n') : p = p' ∧ n = n' := by
  have hsuffix : (protocolName p).toList ++ ':' :: Nat.toDigits 10 n =
      (protocolName p').toList ++ ':' :: Nat.toDigits 10 n' := by
    have := List.append_cancel_left h
    simpa [portSuffix] using this
  obtain ⟨hp, hn⟩ := protocolName_append_injective hsuffix
  exact ⟨hp, Texts.toDigits_injective hn⟩

theorem listenerName_ne_nil (svc : Service) (p : Protocol) (n : Nat) :
    svc.listenerName p n ≠ [] := by
  simp [Service.listenerName, portSuffix]

/-- A rule is for one listener at most. -/
theorem for_injective {r : SgRule π} {p p' : Protocol} {n n' : Nat} (h : r.For p n)
    (h' : r.For p' n') : p = p' ∧ n = n' := by
  have hprotocol : (protocolName p).toLower = (protocolName p').toLower :=
    Option.some.inj (h.1.symm.trans h'.1)
  have hport : (n, n) = (n', n') := Option.some.inj (h.2.symm.trans h'.2)
  have hlower : ∀ p p' : Protocol, (protocolName p).toLower = (protocolName p').toLower →
      p = p' := by
    intro p p'
    cases p <;> cases p' <;> decide +kernel
  exact ⟨hlower p p' hprotocol, congrArg Prod.fst hport⟩

/-! ## What a call leaves in the group -/

section Rules

variable {P : SgRule π → Prop} {env : Env π} {c : Args}

theorem createSecurityGroupRule_forall {r : SgRule π} {rules : List (SgRule π)}
    (h : ∀ x ∈ rules, P x) (hr : P r) : ∀ x ∈ createSecurityGroupRule env r rules, P x := by
  intro x hx
  rcases mem_createSecurityGroupRule hx with hx | rfl
  · exact h x hx
  · exact hr

theorem podRules_forall (hnew : ∀ cidr, P (listenerRule env c cidr c.sgRuleName))
    (rules : List (SgRule π)) (acc : List (SgRule π) × List (SgRule π)) (h : ∀ x ∈ acc.2, P x) :
    ∀ x ∈ (rules.foldl (podRule env c) acc).2, P x := by
  induction rules generalizing acc with
  | nil => exact h
  | cons r rules ih =>
    refine ih _ ?_
    unfold podRule
    split
    · split
      · exact h
      · exact createSecurityGroupRule_forall h (hnew _)
    · exact h

theorem podSgs_forall (hnew : ∀ cidr, P (listenerRule env c cidr c.sgRuleName)) (lbSg : String)
    (l : List String) (acc : List (SgRule π) × List (SgRule π)) (h : ∀ x ∈ acc.2, P x) :
    ∀ x ∈ (podSgs env c lbSg l acc).1.2, P x := by
  induction l generalizing acc with
  | nil => exact h
  | cons sg l ih =>
    unfold podSgs
    split
    · exact ih acc h
    · split
      · exact h
      · exact ih _ (podRules_forall hnew _ _ h)

/-- **The invariant rule of a call**: what holds of the rules in the group and of every
rule it may create holds of the rules it leaves there. -/
theorem applyTo_forall [DecidableEq π] (hnew : ∀ cidr, P (listenerRule env c cidr c.sgRuleName))
    (lb : LoadBalancer) (id : String) (o : Octavia π) (h : ∀ x ∈ o.lbRules, P x) :
    ∀ x ∈ (applyTo false env lb c id o).1.lbRules, P x := by
  unfold applyTo applyMembersSecurityGroups
  split
  · rename_i w hw
    split at hw
    · cases hw
      exact h
    · split at hw
      · cases hw
        exact h
      · cases hw
      · rename_i lbSg _ _
        cases hw
        have hloop := podSgs_forall hnew lbSg (sgs lb c) ([], o.lbRules) h
        have hkept : ∀ x ∈ (podSgs env c lbSg (sgs lb c) ([], o.lbRules)).1.2.filter fun r =>
            !deletes lb c (podSgs env c lbSg (sgs lb c) ([], o.lbRules)).1.1 r, P x :=
          fun x hx => hloop x (List.mem_of_mem_filter hx)
        show ∀ x ∈ (applySgRules env lb c lbSg ⟨o.listeners id, o.lbRules⟩).lbRules, P x
        unfold applySgRules
        simp only
        split
        · exact createSecurityGroupRule_forall hkept (hnew none)
        · exact hkept
  · exact h

end Rules

/-- A rule of a group that had the rules `initial` before the calls for the Service. -/
def Known (svc : Service) (initial : List (SgRule π)) (r : SgRule π) : Prop :=
  r ∈ initial ∨ ∃ p n, r.For p n ∧ r.description = svc.listenerName p n

theorem listenerRule_known {env : Env π} {c : Args} {svc : Service} {initial : List (SgRule π)}
    {p : Protocol} (hprotocol : c.protocol = protocolName p)
    (hname : c.sgRuleName = svc.listenerName p c.port) (cidr : Option π) :
    Known svc initial (listenerRule env c cidr c.sgRuleName) := by
  refine .inr ⟨p, c.port, ⟨?_, rfl⟩, hname⟩
  show some c.protocol.toLower = _
  rw [hprotocol]

section Histories

variable [DecidableEq π] {svc : Service} {initial : List (SgRule π)}

theorem updatePorts_known {env : Env π} {svc' : Service} (hns : svc'.ns = svc.ns)
    (hname : svc'.name = svc.name) (lb : LoadBalancer) (listeners : List KnownListener)
    (groups : List String) (ps : List ServicePort) (hps : ∀ p ∈ ps, p.port ≤ 65535)
    (o : Octavia π) (h : ∀ r ∈ o.lbRules, Known svc initial r) :
    ∀ r ∈ (updatePorts false env svc' lb listeners groups ps o).1.lbRules, Known svc initial r := by
  induction ps generalizing o with
  | nil => exact h
  | cons p ps ih =>
    have hps' : ∀ q ∈ ps, q.port ≤ 65535 := fun q hq => hps q (List.mem_cons_of_mem _ hq)
    have hstep : ∀ r ∈ (updatePort false env svc' lb listeners groups p o).1.lbRules,
        Known svc initial r := by
      unfold updatePort
      split
      · exact h
      · refine applyTo_forall (listenerRule_known rfl ?_) lb _ o h
        show svc'.sgRuleName p = svc.listenerName p.protocol p.port
        rw [sgRuleName_eq svc' (hps p List.mem_cons_self)]
        simp only [Service.listenerName, Service.loadbalancerName, hns, hname]
    unfold updatePorts
    split
    · rename_i o' heq
      rw [heq] at hstep
      exact ih hps' o' hstep
    · rename_i o' e heq
      rw [heq] at hstep
      exact hstep

theorem Call.run_known {call : Call π} (hcall : call.About svc) (o : Octavia π)
    (h : ∀ r ∈ o.lbRules, Known svc initial r) :
    ∀ r ∈ (call.run svc o).lbRules, Known svc initial r := by
  cases call with
  | updateLbaasSg env q svc' groups =>
    obtain ⟨hns, hname, hports⟩ := hcall
    show ∀ r ∈ (ListenerAcls.updateLbaasSg false env q svc' groups o).1.lbRules, _
    unfold ListenerAcls.updateLbaasSg
    split
    · exact h
    · exact h
    · split
      · exact h
      · exact h
      · split
        · exact h
        · exact h
        · exact updatePorts_known hns hname _ _ groups svc'.ports hports o h
      · exact h
  | ensureMember env networkPolicy lb protocol lsnrPort listenerId port first provisioned =>
    show ∀ r ∈ (ListenerAcls.ensureMember false env networkPolicy lb
      ⟨svc.listenerName protocol lsnrPort, protocol, listenerId⟩ port
      (if first then some lsnrPort else none) provisioned o).1.lbRules, _
    unfold ListenerAcls.ensureMember
    split
    · exact h
    · split
      · exact h
      · exact h
      · rename_i n hport
        split
        · refine applyTo_forall (listenerRule_known rfl ?_) lb _ o h
          have hn : lsnrPort = n + 1 := by
            cases first with
            | false => cases hport
            | true => exact Option.some.inj hport
          rw [hn]
        · exact h

/-- Every rule a history leaves in the group is known. -/
theorem run_known {calls : List (Call π)} (hcalls : ∀ call ∈ calls, call.About svc)
    (o : Octavia π) (h : ∀ r ∈ o.lbRules, Known svc initial r) :
    ∀ r ∈ (run svc calls o).lbRules, Known svc initial r := by
  induction calls generalizing o with
  | nil => exact h
  | cons call calls ih =>
    exact ih (fun x hx => hcalls x (List.mem_cons_of_mem _ hx)) _
      (Call.run_known (hcalls call List.mem_cons_self) o h)

end Histories

/-! ## What a release takes out -/

/-- How many rules `release_listener` deletes at most: one, and none where the rules are not
enforced or the VIP port is not found. -/
def Env.deletions (env : Env π) : Nat := if env.enforceSgRules ∧ env.vipPort.isSome then 1 else 0

/-- Of the rules that are not among `initial`, those for the listener are gone, and those
for others have stayed. -/
def ReleasedAll (initial before after : List (SgRule π)) (protocol : Protocol) (port : Nat) :
    Prop :=
  (∀ r ∈ after, r ∉ initial → ¬ r.For protocol port) ∧
    ∀ r ∈ before, r ∉ initial → ¬ r.For protocol port → r ∈ after

theorem eraseP_forall_iff {α : Type} (p : α → Bool) (l : List α) :
    (∀ x ∈ l.eraseP p, ¬ p x = true) ↔ (l.filter p).length ≤ 1 := by
  induction l with
  | nil => simp
  | cons x l ih =>
    by_cases hx : p x = true
    · rw [List.eraseP_cons_of_pos hx, List.filter_cons_of_pos hx, List.length_cons,
        Nat.add_le_add_iff_right (n := 1) (k := 0), Nat.le_zero, List.length_eq_zero_iff,
        List.filter_eq_nil_iff]
    · rw [List.eraseP_cons_of_neg hx, List.filter_cons_of_neg hx, ← ih]
      simp [hx]

/-- Where the rules of the start have no description, the rules of a listener among the
known ones are those with its name. -/
theorem known_for_iff {svc : Service} {initial : List (SgRule π)}
    (hinitial : ∀ r ∈ initial, r.description = []) {r : SgRule π} (h : Known svc initial r)
    (p : Protocol) (n : Nat) :
    (r ∉ initial ∧ r.For p n) ↔ r.description = svc.listenerName p n := by
  constructor
  · rintro ⟨hnew, hfor⟩
    obtain ⟨p', n', hfor', hname⟩ := h.resolve_left hnew
    obtain ⟨rfl, rfl⟩ := for_injective hfor hfor'
    exact hname
  · intro hname
    have hnew : r ∉ initial := by
      intro hr
      exact listenerName_ne_nil svc p n (hname.symm.trans (hinitial r hr))
    obtain ⟨p', n', hfor', hname'⟩ := h.resolve_left hnew
    obtain ⟨rfl, rfl⟩ := listenerName_injective (hname.symm.trans hname')
    exact ⟨hnew, hfor'⟩

/-- A release that succeeds leaves no rule of the name exactly where there were not more
than it deletes, and it leaves all rules of other names. -/
theorem releaseListener_spec {env : Env π} {name : Text} {released deletion : Except Exc Unit}
    {rules after : List (SgRule π)}
    (h : releaseListener env name released deletion rules = (after, .ok ())) :
    ((∀ r ∈ after, r.description ≠ name) ↔
        (rules.filter (·.description = name)).length ≤ env.deletions) ∧
      (∀ r ∈ after, r ∈ rules) ∧ ∀ r ∈ rules, r.description ≠ name → r ∈ after := by
  have hkept : ∀ r ∈ rules, r.description ≠ name →
      r ∈ rules.eraseP (·.description = name) := by
    intro r hr hne
    exact (List.mem_eraseP_of_neg (by simpa using hne)).mpr hr
  -- nothing is deleted
  have hsame : (∀ r ∈ rules, r.description ≠ name) ↔
      (rules.filter (·.description = name)).length ≤ 0 := by
    rw [Nat.le_zero, List.length_eq_zero_iff, List.filter_eq_nil_iff]
    simp
  cases released with
  | error e => cases h
  | ok _ =>
    by_cases henforce : env.enforceSgRules = true
    · cases hvip : env.vipPort with
      | none =>
        simp only [releaseListener, henforce, hvip, if_true, Prod.mk.injEq, and_true] at h
        subst h
        have hzero : env.deletions = 0 := by simp [Env.deletions, hvip]
        rw [hzero]
        exact ⟨hsame, fun _ => id, fun r hr _ => hr⟩
      | some groups =>
        cases groups with
        | nil => simp [releaseListener, henforce, hvip] at h
        | cons sg groups =>
          have hone : env.deletions = 1 := by simp [Env.deletions, henforce, hvip]
          rw [hone]
          simp only [releaseListener, henforce, hvip, if_true] at h
          by_cases hany : rules.any (·.description = name) = true
          · rw [if_pos hany] at h
            cases deletion with
            | error e => cases h
            | ok _ =>
              simp only [Prod.mk.injEq, and_true] at h
              subst h
              refine ⟨?_, fun r hr => List.mem_of_mem_eraseP hr, hkept⟩
              rw [← eraseP_forall_iff]
              simp
          · rw [if_neg hany] at h
            simp only [Prod.mk.injEq, and_true] at h
            subst h
            have hnone : ∀ r ∈ rules, r.description ≠ name := by simpa using hany
            refine ⟨iff_of_true hnone ?_, fun _ => id, fun r hr _ => hr⟩
            exact (hsame.mp hnone).trans (Nat.zero_le 1)
    · simp only [releaseListener, if_neg henforce, Prod.mk.injEq, and_true] at h
      subst h
      have hzero : env.deletions = 0 := by simp [Env.deletions, henforce]
      rw [hzero]
      exact ⟨hsame, fun _ => id, fun r hr _ => hr⟩

/-- **A release takes out the rules of its listener**, after any history of calls, exactly
where the group has no more rules of its name than `release_listener` deletes. -/
theorem release_listener_iff [DecidableEq π] {svc : Service} {calls : List (Call π)}
    {o : Octavia π} {env : Env π} {released deletion : Except Exc Unit}
    {after : List (SgRule π)} (protocol : Protocol) (port : Nat)
    (hinitial : ∀ r ∈ o.lbRules, r.description = [])
    (hcalls : ∀ call ∈ calls, call.About svc)
    (h : releaseListener env (svc.listenerName protocol port) released deletion
      (run svc calls o).lbRules = (after, .ok ())) :
    ReleasedAll o.lbRules (run svc calls o).lbRules after protocol port ↔
      ((run svc calls o).lbRules.filter
        (·.description = svc.listenerName protocol port)).length ≤ env.deletions := by
  obtain ⟨hiff, hsub, hkept⟩ := releaseListener_spec h
  have hknown : ∀ r ∈ (run svc calls o).lbRules, Known svc o.lbRules r :=
    run_known hcalls o fun r hr => .inl hr
  have hothers : ∀ r ∈ (run svc calls o).lbRules, r ∉ o.lbRules → ¬ r.For protocol port →
      r ∈ after := by
    intro r hr hnew hfor
    refine hkept r hr fun hname => hfor ?_
    exact ((known_for_iff hinitial (hknown r hr) protocol port).mpr hname).2
  rw [← hiff, ReleasedAll, and_iff_left hothers]
  refine forall_congr' fun r => forall_congr' fun hr => ?_
  rw [Ne, ← known_for_iff hinitial (hknown r (hsub r hr)) protocol port, not_and]

/-! ## A policy with two prefixes -/

/-- The rules of `np` admit the prefixes to all ports. -/
def prefixesEnv (prefixes : List String) : Env String where
  enforceSgRules := true
  podSecurityGroups := ["default"]
  sgRuleEthertype := .IPv4
  projectId := "k8s"
  vipPort := some ["lb"]
  provisioned := true
  securityGroupRules sg :=
    if sg = "np" then
      prefixes.map fun cidr => ⟨.ingress, .IPv4, some "tcp", none, some cidr, none, "k8s", []⟩
    else []
  duplicate s r := s.key = r.key

/-- The first member of the pool of port 80. -/
def firstMember (prefixes : List String) : Call String :=
  .ensureMember (prefixesEnv prefixes) true { policyLb with securityGroups := ["np"] } .TCP 80
    "listener" 8080 true (.ok ())

/-- With one prefix there is one rule, and it goes. -/
theorem release_listener_onePrefix :
    ReleasedAll [] (run namedService [firstMember ["10.0.0.0/24"]] openListener).lbRules [] .TCP
      80 := by
  have hcalls : ∀ call ∈ [firstMember ["10.0.0.0/24"]], call.About namedService := by
    intro call hcall
    rw [List.mem_singleton.mp hcall]
    exact trivial
  have hrelease : releaseListener (prefixesEnv ["10.0.0.0/24"])
      (namedService.listenerName .TCP 80) (.ok ()) (.ok ())
      (run namedService [firstMember ["10.0.0.0/24"]] openListener).lbRules = ([], .ok ()) := by
    decide +kernel
  refine (release_listener_iff .TCP 80 ?_ hcalls hrelease).mpr ?_
  · exact fun r hr => absurd hr List.not_mem_nil
  · decide +kernel

/-- With two prefixes there are two rules, and the second one stays. -/
theorem release_listener_leaves_rule :
    (releaseListener (prefixesEnv ["10.0.0.0/24", "10.0.1.0/24"])
        (namedService.listenerName .TCP 80) (.ok ()) (.ok ())
        (run namedService [firstMember ["10.0.0.0/24", "10.0.1.0/24"]] openListener).lbRules).2 =
      .ok () ∧
    ¬ ReleasedAll [] (run namedService [firstMember ["10.0.0.0/24", "10.0.1.0/24"]]
        openListener).lbRules
      (releaseListener (prefixesEnv ["10.0.0.0/24", "10.0.1.0/24"])
        (namedService.listenerName .TCP 80) (.ok ()) (.ok ())
        (run namedService [firstMember ["10.0.0.0/24", "10.0.1.0/24"]] openListener).lbRules).1
      .TCP 80 := by
  refine ⟨by decide +kernel, fun h => ?_⟩
  refine h.1 ⟨.ingress, .IPv4, some "tcp", some (80, 80), some "10.0.1.0/24", none, "k8s",
    "ns/svc:TCP:80".toList⟩ ?_ List.not_mem_nil ⟨?_, rfl⟩
  · decide +kernel
  · decide +kernel

end ListenerAcls

end KuryrKubernetes
