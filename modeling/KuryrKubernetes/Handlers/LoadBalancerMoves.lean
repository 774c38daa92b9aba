import KuryrKubernetes.Handlers.LoadBalancer

/-!
# What a pass of the load balancer handler can do

`Move` lists the changes a pass makes to its world, each with what the code has
checked when it makes it. Every step function of the handler is a path of moves
(`syncLbaasMembers_moves`), whatever the driver and the API answer, and a pass that
raises has taken a path of moves until then. Invariants of the handler are proved
on the moves only.

- A listener, a pool or a member is recorded only while the load balancer in memory
  is at the address of the spec (`Crd.AtSpecIp`).
- A pool is new to its listener if listener ids are distinct; a member is new to its
  target if pool ids are distinct and the spec lists no target twice
  (`Spec.TargetsDistinct`): `current_targets` is computed before the loops.
-/

namespace KuryrKubernetes

namespace LoadBalancer

open Effect

open Relation (ReflTransGen)

/-! ## Moves -/

/-- The load balancer in memory is at the address of the spec. -/
def Crd.AtSpecIp (crd : Crd) : Prop := crd.status.loadbalancer.map Balancer.ip = crd.spec.ip

/-- A port of the spec up to the difference between a missing name and a null one. -/
def SpecPort.key (p : SpecPort) : Option PortName × Protocol × Nat :=
  (p.name.join, p.protocol, p.port)

/-- The pairs the loops of `_add_new_members` run through. -/
def entriesOf (slices : List Slice) : List (Endpoint × SlicePort) :=
  slices.flatMap fun s => s.endpoints.flatMap fun ep => s.ports.map fun p => (ep, p)

def Spec.entries (spec : Spec) : List (Endpoint × SlicePort) := entriesOf spec.endpointSlices

/-- Two entries for one target: the same address and port number, and names of ports
of the spec that share a listener. -/
def Clash (ports : List SpecPort) (e e' : Endpoint × SlicePort) : Prop :=
  e.1.address = e'.1.address ∧ e.2.port = e'.2.port ∧
    ∃ k ∈ ports.map SpecPort.key, ∃ k' ∈ ports.map SpecPort.key,
      k.1 = e.2.name ∧ k'.1 = e'.2.name ∧ k.2 = k'.2

instance (ports : List SpecPort) (e e' : Endpoint × SlicePort) : Decidable (Clash ports e e') :=
  inferInstanceAs (Decidable (_ ∧ _ ∧ _))

/-- No target is listed twice. -/
def Spec.TargetsDistinct (spec : Spec) : Prop :=
  spec.entries.Pairwise fun e e' => ¬ Clash spec.ports e e'

instance (spec : Spec) : Decidable spec.TargetsDistinct :=
  inferInstanceAs (Decidable (List.Pairwise _ _))

/-- The changes a pass makes to its world. -/
inductive Move (env : Env) : World → World → Prop where
  /-- A call other than `_patch_status`; the stored status stays or is emptied. -/
  | call {w : World} (entry : Entry) (hcall : ∀ b, entry.call ≠ .patchStatus b)
      (hstored : entry.stored = w.stored ∨ entry.stored = {}) :
      Move env w { w with stored := entry.stored, log := w.log ++ [entry] }
  | patchApplied {w : World} :
      Move env w (w.record (.patchStatus true) (w.stored.patched w.crd.status))
  | patchRefused {w : World} : Move env w (w.record (.patchStatus false) w.stored)
  | patchSecurityGroups {w : World} (sgs : List String) :
      Move env w (w.record (.patchSecurityGroups true) (w.stored.setSecurityGroups sgs))
  | setSecurityGroups {w : World} (sgs : List String) :
      Move env w (w.withStatus (w.crd.status.setSecurityGroups sgs))
  | namePorts {w : World} (ports : List SpecPort)
      (hports : ports.map SpecPort.key = w.crd.spec.ports.map SpecPort.key) :
      Move env w { w with crd := { w.crd with spec := { w.crd.spec with ports := ports } } }
  | dropMembers {w : World} (removed : List String) (hne : w.crd.status.memberList ≠ []) :
      Move env w (w.withStatus { w.crd.status with
        members := some (w.crd.status.memberList.filter fun m => m.id ∉ removed) })
  | dropPools {w : World} (removed : List String) (hne : w.crd.status.poolList ≠ []) :
      Move env w (w.withStatus { w.crd.status with
        pools := some (w.crd.status.poolList.filter fun p => p.id ∉ removed)
        members := some (w.crd.status.memberList.filter fun m => m.poolId ∉ removed) })
  | dropListeners {w : World} (removed : List String) (hne : w.crd.status.listenerList ≠ [])
      (hunused : ∀ p ∈ w.crd.status.poolList, p.listenerId ∉ removed) :
      Move env w (w.withStatus { w.crd.status with
        listeners := some (w.crd.status.listenerList.filter fun l => l.id ∉ removed) })
  /-- The load balancer was at another address: the status starts afresh. -/
  | rebuild {w : World} (old : Balancer) (lb : Option Balancer)
      (hold : w.crd.status.loadbalancer = some old) (hip : some old.ip ≠ w.crd.spec.ip)
      (hlb : lb.map Balancer.ip = w.crd.spec.ip) :
      Move env w (w.withStatus { loadbalancer := lb })
  | build {w : World} (lb : Option Balancer) (hnone : w.crd.status.loadbalancer = none)
      (hlb : lb.map Balancer.ip = w.crd.spec.ip) :
      Move env w (w.withStatus { w.crd.status with loadbalancer := lb })
  | recordListener {w : World} (l : Listener) (hip : w.crd.AtSpecIp) :
      Move env w (w.withStatus { w.crd.status with
        listeners := some (recordListener w.crd.status.listenerList l) })
  | addPool {w : World} (id : String) (l : Listener) (hip : w.crd.AtSpecIp)
      (hl : l ∈ w.crd.status.listenerList)
      (hreply : ∃ w lb, (env.ensurePool w lb l).outcome = some (some id))
      (hnew : (w.crd.status.listenerList.map Listener.id).Nodup →
        l.id ∉ w.crd.status.poolList.map Pool.listenerId) :
      Move env w (w.withStatus { w.crd.status with
        pools := some (w.crd.status.poolList ++ [⟨id, l.id⟩]) })
  | addMember {w : World} (pool : Pool) (m : Member) (hip : w.crd.AtSpecIp)
      (hpool : pool ∈ w.crd.status.poolList) (hm : m.poolId = pool.id)
      (hreply : ∃ w lb subnet,
        (env.ensureMember w lb pool m.name m.ip subnet).outcome = some (some m.id) ∧
        m.port = m.name.port)
      (hnew : w.crd.spec.TargetsDistinct → (w.crd.status.poolList.map Pool.id).Nodup →
        m.target ∉ w.crd.status.memberList.map Member.target) :
      Move env w (w.withStatus { w.crd.status with
        members := some (w.crd.status.memberList ++ [m]) })
  | setPubIp {w : World} (info : PubIpInfo) (hip : w.crd.AtSpecIp) :
      Move env w (w.withStatus { w.crd.status with servicePubIpInfo := some info })

/-- What a fault leaves: the stored status and the log are those at the end of the
path, and a failed lookup failed there. -/
def Halt (e : Fault) (t w : World) : Prop :=
  t.stored = w.stored ∧ t.log = w.log ∧ (e = .listenerLookup → ¬ t.crd.status.Linked)

theorem Halt.refl {e : Fault} {w : World} (he : e ≠ .listenerLookup) : Halt e w w :=
  ⟨rfl, rfl, fun h => absurd h he⟩

/-! ## Paths of the primitives

`Path env c x G` is the form all step functions are described in: from a world with
the object `c` in memory. -/

/-- From the object `c`, the program takes a path of moves to `G`. -/
def Path {α : Type} (env : Env) (c : Crd) (x : Handler α) (G : α → World → Prop) : Prop :=
  Moves (Move env) Halt (fun w => w.crd = c) x G

variable {α β : Type} {env : Env} {c : Crd}

theorem Path.bind {x : Handler α} {f : α → Handler β} {G : α → World → Prop}
    {K : β → World → Prop} (hx : Path env c x G)
    (hf : ∀ a c', (∃ w, w.crd = c' ∧ G a w) → Path env c' (f a) K) : Path env c (x >>= f) K := by
  refine Moves.bind hx fun a s₀ s hs => ?_
  exact hf a s.crd ⟨s, rfl, hs.2⟩ s₀ s ⟨hs.1, rfl⟩

theorem after_of_triple {P Q : World → Prop} {x : Handler α} {w : World}
    (h : Triple P x (fun _ => Q) (fun _ => Q)) (hw : P w) : Q (after x w) := by
  have hx := h w hw
  unfold after
  cases hxw : x w with
  | ok a t =>
    rw [hxw] at hx
    exact hx
  | error e t =>
    rw [hxw] at hx
    exact hx

/-- Sequencing after a step that leaves the object alone. -/
theorem Path.keep {x : Handler α} {f : α → Handler β} {S : α → Prop} {K : β → World → Prop}
    (hx : Path env c x fun a w => w.crd = c ∧ S a) (hf : ∀ a, S a → Path env c (f a) K) :
    Path env c (x >>= f) K := by
  refine hx.bind fun a c' ⟨w, hw, hc, hS⟩ => ?_
  obtain rfl : c' = c := hw.symm.trans hc
  exact hf a hS

/-- The status stored after a call. -/
def storedAfter (w : World) (r : Reply α) : Status := if r.cleaned then {} else w.stored

theorem call_of_some {cl : Call} {reply : World → Reply α} {w : World} {a : α}
    (h : (reply w).outcome = some a) :
    call cl reply w = .ok a (w.record cl (storedAfter w (reply w))) := by
  simp only [call, h, storedAfter]

theorem call_of_none {cl : Call} {reply : World → Reply α} {w : World}
    (h : (reply w).outcome = none) :
    call cl reply w = .error .raised (w.record cl (storedAfter w (reply w))) := by
  simp only [call, h, storedAfter]

theorem storedAfter_cases (w : World) (r : Reply α) :
    storedAfter w r = w.stored ∨ storedAfter w r = {} := by
  unfold storedAfter
  split
  · exact .inr rfl
  · exact .inl rfl

theorem path_call {cl : Call} {reply : World → Reply α} (hcl : ∀ b, cl ≠ .patchStatus b) :
    Path env c (call cl reply) fun a w => w.crd = c ∧ ∃ w', (reply w').outcome = some a := by
  rintro s₀ s ⟨rfl, hc⟩
  have hmove : Move env s (s.record cl (storedAfter s (reply s))) :=
    .call ⟨cl, storedAfter s (reply s), s.crd.status⟩ hcl (storedAfter_cases s _)
  cases hout : (reply s).outcome with
  | some a =>
    rw [call_of_some hout]
    exact ⟨.single hmove, hc, s, hout⟩
  | none =>
    rw [call_of_none hout]
    exact ⟨_, .single hmove, Halt.refl (by decide)⟩

theorem path_patchStatus : Path env c (patchStatus env) fun _ w => w.crd = c ∧ True := by
  rintro s₀ s ⟨rfl, hc⟩
  unfold patchStatus
  cases env.patchCrd s with
  | applied => exact ⟨.single .patchApplied, hc, trivial⟩
  | refused => exact ⟨.single .patchRefused, hc, trivial⟩
  | failed => exact ⟨_, .single .patchRefused, Halt.refl (by decide)⟩

theorem path_patchSecurityGroups {sgs : List String} :
    Path env c (patchSecurityGroups env sgs) fun _ w => w.crd = c ∧ True := by
  rintro s₀ s ⟨rfl, hc⟩
  have hrefused : Move env s (s.record (.patchSecurityGroups false) s.stored) :=
    .call ⟨.patchSecurityGroups false, s.stored, s.crd.status⟩ (fun b h => by cases h) (.inl rfl)
  unfold patchSecurityGroups
  cases env.patchCrd s with
  | applied =>
    by_cases hlb : s.stored.loadbalancer.isSome
    · simp only [hlb, if_true]
      exact ⟨.single (.patchSecurityGroups sgs), hc, trivial⟩
    · simp only [hlb]
      exact ⟨.single hrefused, hc, trivial⟩
  | refused => exact ⟨.single hrefused, hc, trivial⟩
  | failed => exact ⟨_, .single hrefused, Halt.refl (by decide)⟩

/-- An assignment to the status that is a path of moves. -/
theorem path_updateStatus {f : Status → Status}
    (h : ∀ w : World, w.crd = c → ReflTransGen (Move env) w (w.withStatus (f c.status))) :
    Path env c (updateStatus f) fun _ w => w.crd = { c with status := f c.status } := by
  refine Moves.modify (fun w hw => ?_) (fun w hw => ?_)
  · have hmove := h w hw
    rwa [← hw] at hmove
  · show (w.withStatus (f w.crd.status)).crd = _
    rw [← hw]
    rfl

theorem Path.update {f : Status → Status} {g : Unit → Handler β} {K : β → World → Prop}
    (h : ∀ w : World, w.crd = c → ReflTransGen (Move env) w (w.withStatus (f c.status)))
    (hg : Path env { c with status := f c.status } (g ()) K) :
    Path env c (updateStatus f >>= g) K :=
  Moves.bind (path_updateStatus h) fun _ => hg

theorem path_getStatus : Path env c getStatus fun st w => w.crd = c ∧ st = c.status := by
  refine Moves.get_bind fun s hs => Moves.pure fun t ht => ?_
  rw [ht, hs]
  exact ⟨rfl, rfl⟩

theorem path_theBalancer :
    Path env c theBalancer fun lb w => w.crd = c ∧ c.status.loadbalancer = some lb := by
  refine path_getStatus.keep fun st hst => ?_
  subst hst
  cases hlb : c.status.loadbalancer with
  | none => exact Moves.throw fun w _ => Halt.refl (by simp)
  | some lb => exact Moves.pure fun w hw => ⟨hw, rfl⟩

/-! ## Paths of the removals -/

theorem path_keepsNode {m : Member} : Path env c (keepsNode env m) fun _ w => w.crd = c ∧ True := by
  refine Moves.get_bind fun s hs => ?_
  subst hs
  by_cases hname : s.crd.name = "kubernetes"
  · simp only [hname, if_true]
    cases s.crd.spec.provider with
    | none => exact Moves.throw fun w _ => Halt.refl (by simp)
    | some provider =>
      by_cases hovn : provider = "ovn"
      · simp only [hovn, if_true]
        exact Moves.pure fun t ht => ⟨by rw [ht], trivial⟩
      · simp only [hovn, if_false]
        have hread : Path env s.crd (call .read fun w => env.getPodByIp w m.ip none) fun _ w =>
            w.crd = s.crd ∧ True :=
          Moves.post (path_call fun b h => by cases h) fun _ _ h => ⟨h.1, trivial⟩
        refine Moves.pre (hread.keep fun a _ => ?_) fun t ht => by rw [ht]
        exact Moves.pure fun t ht => ⟨ht, trivial⟩
  · simp only [hname, if_false]
    exact Moves.pure fun t ht => ⟨by rw [ht], trivial⟩

theorem path_releaseUnusedMember {targets : List (String × String × Nat × Option String)}
    {m : Member} :
    Path env c (releaseUnusedMember env targets m) fun _ w => w.crd = c ∧ True := by
  unfold releaseUnusedMember
  split
  · exact Moves.pure fun w hw => ⟨hw, trivial⟩
  · refine path_keepsNode.keep fun kept _ => ?_
    cases kept with
    | true => exact Moves.pure fun w hw => ⟨hw, trivial⟩
    | false =>
      refine path_theBalancer.keep fun lb _ => ?_
      refine (path_call fun b h => by cases h).keep fun _ _ => ?_
      exact Moves.pure fun w hw => ⟨hw, trivial⟩

theorem path_releaseUnusedPool {crd : Crd} {pool : Pool} :
    Path env c (releaseUnusedPool env crd pool) fun _ w => w.crd = c ∧ True := by
  unfold releaseUnusedPool
  split
  · exact Moves.pure fun w hw => ⟨hw, trivial⟩
  · refine path_theBalancer.keep fun lb _ => ?_
    refine (path_call fun b h => by cases h).keep fun _ _ => ?_
    exact Moves.pure fun w hw => ⟨hw, trivial⟩

/-- Only a listener without a pool is released. -/
theorem path_releaseUnusedListener {current : List String} {l : Listener} :
    Path env c (releaseUnusedListener env current l) fun b w =>
      w.crd = c ∧ ∀ id, b = some id → id ∉ current := by
  unfold releaseUnusedListener
  split
  · exact Moves.pure fun w hw => ⟨hw, fun id h => by cases h⟩
  · rename_i hcurrent
    refine path_theBalancer.keep fun lb _ => ?_
    refine (path_call fun b h => by cases h).keep fun _ _ => ?_
    refine Moves.pure fun w hw => ⟨hw, fun id h => ?_⟩
    cases h
    exact hcurrent

/-- The loop of a removal, when each iteration leaves the object alone. -/
theorem path_gather {f : α → Handler (Option String)} {S : α → Option String → Prop}
    {as : List α} (h : ∀ a ∈ as, Path env c (f a) fun b w => w.crd = c ∧ S a b) :
    Path env c (gather f as) fun bs w => w.crd = c ∧ Gathered S as bs :=
  Moves.gather h

theorem path_dropRemoved {removed : List String} {f : Status → Status}
    (h : removed ≠ [] → ∀ w : World, w.crd = c → Move env w (w.withStatus (f c.status))) :
    Path env c (dropRemoved env removed f) fun _ _ => True := by
  unfold dropRemoved
  split
  · exact Moves.pure fun _ _ => trivial
  · rename_i hne
    exact Path.update (fun w hw => .single (h hne w hw)) (path_patchStatus.post fun _ _ _ => trivial)

theorem path_requireListeners : Path env c requireListeners fun _ w => w.crd = c ∧ True := by
  refine path_getStatus.keep fun st _ => ?_
  split
  · exact Moves.throw fun w _ => Halt.refl (by simp)
  · exact Moves.pure fun w hw => ⟨hw, trivial⟩

/-- A loop that returned something had something to run over. -/
theorem ne_nil_of_gathered {S : α → Option String → Prop} {as : List α} {bs : List String}
    (h : Gathered S as bs) (hne : bs ≠ []) : as ≠ [] := by
  intro has
  obtain ⟨b, hb⟩ := List.exists_mem_of_ne_nil bs hne
  obtain ⟨a, ha, _⟩ := h.mem b hb
  rw [has] at ha
  exact List.not_mem_nil ha

theorem SpecPort.key_fillName (p : SpecPort) : p.fillName.key = p.key := rfl

theorem map_key_modify (ports : List SpecPort) (i : Nat) :
    (ports.modify i SpecPort.fillName).map SpecPort.key = ports.map SpecPort.key := by
  apply List.ext_getElem?
  intro j
  simp only [List.getElem?_map, List.getElem?_modify]
  cases ports[j]? with
  | none => simp
  | some p =>
    by_cases hij : i = j
    · simp [hij, SpecPort.key_fillName]
    · simp [hij]

/-- Naming the ports keeps what they are told apart by. -/
theorem nameSpecPorts_key {listeners : List Listener} :
    ∀ {pools : List Pool} {ports : List SpecPort} {specPorts : Assignments String},
      (nameSpecPorts listeners pools ports specPorts).1.map SpecPort.key = ports.map SpecPort.key
  | [], _, _ => rfl
  | pool :: pools, ports, specPorts => by
    rw [nameSpecPorts]
    split
    · exact nameSpecPorts_key
    · rw [nameSpecPorts_key, map_key_modify]

theorem path_removeUnusedMembers : Path env c (removeUnusedMembers env) fun _ _ => True := by
  refine path_requireListeners.keep fun _ _ => ?_
  refine Moves.get_bind fun s hs => ?_
  subst hs
  set named := nameSpecPorts s.crd.status.listenerList s.crd.status.poolList s.crd.spec.ports []
  have hname : Moves (Move env) Halt (fun t => t = s)
      (modify fun w => { w with crd := { w.crd with spec := { w.crd.spec with ports := named.1 } } })
      (fun _ w => w.crd = { s.crd with spec := { s.crd.spec with ports := named.1 } }) := by
    refine Moves.modify (fun w hw => ?_) (fun w hw => ?_)
    · rw [hw]
      exact .single (.namePorts named.1 nameSpecPorts_key)
    · rw [hw]
  refine Moves.bind hname fun _ => ?_
  refine Path.keep (path_gather fun m _ => path_releaseUnusedMember) fun removed hremoved => ?_
  refine path_dropRemoved fun hne w hw => ?_
  rw [← hw]
  refine .dropMembers removed ?_
  rw [hw]
  exact ne_nil_of_gathered hremoved hne

theorem path_removeUnusedPools : Path env c (removeUnusedPools env) fun _ _ => True := by
  refine path_requireListeners.keep fun _ _ => ?_
  refine Moves.get_bind fun s hs => ?_
  subst hs
  refine Moves.pre (F := fun w => w.crd = s.crd) ?_ fun w hw => by rw [hw]
  refine Path.keep (path_gather fun m _ => path_releaseUnusedPool) fun removed hremoved => ?_
  refine path_dropRemoved fun hne w hw => ?_
  rw [← hw]
  refine .dropPools removed ?_
  rw [hw]
  exact ne_nil_of_gathered hremoved hne

theorem path_removeUnusedListeners : Path env c (removeUnusedListeners env) fun _ _ => True := by
  refine path_getStatus.keep fun st hst => ?_
  subst hst
  refine Path.keep (path_gather fun m _ => path_releaseUnusedListener) fun removed hremoved => ?_
  refine path_dropRemoved fun hne w hw => ?_
  rw [← hw]
  refine .dropListeners removed ?_ fun p hp hmem => ?_
  · rw [hw]
    exact ne_nil_of_gathered hremoved hne
  · obtain ⟨l, _, hl⟩ := hremoved.mem _ hmem
    refine hl _ rfl (List.mem_map.mpr ⟨p, ?_, rfl⟩)
    rwa [← hw]

/-! ## The path of the load balancer -/

theorem path_publicIp {reply : World → Reply Unit} :
    Path env c (call .publicIp reply) fun _ w => w.crd = c ∧ True :=
  Moves.post (path_call fun b h => by cases h) fun _ _ h => ⟨h.1, trivial⟩

theorem path_releaseBalancer {lb : Balancer} :
    Path env c (releaseBalancer env lb) fun _ w => w.crd = c ∧ True := by
  have hrelease : Path env c (call (.release .loadbalancer) fun w => env.releaseLoadbalancer w lb)
      fun _ w => w.crd = c ∧ True :=
    Moves.post (path_call fun b h => by cases h) fun _ _ h => ⟨h.1, trivial⟩
  refine path_getStatus.keep fun st _ => ?_
  cases st.servicePubIpInfo with
  | none => exact hrelease
  | some info => exact path_publicIp.keep fun _ _ => path_publicIp.keep fun _ _ => hrelease

/-- The load balancer `ensure_loadbalancer` returns. -/
def newBalancer (spec : Spec) (ip : String) (r : BalancerReply) : Balancer :=
  ⟨r.id, ip, r.provider, spec.subnetId, r.portId, spec.securityGroupsIds⟩

theorem ensureBalancer_none {w : World} (h : w.crd.spec.ip = none) :
    ensureBalancer env w = .ok () w := by
  rw [ensureBalancer, run_bind_ok (show (get : Handler World) w = .ok w w from rfl)]
  simp only [h]
  rfl

theorem ensureBalancer_some {w : World} {ip : String} (h : w.crd.spec.ip = some ip) :
    ensureBalancer env w = (do
      let r ← call (.ensure .loadbalancer) env.ensureLoadbalancer
      updateStatus fun st =>
        { st with loadbalancer := some (newBalancer w.crd.spec ip r) } : Handler Unit) w := by
  rw [ensureBalancer, run_bind_ok (show (get : Handler World) w = .ok w w from rfl)]
  simp only [h]
  rfl

/-- Where a load balancer is missing, one at the address of the spec is recorded. -/
theorem path_ensureBalancer (hnone : c.status.loadbalancer = none) :
    Path env c (ensureBalancer env) fun _ w => w.crd.AtSpecIp := by
  rintro s₀ s ⟨rfl, rfl⟩
  cases hip : s.crd.spec.ip with
  | none =>
    rw [ensureBalancer_none hip]
    refine ⟨.refl, ?_⟩
    show Option.map _ s.crd.status.loadbalancer = s.crd.spec.ip
    rw [hnone, hip]
    rfl
  | some ip =>
    rw [ensureBalancer_some hip]
    refine Path.keep (c := s.crd) (path_call fun b h => by cases h) (fun r _ => ?_) s s ⟨rfl, rfl⟩
    refine Moves.post (path_updateStatus fun w hw => ?_) fun _ w hw => ?_
    · rw [← hw] at hnone hip ⊢
      exact .single (.build _ hnone (by rw [hip]; rfl))
    · rw [hw, Crd.AtSpecIp, hip]
      rfl

/-- A load balancer at another address is replaced. The reset comes before the call
that may fail: the path makes it only once the new load balancer is there. -/
theorem path_rebuild {old : Balancer} (hold : c.status.loadbalancer = some old)
    (hip : some old.ip ≠ c.spec.ip) :
    Path env c (updateStatus (fun _ => {}) >>= fun _ => ensureBalancer env)
      fun _ w => w.crd.AtSpecIp := by
  rintro s₀ s ⟨rfl, rfl⟩
  have hrun : (updateStatus (fun _ => {}) >>= fun _ => ensureBalancer env) s
      = ensureBalancer env (s.withStatus {}) := rfl
  rw [hrun]
  cases hspec : s.crd.spec.ip with
  | none =>
    rw [ensureBalancer_none (w := s.withStatus {}) hspec]
    exact ⟨.single (.rebuild old none hold hip hspec.symm), hspec.symm⟩
  | some ip =>
    rw [ensureBalancer_some (w := s.withStatus {}) hspec]
    set reply := env.ensureLoadbalancer (s.withStatus {}) with hreply
    set entry : Entry := ⟨.ensure .loadbalancer, storedAfter (s.withStatus {}) reply, {}⟩
      with hentry
    set t : World := { s with stored := entry.stored, log := s.log ++ [entry] } with ht
    have hmove : Move env s t := .call entry (fun b h => by cases h) (storedAfter_cases _ _)
    cases hout : reply.outcome with
    | none =>
      rw [run_bind_error (call_of_none hout)]
      exact ⟨t, .single hmove, rfl, rfl, fun h => by cases h⟩
    | some r =>
      rw [run_bind_ok (call_of_some hout)]
      have hrebuild : Move env t
          (t.withStatus { loadbalancer := some (newBalancer s.crd.spec ip r) }) :=
        .rebuild old _ hold hip (by rw [ht, hspec]; rfl)
      refine ⟨.tail (.single hmove) hrebuild, ?_⟩
      show Option.map _ (some _) = s.crd.spec.ip
      rw [hspec]
      rfl

theorem path_syncLbaasLoadbalancer :
    Path env c (syncLbaasLoadbalancer env) fun _ w => w.crd.AtSpecIp := by
  have hpatch : ∀ c', c'.AtSpecIp → Path env c' (patchStatus env) fun _ w => w.crd.AtSpecIp := by
    intro c' hc'
    exact path_patchStatus.post fun _ w hw => by rw [hw.1]; exact hc'
  refine Moves.get_bind fun s hs => ?_
  subst hs
  refine Moves.pre (F := fun w => w.crd = s.crd) ?_ fun w hw => by rw [hw]
  cases hlb : s.crd.status.loadbalancer with
  | none =>
    simp only [hlb]
    refine (path_ensureBalancer hlb).bind fun _ c' ⟨w, hw, hc'⟩ => hpatch c' (hw ▸ hc')
  | some lb =>
    simp only [hlb]
    split
    · rename_i hip
      refine path_releaseBalancer.keep fun _ _ => ?_
      rw [← bind_assoc]
      refine (path_rebuild hlb hip).bind fun _ c' ⟨w, hw, hc'⟩ => hpatch c' (hw ▸ hc')
    · rename_i hip
      refine Moves.pure fun w hw => ?_
      rw [hw, Crd.AtSpecIp, hlb]
      exact not_not.mp hip

/-! ## Paths of the additions -/

theorem map_ip_setSecurityGroups (st : Status) (sgs : List String) :
    (st.setSecurityGroups sgs).loadbalancer.map Balancer.ip = st.loadbalancer.map Balancer.ip := by
  unfold Status.setSecurityGroups
  cases st.loadbalancer with
  | none => rfl
  | some lb => rfl

theorem Crd.AtSpecIp.setSecurityGroups (h : c.AtSpecIp) (sgs : List String) :
    Crd.AtSpecIp { c with status := c.status.setSecurityGroups sgs } :=
  (map_ip_setSecurityGroups c.status sgs).trans h

/-- The end of an addition: the patch decides whether the loop goes on. -/
theorem path_patch_exit {stop : World → Prop} {next : Bool → World → Prop}
    (hstop : ∀ w : World, w.crd = c → stop w) (hnext : ∀ w : World, w.crd = c → next true w) :
    Path env c (do if ← patchStatus env then return some true else return none)
      (Exit stop next) := by
  refine path_patchStatus.keep fun applied _ => ?_
  cases applied with
  | true => exact Moves.pure hnext
  | false => exact Moves.pure hstop

/-- Where the loops of the additions lead to: they end at the address of the spec,
however they are left. -/
abbrev LoopExit (I : Crd → Prop) : Option Bool → World → Prop :=
  Exit (fun w => w.crd.AtSpecIp) fun _ w => I w.crd

theorem path_sweep {f : α → Bool → Handler (Option Bool)} {I : List α → Crd → Prop}
    (hstep : ∀ a as changed c, I (a :: as) c → Path env c (f a changed) (LoopExit (I as)))
    {as : List α} {changed : Bool} (h : I as c) :
    Path env c (sweep f as changed) (LoopExit (I [])) := by
  have hloop := @Moves.sweep Fault World α (Move env) Halt f (fun w => w.crd.AtSpecIp)
    (fun as w => I as w.crd)
    (fun a as changed s₀ w hw => hstep a as changed w.crd hw.2 s₀ w ⟨hw.1, rfl⟩) as changed
  exact hloop.pre fun w hw => hw ▸ h

/-- An addition as a whole: its loop, and the flag it returns. -/
theorem path_sweep_getD {f : α → Bool → Handler (Option Bool)} {I : List α → Crd → Prop}
    (hstep : ∀ a as changed c, I (a :: as) c → Path env c (f a changed) (LoopExit (I as)))
    (hend : ∀ c, I [] c → c.AtSpecIp) {as : List α} (h : I as c) :
    Path env c (do return (← sweep f as false).getD false) fun _ w => w.crd.AtSpecIp := by
  refine Moves.bind (path_sweep hstep h) fun r => ?_
  cases r with
  | none => exact Moves.pure fun w hw => hw
  | some changed => exact Moves.pure fun w hw => hend w.crd hw

/-- The assignments of a driver reply for a listener. -/
theorem recordListener_path {w : World} (hip : w.crd.AtSpecIp) (clears : Bool) (l : Listener) :
    let st := if clears then w.crd.status.setSecurityGroups [] else w.crd.status
    let st' := { st with listeners := some (recordListener st.listenerList l) }
    ReflTransGen (Move env) w (w.withStatus st') ∧
      Crd.AtSpecIp { w.crd with status := st' } := by
  cases clears with
  | false => exact ⟨.single (.recordListener l hip), hip⟩
  | true =>
    have hip' := hip.setSecurityGroups []
    refine ⟨.tail (.single (.setSecurityGroups [])) ?_, hip'⟩
    exact .recordListener (w := w.withStatus (w.crd.status.setSecurityGroups [])) l hip'

theorem path_addNewListener {p : SpecPort} {changed : Bool} (hip : c.AtSpecIp) :
    Path env c (addNewListener env p changed) (LoopExit Crd.AtSpecIp) := by
  have hstay : ∀ w : World, w.crd = c → w.crd.AtSpecIp := fun w hw => hw ▸ hip
  refine Moves.get_bind fun s hs => ?_
  subst hs
  refine Moves.pre (F := fun w => w.crd = s.crd) ?_ fun w hw => by rw [hw]
  simp only
  split
  · exact Moves.pure hstay
  · split
    · exact Moves.throw fun w _ => Halt.refl (by simp)
    · split
      · exact Moves.pure hstay
      · cases s.crd.status.loadbalancer with
        | none => exact Moves.throw fun w _ => Halt.refl (by simp)
        | some lb =>
          refine Path.keep (path_call fun b h => by cases h) fun r _ => ?_
          cases r with
          | none => exact Moves.pure hstay
          | some r =>
            have hpath := fun (w : World) (hw : w.crd = s.crd) =>
              @recordListener_path env w (hw ▸ hip) r.clearsSecurityGroups
                ⟨r.id, p.protocol, p.port, r.timeoutClientData, r.timeoutMemberData⟩
            have hend := (hpath s rfl).2
            refine Path.update (fun w hw => ?_)
              (path_patch_exit (fun w hw => hw ▸ hend) fun w hw => hw ▸ hend)
            have h := (hpath w hw).1
            rwa [hw] at h

theorem path_addNewListeners (hip : c.AtSpecIp) :
    Path env c (addNewListeners env) fun _ w => w.crd.AtSpecIp := by
  refine Moves.get_bind fun s hs => ?_
  subst hs
  refine Moves.pre (F := fun w => w.crd = s.crd) ?_ fun w hw => by rw [hw]
  exact path_sweep_getD (I := fun _ => Crd.AtSpecIp) (fun _ _ _ _ h => path_addNewListener h)
    (fun _ h => h) hip

/-! ### Pools -/

/-- The loop of `_add_new_pools`, with the listeners still to come: with distinct
ids, the ones that get a pool have none. -/
structure PoolLoop (listeners : List Listener) (current : List String) (rest : List Listener)
    (crd : Crd) : Prop where
  atSpecIp : crd.AtSpecIp
  listeners_eq : crd.status.listenerList = listeners
  mem : ∀ l ∈ rest, l ∈ listeners
  nodup : (listeners.map Listener.id).Nodup → (rest.map Listener.id).Nodup
  fresh : (listeners.map Listener.id).Nodup → ∀ l ∈ rest, l.id ∉ current →
    l.id ∉ crd.status.poolList.map Pool.listenerId

section PoolLoop

variable {listeners : List Listener} {current : List String} {l : Listener} {rest : List Listener}

theorem PoolLoop.tail (h : PoolLoop listeners current (l :: rest) c) :
    PoolLoop listeners current rest c where
  atSpecIp := h.atSpecIp
  listeners_eq := h.listeners_eq
  mem := fun x hx => h.mem x (List.mem_cons_of_mem _ hx)
  nodup := fun hnd => (List.nodup_cons.mp (h.nodup hnd)).2
  fresh := fun hnd x hx => h.fresh hnd x (List.mem_cons_of_mem _ hx)

/-- A pool for the listener at hand leaves the loop invariant for the others. -/
theorem PoolLoop.add (h : PoolLoop listeners current (l :: rest) c) (id : String) :
    PoolLoop listeners current rest { c with status := { c.status with
      pools := some (c.status.poolList ++ [⟨id, l.id⟩]) } } where
  atSpecIp := h.atSpecIp
  listeners_eq := h.listeners_eq
  mem := h.tail.mem
  nodup := h.tail.nodup
  fresh := by
    intro hnd x hx hcurrent hmem
    have hmem : x.id ∈ (c.status.poolList ++ [(⟨id, l.id⟩ : Pool)]).map Pool.listenerId := hmem
    rw [List.map_append, List.mem_append] at hmem
    rcases hmem with hmem | hmem
    · exact h.tail.fresh hnd x hx hcurrent hmem
    · have hne := h.nodup hnd
      rw [List.map_cons, List.nodup_cons] at hne
      have hid : x.id = l.id := List.mem_singleton.mp hmem
      exact hne.1 (hid ▸ List.mem_map_of_mem hx)

theorem path_addNewPool {changed : Bool} (h : PoolLoop listeners current (l :: rest) c) :
    Path env c (addNewPool env current l changed)
      (LoopExit (PoolLoop listeners current rest)) := by
  have hstay : ∀ w : World, w.crd = c → PoolLoop listeners current rest w.crd :=
    fun w hw => hw ▸ h.tail
  unfold addNewPool
  split
  · exact Moves.pure hstay
  · rename_i hcurrent
    refine path_theBalancer.keep fun lb _ => ?_
    refine Path.keep (path_call fun b h => by cases h) fun r hr => ?_
    cases r with
    | none => exact Moves.pure hstay
    | some id =>
      have hend := h.add id
      refine Path.update (fun w hw => .single ?_)
        (path_patch_exit (fun w hw => hw ▸ hend.atSpecIp) fun w hw => hw ▸ hend)
      rw [← hw] at h ⊢
      obtain ⟨w', hw'⟩ := hr
      refine .addPool id l h.atSpecIp ?_ ⟨w', lb, hw'⟩ fun hnd => ?_
      · rw [h.listeners_eq]
        exact h.mem l List.mem_cons_self
      · rw [h.listeners_eq] at hnd
        exact h.fresh hnd l List.mem_cons_self hcurrent

end PoolLoop

theorem path_addNewPools (hip : c.AtSpecIp) :
    Path env c (addNewPools env) fun _ w => w.crd.AtSpecIp := by
  refine path_getStatus.keep fun st hst => ?_
  subst hst
  have hstart : PoolLoop c.status.listenerList (c.status.poolList.map Pool.listenerId)
      c.status.listenerList c :=
    ⟨hip, rfl, fun _ hl => hl, fun hnd => hnd, fun _ _ _ hcurrent => hcurrent⟩
  exact path_sweep_getD
    (I := PoolLoop c.status.listenerList (c.status.poolList.map Pool.listenerId))
    (fun _ _ _ _ h => path_addNewPool h) (fun _ h => h.atSpecIp) hstart

/-! ### Members -/

theorem mem_of_lookup {κ ν : Type} [BEq κ] [LawfulBEq κ] {l : List (κ × ν)} {k : κ} {v : ν}
    (h : l.lookup k = some v) : (k, v) ∈ l := by
  obtain ⟨l₁, l₂, rfl, _⟩ := List.lookup_eq_some_iff.mp h
  exact List.mem_append_right _ List.mem_cons_self

theorem mem_poolByLsnrPort {st : Status} {key : Protocol × Nat} {pool : Pool} :
    (key, pool) ∈ poolByLsnrPort st ↔ pool ∈ st.poolList ∧
      ∃ l, lsnrById st.listenerList pool.listenerId = some l ∧ key = (l.protocol, l.port) := by
  simp only [poolByLsnrPort, List.mem_reverse, List.mem_filterMap, Option.map_eq_some_iff,
    Prod.mk.injEq]
  constructor
  · rintro ⟨p, hp, l, hl, rfl, rfl⟩
    exact ⟨hp, l, hl, rfl⟩
  · rintro ⟨hp, l, hl, rfl⟩
    exact ⟨pool, hp, l, hl, rfl, rfl⟩

theorem mem_poolByTgtName {byPort : List ((Protocol × Nat) × Pool)} {ports : List SpecPort}
    {name : Option PortName} {pool : Pool} :
    (name, pool) ∈ poolByTgtName byPort ports ↔ ∃ p ∈ ports, p.name = some name ∧
      byPort.lookup (p.protocol, p.port) = some pool := by
  simp only [poolByTgtName, List.mem_reverse, List.mem_filterMap, Option.bind_eq_some_iff,
    Option.map_eq_some_iff, Prod.mk.injEq]
  constructor
  · rintro ⟨p, hp, n, hn, q, hq, rfl, rfl⟩
    exact ⟨p, hp, hn, hq⟩
  · rintro ⟨p, hp, hn, hq⟩
    exact ⟨p, hp, name, hn, pool, hq, rfl, rfl⟩

/-- A pool found by the name of a port is a pool of the status, and its listener
serves a port of the spec with that name. -/
theorem lookup_directory {name : Option PortName} {pool : Pool}
    (h : (directory c).pools.lookup name = some pool) :
    pool ∈ c.status.poolList ∧ ∃ l, lsnrById c.status.listenerList pool.listenerId = some l ∧
      ∃ k ∈ c.spec.ports.map SpecPort.key, k.1 = name ∧ k.2 = (l.protocol, l.port) := by
  obtain ⟨p, hp, hname, hkey⟩ := mem_poolByTgtName.mp (mem_of_lookup h)
  obtain ⟨hpool, l, hl, hport⟩ := mem_poolByLsnrPort.mp (mem_of_lookup hkey)
  refine ⟨hpool, l, hl, p.key, List.mem_map_of_mem hp, ?_, hport⟩
  show p.name.join = name
  rw [hname]
  rfl

/-- The loops of `_add_new_members` started at the object `c₀`, with the entries
still to come. -/
structure MemberLoop (c₀ : Crd) (rest : List (Endpoint × SlicePort)) (crd : Crd) : Prop where
  atSpecIp : crd.AtSpecIp
  spec_eq : crd.spec = c₀.spec
  pools_eq : crd.status.poolList = c₀.status.poolList
  pairwise : c₀.spec.TargetsDistinct → rest.Pairwise fun e e' => ¬ Clash c₀.spec.ports e e'
  fresh : c₀.spec.TargetsDistinct → (c₀.status.poolList.map Pool.id).Nodup →
    ∀ e ∈ rest, ∀ pool, (directory c₀).pools.lookup e.2.name = some pool →
      (e.1.address, e.2.port, pool.id) ∉ (directory c₀).currentTargets →
      (e.1.address, e.2.port, pool.id) ∉ crd.status.memberList.map Member.target

section MemberLoop

variable {c₀ : Crd} {e : Endpoint × SlicePort} {rest : List (Endpoint × SlicePort)}

/-- Entries may be passed over. -/
theorem MemberLoop.sublist {rest' : List (Endpoint × SlicePort)} (h : MemberLoop c₀ rest c)
    (hsub : rest'.Sublist rest) : MemberLoop c₀ rest' c where
  atSpecIp := h.atSpecIp
  spec_eq := h.spec_eq
  pools_eq := h.pools_eq
  pairwise := fun hd => (h.pairwise hd).sublist hsub
  fresh := fun hd hnd x hx => h.fresh hd hnd x (hsub.subset hx)

theorem MemberLoop.tail (h : MemberLoop c₀ (e :: rest) c) : MemberLoop c₀ rest c :=
  h.sublist (List.sublist_cons_self e rest)

/-- Entries for one target in one pool clash. -/
theorem clash_of_lookup {e e' : Endpoint × SlicePort} {pool : Pool}
    (h : (directory c).pools.lookup e.2.name = some pool)
    (h' : (directory c).pools.lookup e'.2.name = some pool)
    (haddress : e.1.address = e'.1.address) (hport : e.2.port = e'.2.port) :
    Clash c.spec.ports e e' := by
  obtain ⟨_, l, hl, k, hk, hname, hkey⟩ := lookup_directory h
  obtain ⟨_, l', hl', k', hk', hname', hkey'⟩ := lookup_directory h'
  obtain rfl : l = l' := Option.some.inj (hl.symm.trans hl')
  exact ⟨haddress, hport, k, hk, k', hk', hname, hname', hkey.trans hkey'.symm⟩

/-- A member for the entry at hand leaves the loop invariant for the others. -/
theorem MemberLoop.add (h : MemberLoop c₀ (e :: rest) c) {pool : Pool}
    (hpool : (directory c₀).pools.lookup e.2.name = some pool) {m : Member}
    (hm : m.target = (e.1.address, e.2.port, pool.id)) :
    MemberLoop c₀ rest { c with status := { c.status with
      members := some (c.status.memberList ++ [m]) } } where
  atSpecIp := h.atSpecIp
  spec_eq := h.spec_eq
  pools_eq := h.pools_eq
  pairwise := h.tail.pairwise
  fresh := by
    intro hd hnd x hx pool' hpool' hcurrent hmem
    have hmem : (x.1.address, x.2.port, pool'.id)
        ∈ (c.status.memberList ++ [m]).map Member.target := hmem
    rw [List.map_append, List.mem_append] at hmem
    rcases hmem with hmem | hmem
    · exact h.tail.fresh hd hnd x hx pool' hpool' hcurrent hmem
    · have htarget := (List.mem_singleton.mp hmem).trans hm
      simp only [Prod.mk.injEq] at htarget
      have hsame : pool' = pool := List.inj_on_of_nodup_map hnd (lookup_directory hpool').1
        (lookup_directory hpool).1 htarget.2.2
      subst hsame
      exact List.rel_of_pairwise_cons (h.pairwise hd) hx
        (clash_of_lookup hpool hpool' htarget.1.symm htarget.2.1.symm)

theorem path_read {reply : World → Reply α} :
    Path env c (call .read reply) fun _ w => w.crd = c ∧ True :=
  Moves.post (path_call fun b h => by cases h) fun _ _ h => ⟨h.1, trivial⟩

theorem path_targetPod {ep : Endpoint} :
    Path env c (targetPod env ep) fun _ w => w.crd = c ∧ True := by
  unfold targetPod
  split
  · exact path_read
  · refine path_read.keep fun subnet _ => ?_
    cases subnet with
    | some _ => exact Moves.pure fun w hw => ⟨hw, trivial⟩
    | none => exact path_read

theorem path_getSubnetByOctaviaMode {pod : Option String} {ip : String} :
    Path env c (getSubnetByOctaviaMode env pod ip) fun _ w => w.crd = c ∧ True := by
  unfold getSubnetByOctaviaMode
  split
  · split
    · exact path_read
    · exact path_read
  · exact path_theBalancer.keep fun lb _ => Moves.pure fun w hw => ⟨hw, trivial⟩

theorem path_getTargetInfo {ref : Option TargetRef} :
    Path env c (getTargetInfo ref) fun _ w => w.crd = c ∧ True := by
  unfold getTargetInfo
  split
  · exact Moves.get_bind fun s hs => Moves.pure fun w hw => ⟨hw ▸ hs, trivial⟩
  · exact Moves.pure fun w hw => ⟨hw, trivial⟩
  · exact Moves.throw fun w _ => Halt.refl (by simp)
  · exact Moves.throw fun w _ => Halt.refl (by simp)

theorem path_ensureMember {pool : Pool} {name : MemberName} {subnet : String} {changed : Bool}
    (h : MemberLoop c₀ (e :: rest) c)
    (hpool : (directory c₀).pools.lookup e.2.name = some pool)
    (hcurrent : (e.1.address, e.2.port, pool.id) ∉ (directory c₀).currentTargets)
    (hport : name.port = e.2.port) :
    Path env c (ensureMember env pool name e.1.address subnet changed) (LoopExit (MemberLoop c₀ rest)) := by
  refine path_theBalancer.keep fun lb _ => ?_
  refine Path.keep (path_call fun b h => by cases h) fun r hr => ?_
  cases r with
  | none =>
    refine Moves.pure fun w hw => ?_
    show MemberLoop c₀ rest w.crd
    exact hw ▸ h.tail
  | some id =>
    set m : Member := ⟨id, name, e.1.address, name.port, pool.id⟩ with hm
    have htarget : m.target = (e.1.address, e.2.port, pool.id) := by
      rw [hm, Member.target, hport]
    have hend := h.add hpool htarget
    refine Path.update (fun w hw => .single ?_)
      (path_patch_exit (fun w hw => hw ▸ hend.atSpecIp) fun w hw => hw ▸ hend)
    rw [← hw] at h ⊢
    obtain ⟨w', hw'⟩ := hr
    refine .addMember pool m h.atSpecIp ?_ rfl ⟨w', lb, subnet, hw', rfl⟩ fun hd hnd => ?_
    · rw [h.pools_eq]
      exact (lookup_directory hpool).1
    · rw [htarget]
      rw [h.spec_eq] at hd
      rw [h.pools_eq] at hnd
      exact h.fresh hd hnd e List.mem_cons_self pool hpool hcurrent

theorem path_addNewMember {pod : Option String} {changed : Bool}
    (h : MemberLoop c₀ (e :: rest) c) :
    Path env c (addNewMember env (directory c₀) e.1 pod e.2 changed) (LoopExit (MemberLoop c₀ rest)) := by
  have hstay : ∀ w : World, w.crd = c → MemberLoop c₀ rest w.crd := fun w hw => hw ▸ h.tail
  unfold addNewMember
  cases hpool : (directory c₀).pools.lookup e.2.name with
  | none => exact Moves.pure hstay
  | some pool =>
    simp only
    split
    · exact Moves.pure hstay
    · rename_i hcurrent
      refine path_getSubnetByOctaviaMode.keep fun subnet _ => ?_
      cases subnet with
      | none => exact Moves.pure hstay
      | some subnet =>
        refine path_getTargetInfo.keep fun info _ => ?_
        refine path_getStatus.keep fun st _ => ?_
        split
        · -- the pool was found through its listener
          rename_i hlookup
          obtain ⟨_, l, hl, _⟩ := lookup_directory hpool
          exact absurd (hl.symm.trans hlookup.2) (by simp)
        · exact path_ensureMember h hpool hcurrent rfl

theorem path_addEndpoint {ports : List SlicePort} {ep : Endpoint} {changed : Bool}
    (h : MemberLoop c₀ (ports.map (fun p => (ep, p)) ++ rest) c) :
    Path env c (addEndpoint env (directory c₀) ports ep changed) (LoopExit (MemberLoop c₀ rest)) := by
  have hstay : ∀ w : World, w.crd = c → MemberLoop c₀ rest w.crd :=
    fun w hw => hw ▸ h.sublist (List.sublist_append_right _ _)
  unfold addEndpoint
  split
  · exact Moves.pure hstay
  · refine path_targetPod.keep fun pod _ => ?_
    split
    · exact Moves.pure hstay
    · exact path_sweep
        (I := fun ports => MemberLoop c₀ (ports.map (fun p => (ep, p)) ++ rest))
        (fun p ps changed c h => path_addNewMember (e := (ep, p)) h) h

theorem path_addSlice {s : Slice} {changed : Bool}
    (h : MemberLoop c₀
      (s.endpoints.flatMap (fun ep => s.ports.map fun p => (ep, p)) ++ rest) c) :
    Path env c (addSlice env (directory c₀) s changed) (LoopExit (MemberLoop c₀ rest)) := by
  refine path_sweep (I := fun eps =>
    MemberLoop c₀ (eps.flatMap (fun ep => s.ports.map fun p => (ep, p)) ++ rest)) ?_ h
  intro ep eps changed c h
  rw [List.flatMap_cons, List.append_assoc] at h
  exact path_addEndpoint h

end MemberLoop

theorem path_addMembersOfSlices (hip : c.AtSpecIp) :
    Path env c (addMembersOfSlices env) fun _ w => w.crd.AtSpecIp := by
  refine Moves.get_bind fun s hs => ?_
  subst hs
  refine Moves.pre (F := fun w => w.crd = s.crd) ?_ fun w hw => by rw [hw]
  simp only
  split
  · have hstart : MemberLoop s.crd s.crd.spec.entries s.crd :=
      ⟨hip, rfl, rfl, fun hd => hd, fun _ _ _ _ _ _ hcurrent => hcurrent⟩
    exact path_sweep_getD (I := fun slices => MemberLoop s.crd (entriesOf slices))
      (fun _ _ _ _ h => path_addSlice h) (fun _ h => h.atSpecIp) hstart
  · rename_i hlinked
    exact Moves.throw fun w hw => ⟨rfl, rfl, fun _ => hw ▸ hlinked⟩

theorem path_syncLbaasSgs (hip : c.AtSpecIp) :
    Path env c (syncLbaasSgs env) fun _ w => w.crd.AtSpecIp := by
  refine path_read.keep fun sgs _ => ?_
  cases sgs with
  | none => exact Moves.pure fun w hw => hw ▸ hip
  | some sgs =>
    refine Path.update (fun w hw => .single (hw ▸ .setSecurityGroups sgs)) ?_
    exact path_patchSecurityGroups.post fun _ w hw => hw.1 ▸ hip.setSecurityGroups sgs

theorem path_addNewMembers (hip : c.AtSpecIp) :
    Path env c (addNewMembers env) fun _ w => w.crd.AtSpecIp := by
  have hend : ∀ synced : Bool, ∀ c' : Crd, c'.AtSpecIp →
      Path env c' (if synced then addMembersOfSlices env else return false)
        fun _ w => w.crd.AtSpecIp := by
    intro synced c' hip'
    cases synced with
    | true => exact path_addMembersOfSlices hip'
    | false => exact Moves.pure fun w hw => hw ▸ hip'
  refine path_getStatus.keep fun st _ => ?_
  simp only [pure_bind]
  split
  · exact (path_syncLbaasSgs hip).bind fun synced c' ⟨w, hw, hw'⟩ => hend synced c' (hw ▸ hw')
  · exact hend true c hip

/-! ## Paths of a pass and of an event -/

theorem path_syncLbaasListeners :
    Path env c (syncLbaasListeners env) fun _ w => w.crd.AtSpecIp := by
  refine path_removeUnusedListeners.bind fun _ c' _ => ?_
  refine path_syncLbaasLoadbalancer.bind fun _ c' ⟨w, hw, hip⟩ => ?_
  refine (path_addNewListeners (hw ▸ hip)).bind fun _ c' ⟨w, hw, hip⟩ => ?_
  exact Moves.pure fun w' hw' => hw'.trans hw.symm ▸ hip

theorem path_syncLbaasPools : Path env c (syncLbaasPools env) fun _ w => w.crd.AtSpecIp := by
  refine path_removeUnusedPools.bind fun _ c' _ => ?_
  refine path_syncLbaasListeners.bind fun _ c' ⟨w, hw, hip⟩ => ?_
  refine (path_addNewPools (hw ▸ hip)).bind fun _ c' ⟨w, hw, hip⟩ => ?_
  exact Moves.pure fun w' hw' => hw'.trans hw.symm ▸ hip

/-- **A pass is a path of moves**, and ends with the load balancer at the address of
the spec unless it raises. -/
theorem path_syncLbaasMembers : Path env c (syncLbaasMembers env) fun _ w => w.crd.AtSpecIp := by
  refine path_removeUnusedMembers.bind fun _ c' _ => ?_
  refine path_syncLbaasPools.bind fun _ c' ⟨w, hw, hip⟩ => ?_
  rw [hw] at hip
  refine Moves.get_bind fun s hs => ?_
  subst hs
  refine Moves.pre (F := fun w => w.crd = s.crd) ?_ fun w hw => by rw [hw]
  simp only [pure_bind]
  split
  · refine (path_addNewMembers hip).bind fun _ c' ⟨w, hw, hip⟩ => ?_
    exact Moves.pure fun w' hw' => hw'.trans hw.symm ▸ hip
  · exact Moves.pure fun w' hw' => hw' ▸ hip

theorem path_checkProvider : Path env c (checkProvider env) fun _ w => w.crd = c ∧ True := by
  refine Moves.get_bind fun s hs => ?_
  subst hs
  refine Moves.pre (F := fun w => w.crd = s.crd) ?_ fun w hw => by rw [hw]
  simp only
  split
  · exact Moves.pure fun w hw => ⟨hw, trivial⟩
  · split
    · refine Path.keep (path_call fun b h => by cases h) fun _ _ => ?_
      exact Moves.post (path_call fun b h => by cases h) fun _ _ h => ⟨h.1, trivial⟩
    · exact Moves.pure fun w hw => ⟨hw, trivial⟩

theorem path_acquirePubIp (hip : c.AtSpecIp) :
    Path env c (acquirePubIp env) fun _ _ => True := by
  refine Moves.get_bind fun s hs => ?_
  subst hs
  refine Moves.pre (F := fun w => w.crd = s.crd) ?_ fun w hw => by rw [hw]
  simp only
  split
  · refine path_theBalancer.keep fun lb _ => ?_
    refine Path.keep (path_call fun b h => by cases h) fun info _ => ?_
    cases info with
    | none => exact Moves.pure fun _ _ => trivial
    | some info =>
      refine path_publicIp.keep fun _ _ => ?_
      refine Path.update (fun w hw => .single ?_) ?_
      · rw [← hw] at hip ⊢
        exact .setPubIp info hip
      · refine path_publicIp.keep fun _ _ => ?_
        exact path_patchStatus.keep fun _ _ => Moves.pure fun _ _ => trivial
  · exact Moves.pure fun _ _ => trivial

/-- **An event is a path of moves.** -/
theorem path_syncPresent : Path env c (syncPresent env) fun _ _ => True := by
  refine Moves.get_bind fun s hs => ?_
  subst hs
  refine Moves.pre (F := fun w => w.crd = s.crd) ?_ fun w hw => by rw [hw]
  simp only
  split
  · exact Moves.pure fun _ _ => trivial
  · refine path_checkProvider.keep fun _ _ => ?_
    refine path_syncLbaasMembers.bind fun changed c' ⟨w, hw, hip⟩ => ?_
    cases changed with
    | true => exact path_acquirePubIp (hw ▸ hip)
    | false => exact Moves.pure fun _ _ => trivial

end LoadBalancer

end KuryrKubernetes
