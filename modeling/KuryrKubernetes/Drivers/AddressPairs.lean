import Mathlib.Data.List.Count
import Mathlib.Data.List.Nodup
import KuryrKubernetes.Lib.Transition
import KuryrKubernetes.Lib.Versions

/-!
# Allowed address pairs of a VM port

`NestedMacvlanPodVIFDriver` (`controller/drivers/nested_macvlan_vif.py`) writes the addresses
of every container on a VM into the `allowed_address_pairs` of the VM's port. It reads the
port, and writes the list back under the revision it has read, a few times if Neutron
refuses.

- `Addressing`: the addresses of the container ports. Neutron gives no two of them the same.
- `Pc`: where the call for a container stands. A container has one call at a time; calls for
  different containers run in any order, in any number of processes.
- `Answer`: what becomes of an update. One that fails may have taken effect.
- `Careful`: the steps that do not end `request_vif` while the port of the container exists.
- `Law`: what is said of successful and of failed calls; `CallOk` is the invariant behind it.

The lock of the driver is held during one update, which is one step here. The constructor of
the driver does not call those of its base classes; without the attributes they set every
call raises before its first update, in `_get_port_request` or `_get_parent_port`.

`request_vif` deletes nothing when it raises, so a refusal of the last attempt leaves the
container port behind (`request_vif_leaves_port`).
-/

namespace KuryrKubernetes

namespace AddressPairs

open Transition Versions

/-! ## Neutron -/

abbrev ContainerId := String

structure Pair where
  ip : String
  mac : String
deriving DecidableEq, Repr

/-- The fixed IPs, in the order in which the set of them is iterated over, and the MAC
address of every container port. -/
structure Addressing where
  ips : ContainerId → List String
  mac : ContainerId → String
  nodup : ∀ c, (ips c).Nodup
  distinct : ∀ c d, c ≠ d → ∀ ip ∈ ips c, ip ∈ ips d → mac c ≠ mac d

def Addressing.pairs (A : Addressing) (c : ContainerId) : List Pair :=
  (A.ips c).map fun ip => ⟨ip, A.mac c⟩

abbrev PairSnapshot := Snapshot (List Pair)

/-! ## The calls -/

/-- The calls of `request_vif` and `release_vif`, by the request that is next; with the
attempts that are left and the VM port that was read. `finding` says whether the container
port has been created. -/
inductive Pc where
  | absent
  | finding (attempts : Nat) (created : Bool)
  | creating (attempts : Nat) (vmPort : PairSnapshot)
  | tagging (attempts : Nat) (vmPort : PairSnapshot)
  | adding (attempts : Nat) (vmPort : PairSnapshot)
  | converting
  | requested
  | requestRaised
  | getting (attempts : Nat)
  | locating (attempts : Nat)
  | removing (attempts : Nat) (vmPort : PairSnapshot)
  | deleting
  | released
  | releaseRaised
deriving DecidableEq, Repr

inductive Kind where
  | add | remove
deriving DecidableEq, Repr

/-- An update that took effect, with the list of the VM port before and after it. -/
structure Update where
  kind : Kind
  container : ContainerId
  before : List Pair
  after : List Pair
deriving DecidableEq, Repr

structure State where
  vmPort : History (List Pair)
  ports : List ContainerId
  pc : ContainerId → Pc
  updates : List Update

/-- An answer to an update: success, an `SDKException`, or another exception. `effect` says
whether an update that failed was carried out all the same. -/
inductive Answer where
  | success
  | sdk (effect : Bool)
  | other (effect : Bool)
deriving DecidableEq, Repr

def Answer.effect : Answer → Bool
  | .success => true
  | .sdk effect | .other effect => effect

/-- The creation of the container port with `_check_port_binding`. `unbound` says whether the
port, which could not be bound, was deleted. A port that is `lost` is there, but its answer did
not arrive. -/
inductive Creation where
  | bound
  | unbound (deleted : Bool)
  | refused
  | lost
deriving DecidableEq, Repr

inductive Deletion where
  | deleted | refused
deriving DecidableEq, Repr

/-- The steps. A `Bool` says whether a request was answered. `touch` is another change of the
VM port, which leaves the pairs as they are. -/
inductive Action where
  | touch
  | request (c : ContainerId) (ok : Bool)
  | find (c : ContainerId) (ok : Bool)
  | create (c : ContainerId) (answer : Creation)
  /-- `tag_neutron_resources`, which ignores an `SDKException`; `ok` when nothing else is
  raised, or when ports are tagged on creation. -/
  | tag (c : ContainerId) (ok : Bool)
  | add (c : ContainerId) (answer : Answer)
  | convert (c : ContainerId) (ok : Bool)
  | release (c : ContainerId)
  | get (c : ContainerId) (ok : Bool)
  | locate (c : ContainerId) (ok : Bool)
  | remove (c : ContainerId) (answer : Answer)
  | delete (c : ContainerId) (answer : Deletion)
deriving DecidableEq, Repr

def State.goto (s : State) (c : ContainerId) (pc : Pc) : State :=
  { s with pc := Function.update s.pc c pc }

/-- An update of the VM port is carried out. -/
def State.update (s : State) (kind : Kind) (c : ContainerId) (pairs : List Pair) : State :=
  { s with
    vmPort := s.vmPort.write pairs
    updates := s.updates ++ [⟨kind, c, s.vmPort.current, pairs⟩] }

/-- `update_port` with `if_revision`: Neutron carries out no update of an older revision. -/
def State.tryUpdate (s : State) (kind : Kind) (c : ContainerId) (vmPort : PairSnapshot)
    (pairs : List Pair) (answer : Answer) : Option State :=
  if !answer.effect then some s
  else if vmPort.version = s.vmPort.latest then some (s.update kind c pairs)
  else none

/-- The next attempt after an `SDKException`, or its exception. -/
def retry (attempts : Nat) (again : Nat → Pc) (raised : Pc) : Pc :=
  if attempts ≤ 1 then raised else again (attempts - 1)

/-- `_add_to_allowed_address_pairs` in `request_vif`. The comparison of MAC addresses by `is`
is never true: the two texts come from different responses. -/
def State.add (A : Addressing) (s : State) (c : ContainerId) (attempts : Nat)
    (vmPort : PairSnapshot)
    (answer : Answer) : Option State :=
  if A.ips c = [] then some (s.goto c .requestRaised)
  else
    (s.tryUpdate .add c vmPort (vmPort.value ++ A.pairs c) answer).map fun s =>
      s.goto c (match answer with
        | .success => .converting
        | .sdk _ => retry attempts (.finding · true) .requestRaised
        | .other _ => .requestRaised)

/-- `_remove_from_allowed_address_pairs` in `release_vif`. -/
def State.remove (A : Addressing) (s : State) (c : ContainerId) (attempts : Nat)
    (vmPort : PairSnapshot) (answer : Answer) : Option State :=
  if A.ips c = [] then some (s.goto c .releaseRaised)
  else if ∀ p ∈ A.pairs c, p ∉ vmPort.value then some (s.goto c .deleting)
  else
    (s.tryUpdate .remove c vmPort (vmPort.value.diff (A.pairs c)) answer).map fun s =>
      s.goto c (match answer with
        | .success => .deleting
        | .sdk _ => retry attempts .getting .releaseRaised
        | .other _ => .releaseRaised)

/-- `attempts` is `rev_update_attempts`. Without an attempt `request_vif` converts no port,
which raises. -/
def step (A : Addressing) (attempts : Nat) (s : State) : Action → Option State
  | .touch => some { s with vmPort := s.vmPort.write s.vmPort.current }
  | .request c ok =>
    match s.pc c with
    | .absent =>
      some (s.goto c (if ok && 0 < attempts then .finding attempts false else .requestRaised))
    | _ => none
  | .find c ok =>
    match s.pc c with
    | .finding left created =>
      some (s.goto c (
        if !ok then .requestRaised
        else if created then .tagging left s.vmPort.snapshot
        else .creating left s.vmPort.snapshot))
    | _ => none
  | .create c answer =>
    match s.pc c, answer with
    | .creating left vmPort, .bound =>
      some ({ s with ports := c :: s.ports }.goto c (.tagging left vmPort))
    | .creating _ _, .unbound true | .creating _ _, .refused => some (s.goto c .requestRaised)
    | .creating _ _, .unbound false | .creating _ _, .lost =>
      some ({ s with ports := c :: s.ports }.goto c .requestRaised)
    | _, _ => none
  | .tag c ok =>
    match s.pc c with
    | .tagging left vmPort => some (s.goto c (if ok then .adding left vmPort else .requestRaised))
    | _ => none
  | .add c answer =>
    match s.pc c with
    | .adding left vmPort => s.add A c left vmPort answer
    | _ => none
  | .convert c ok =>
    match s.pc c with
    | .converting => some (s.goto c (if ok then .requested else .requestRaised))
    | _ => none
  | .release c =>
    match s.pc c with
    | .requested | .released | .releaseRaised =>
      some (s.goto c (if 0 < attempts then .getting attempts else .deleting))
    | _ => none
  | .get c ok =>
    match s.pc c with
    | .getting left =>
      some (s.goto c (if ok && c ∈ s.ports then .locating left else .releaseRaised))
    | _ => none
  | .locate c ok =>
    match s.pc c with
    | .locating left =>
      some (s.goto c (if ok then .removing left s.vmPort.snapshot else .releaseRaised))
    | _ => none
  | .remove c answer =>
    match s.pc c with
    | .removing left vmPort => s.remove A c left vmPort answer
    | _ => none
  | .delete c answer =>
    match s.pc c, answer with
    -- a port that is gone already is only logged
    | .deleting, .deleted => some ({ s with ports := s.ports.filter (· ≠ c) }.goto c .released)
    | .deleting, .refused => some (s.goto c .releaseRaised)
    | _, _ => none

/-- The list of the VM port has what it may have from elsewhere. -/
def macvlanSystem (A : Addressing) (attempts : Nat) : System State Action where
  init s := (∀ c, s.pc c = .absent) ∧ s.ports = [] ∧ s.updates = [] ∧
    ∀ c, ∀ p ∈ A.pairs c, p ∉ s.vmPort.current
  step s a s' := step A attempts s a = some s'

/-! ## What the calls are to do -/

/-- An update changes the pairs of its container and no others. -/
structure Exact (A : Addressing) (u : Update) : Prop where
  own : ∀ p ∈ A.pairs u.container,
    match u.kind with
    | .add => u.before.count p = 0 ∧ u.after.count p = 1
    | .remove => u.before.count p ≤ 1 ∧ u.after.count p = 0
  others : ∀ p ∉ A.pairs u.container, u.after.count p = u.before.count p

def State.adds (s : State) (c : ContainerId) : Nat :=
  s.updates.countP fun u => u.container = c ∧ u.kind = .add

/-- What holds of every call, whatever the order of the steps. -/
structure Law (A : Addressing) (s : State) : Prop where
  exact : ∀ u ∈ s.updates, Exact A u
  added : ∀ c, s.pc c = .requested →
    s.adds c = 1 ∧ ∀ p ∈ A.pairs c, s.vmPort.current.count p = 1
  removed : ∀ c, s.pc c = .released → ∀ p ∈ A.pairs c, p ∉ s.vmPort.current
  raised : ∀ c, s.pc c = .requestRaised → (∀ p ∈ A.pairs c, p ∉ s.vmPort.current) ∧ c ∉ s.ports

/-- The attempts that are left for an update. -/
def Pc.attempts : Pc → Nat
  | .adding left _ => left
  | _ => 0

/-- `request_vif` looks for the VM port again, and has created the container port. -/
def Pc.created : Pc → Bool
  | .finding _ created => created
  | _ => false

/-- The steps on which `request_vif` does not raise while the container port exists: the answer
to its creation arrives, the requests between the creation and the update are answered, an update is refused only while
there is another attempt, and it has not been carried out then. `release_vif` needs an
attempt. -/
def Careful (A : Addressing) (attempts : Nat) (s : State) : Action → Prop
  | .find c ok => ok = true ∨ (s.pc c).created = false
  | .create _ answer => answer ≠ .unbound false ∧ answer ≠ .lost
  | .tag _ ok => ok = true
  | .add c answer => A.ips c ≠ [] ∧
    (answer = .success ∨ answer = .sdk false ∧ 1 < (s.pc c).attempts)
  | .convert _ ok => ok = true
  | .release _ => 0 < attempts
  | _ => True

instance (A : Addressing) (attempts : Nat) (s : State) (a : Action) :
    Decidable (Careful A attempts s a) :=
  match a with
  | .find _ _ => inferInstanceAs (Decidable (_ ∨ _))
  | .create _ _ => inferInstanceAs (Decidable (_ ≠ _ ∧ _ ≠ _))
  | .add _ _ => inferInstanceAs (Decidable (_ ≠ _ ∧ (_ ∨ _ ∧ _)))
  | .tag _ _ | .convert _ _ => inferInstanceAs (Decidable (_ = _))
  | .release _ => inferInstanceAs (Decidable (_ < _))
  | .touch | .request _ _ | .get _ _ | .locate _ _ | .remove _ _ | .delete _ _ =>
    inferInstanceAs (Decidable True)

/-! ## The invariant -/

/-- How often the VM port has each pair of a container. -/
def Pc.Counts : Pc → Nat → Prop
  | .converting, n | .requested, n => n = 1
  | .getting _, n | .locating _, n | .removing _ _, n | .releaseRaised, n => n ≤ 1
  | _, n => n = 0

def Pc.Portless : Pc → Prop
  | .absent | .finding _ false | .creating _ _ | .requestRaised => True
  | _ => False

def Pc.Adds : Pc → Nat → Prop
  | .absent, n | .finding _ _, n | .creating _ _, n | .tagging _ _, n | .adding _ _, n => n = 0
  | .converting, n | .requested, n => n = 1
  | _, _ => True

def Pc.vmPort : Pc → Option PairSnapshot
  | .creating _ v | .tagging _ v | .adding _ v | .removing _ v => some v
  | _ => none

/-- The call for a container, where it stands. -/
structure CallOk (A : Addressing) (s : State) (c : ContainerId) (pc : Pc) : Prop where
  count : ∀ p ∈ A.pairs c, pc.Counts (s.vmPort.current.count p)
  port : pc.Portless → c ∉ s.ports
  adds : pc.Adds (s.adds c)
  read : ∀ v, pc.vmPort = some v → s.vmPort.Genuine v
  /-- Since the read nobody else has changed these pairs. -/
  same : ∀ v, pc.vmPort = some v → ∀ p ∈ A.pairs c, v.value.count p = s.vmPort.current.count p

structure Sound (A : Addressing) (s : State) : Prop where
  calls : ∀ c, CallOk A s c (s.pc c)
  updates : ∀ u ∈ s.updates, Exact A u

section

variable {A : Addressing} {s s' : State} {c : ContainerId} {pc : Pc}

theorem notMem_pairs {d : ContainerId} (hne : d ≠ c) {p : Pair} (hp : p ∈ A.pairs d) :
    p ∉ A.pairs c := by
  intro hp'
  obtain ⟨ip, hip, rfl⟩ := List.mem_map.mp hp
  obtain ⟨ip', hip', heq⟩ := List.mem_map.mp hp'
  simp only [Pair.mk.injEq] at heq
  obtain ⟨rfl, hmac⟩ := heq
  exact A.distinct d c hne ip' hip hip' hmac.symm

theorem nodup_pairs (A : Addressing) (c : ContainerId) : (A.pairs c).Nodup :=
  List.Nodup.map (fun _ _ h => (Pair.mk.inj h).1) (A.nodup c)

/-- The others are as they were. -/
theorem CallOk.frame (h : CallOk A s c pc)
    (hcount : ∀ p ∈ A.pairs c, s'.vmPort.current.count p = s.vmPort.current.count p)
    (hports : c ∈ s'.ports → c ∈ s.ports) (hadds : s'.adds c = s.adds c)
    (hread : ∀ v, s.vmPort.Genuine v → s'.vmPort.Genuine v) : CallOk A s' c pc where
  count := fun p hp => by rw [hcount p hp]; exact h.count p hp
  port := fun hpc hmem => h.port hpc (hports hmem)
  adds := by rw [hadds]; exact h.adds
  read := fun v hv => hread v (h.read v hv)
  same := fun v hv p hp => by rw [hcount p hp]; exact h.same v hv p hp

/-- Where other calls stand does not matter to a call. -/
theorem CallOk.goto (h : CallOk A s c pc) (d : ContainerId) (pc' : Pc) :
    CallOk A (s.goto d pc') c pc :=
  ⟨h.count, h.port, h.adds, h.read, h.same⟩

theorem Sound.goto (h : Sound A s) (hc : CallOk A s c pc) : Sound A (s.goto c pc) where
  calls := by
    intro d
    show CallOk A (s.goto c pc) d (Function.update s.pc c pc d)
    by_cases hd : d = c
    · rw [hd, Function.update_self]
      exact hc.goto c pc
    · rw [Function.update_of_ne hd]
      exact (h.calls d).goto c pc
  updates := h.updates

/-- A step of one call, which changes nothing for the others. -/
theorem Sound.of_frame (h : Sound A s) (hpc : s'.pc = s.pc)
    (hcount : ∀ d ≠ c, ∀ p ∈ A.pairs d, s'.vmPort.current.count p = s.vmPort.current.count p)
    (hports : ∀ d ≠ c, d ∈ s'.ports → d ∈ s.ports) (hadds : ∀ d ≠ c, s'.adds d = s.adds d)
    (hread : ∀ v, s.vmPort.Genuine v → s'.vmPort.Genuine v)
    (hupdates : ∀ u ∈ s'.updates, Exact A u) (hc : CallOk A s' c pc) : Sound A (s'.goto c pc) where
  calls := by
    intro d
    show CallOk A (s'.goto c pc) d (Function.update s'.pc c pc d)
    by_cases hd : d = c
    · rw [hd, Function.update_self]
      exact hc.goto c pc
    · rw [Function.update_of_ne hd, hpc]
      exact ((h.calls d).frame (hcount d hd) (hports d hd) (hadds d hd) hread).goto c pc
  updates := hupdates

theorem adds_update (s : State) (kind : Kind) (c d : ContainerId) (pairs : List Pair) :
    (s.update kind c pairs).adds d = s.adds d + if c = d ∧ kind = .add then 1 else 0 := by
  simp only [State.adds, State.update, List.countP_append, List.countP_singleton, decide_eq_true_eq]

/-- **An update that is exact** leaves the other calls alone. -/
theorem Sound.update (h : Sound A s) {kind : Kind} {pairs : List Pair}
    (hexact : Exact A ⟨kind, c, s.vmPort.current, pairs⟩)
    (hc : CallOk A (s.update kind c pairs) c pc) :
    Sound A ((s.update kind c pairs).goto c pc) := by
  refine h.of_frame rfl (fun d hd p hp => ?_) (fun d hd => id) (fun d hd => ?_)
    (fun v hv => hv.write pairs) (fun u hu => ?_) hc
  · show (s.vmPort.write pairs).current.count p = _
    rw [History.current_write]
    exact hexact.others p (notMem_pairs hd hp)
  -- the update is counted for `c` only
  · rw [adds_update, if_neg fun heq => hd heq.1.symm]
    rfl
  · rcases List.mem_append.mp hu with hold | hnew
    · exact h.updates u hold
    · rw [List.mem_singleton.mp hnew]
      exact hexact

/-! ## The updates -/

theorem exact_add (h : ∀ p ∈ A.pairs c, s.vmPort.current.count p = 0) :
    Exact A ⟨.add, c, s.vmPort.current, s.vmPort.current ++ A.pairs c⟩ where
  own := by
    intro p hp
    -- absent before, once in what is added
    have hone := List.count_eq_one_of_mem (nodup_pairs A c) hp
    refine ⟨h p hp, ?_⟩
    show (s.vmPort.current ++ A.pairs c).count p = 1
    rw [List.count_append, h p hp, hone]
  others := by
    intro p hp
    show (s.vmPort.current ++ A.pairs c).count p = _
    rw [List.count_append, List.count_eq_zero_of_not_mem hp, Nat.add_zero]

theorem exact_remove (h : ∀ p ∈ A.pairs c, s.vmPort.current.count p ≤ 1) :
    Exact A ⟨.remove, c, s.vmPort.current, s.vmPort.current.diff (A.pairs c)⟩ where
  own := by
    intro p hp
    have hone := List.count_eq_one_of_mem (nodup_pairs A c) hp
    have hle := h p hp
    refine ⟨hle, ?_⟩
    show (s.vmPort.current.diff (A.pairs c)).count p = 0
    rw [List.count_diff, hone]
    omega
  others := by
    intro p hp
    show (s.vmPort.current.diff (A.pairs c)).count p = _
    rw [List.count_diff, List.count_eq_zero_of_not_mem hp, Nat.sub_zero]

/-- Neutron carries out an update of the list it has. -/
theorem tryUpdate_effect {kind : Kind} {v : PairSnapshot} {answer : Answer}
    {f : List Pair → List Pair}
    (hv : s.vmPort.Genuine v) (heffect : answer.effect = true)
    (h : s.tryUpdate kind c v (f v.value) answer = some s') :
    s' = s.update kind c (f s.vmPort.current) := by
  unfold State.tryUpdate at h
  rw [heffect] at h
  simp only [Bool.not_true, Bool.false_eq_true, if_false] at h
  split at h
  · next hversion =>
    -- an equal revision means an equal list
    rw [hv.eq_current hversion] at h
    exact (Option.some.inj h).symm
  · cases h

theorem tryUpdate_noEffect {kind : Kind} {v : PairSnapshot} {answer : Answer} {pairs : List Pair}
    (heffect : answer.effect = false) (h : s.tryUpdate kind c v pairs answer = some s') :
      s' = s := by
  unfold State.tryUpdate at h
  rw [heffect] at h
  exact (Option.some.inj h).symm

/-! ## The steps -/

variable {left attempts : Nat} {v : PairSnapshot}

attribute [local simp] step

/-- `request_vif` updates the VM port. -/
theorem Sound.add (h : Sound A s) (hpc : s.pc c = .adding left v) {answer : Answer}
    (hok : Careful A attempts s (.add c answer)) (hstep : s.add A c left v answer = some s') :
    Sound A s' := by
  obtain ⟨hips, hanswer⟩ := hok
  have hc := h.calls c
  rw [hpc] at hc
  unfold State.add at hstep
  rw [if_neg hips] at hstep
  obtain ⟨s₁, htry, rfl⟩ := Option.map_eq_some_iff.mp hstep
  rcases hanswer with rfl | ⟨rfl, hleft⟩
  · rw [tryUpdate_effect (f := (· ++ A.pairs c)) (hc.read v rfl) rfl htry]
    have hexact := exact_add hc.count
    refine h.update hexact ⟨fun p hp => ?_, nofun, ?_, nofun, nofun⟩
    · show (s.vmPort.write _).current.count p = 1
      rw [History.current_write]
      exact (hexact.own p hp).2
    · show (s.update .add c _).adds c = 1
      have hnone : s.adds c = 0 := hc.adds
      rw [adds_update, if_pos ⟨rfl, rfl⟩, hnone]
  · -- refused, with another attempt
    rw [tryUpdate_noEffect rfl htry]
    rw [hpc] at hleft
    have hleft : 1 < left := hleft
    have hretry : retry left (.finding · true) .requestRaised = .finding (left - 1) true :=
      if_neg (by omega)
    simp only [hretry]
    exact h.goto ⟨hc.count, nofun, hc.adds, nofun, nofun⟩

/-- A release goes on from here with its pairs at most once. -/
theorem CallOk.releasing (h : CallOk A s c pc) (hpc : ∀ n, pc.Counts n → n ≤ 1) {pc' : Pc}
    (hpc' : pc' = .releaseRaised ∨ ∃ left, pc' = .getting left ∨ pc' = .locating left) :
    CallOk A s c pc' := by
  have hle : ∀ p ∈ A.pairs c, s.vmPort.current.count p ≤ 1 := fun p hp => hpc _ (h.count p hp)
  rcases hpc' with rfl | ⟨left, rfl | rfl⟩
  · exact ⟨hle, nofun, trivial, nofun, nofun⟩
  · exact ⟨hle, nofun, trivial, nofun, nofun⟩
  · exact ⟨hle, nofun, trivial, nofun, nofun⟩

theorem retry_releasing (left : Nat) :
    retry left .getting .releaseRaised = .releaseRaised ∨
      ∃ left', retry left .getting .releaseRaised = .getting left' ∨
        retry left .getting .releaseRaised = .locating left' := by
  unfold retry
  split
  · exact .inl rfl
  · exact .inr ⟨_, .inl rfl⟩

/-- `release_vif` updates the VM port, unless it finds no pair of its container. -/
theorem Sound.remove (h : Sound A s) (hpc : s.pc c = .removing left v) {answer : Answer}
    (hstep : s.remove A c left v answer = some s') : Sound A s' := by
  have hc := h.calls c
  rw [hpc] at hc
  unfold State.remove at hstep
  split at hstep
  · cases hstep
    exact h.goto (hc.releasing (fun _ hn => hn) (.inl rfl))
  split at hstep
  -- nothing to remove: what was read is still the list of the VM port
  · next hnone =>
    cases hstep
    refine h.goto ⟨fun p hp => ?_, nofun, trivial, nofun, nofun⟩
    show s.vmPort.current.count p = 0
    rw [← hc.same v rfl p hp]
    exact List.count_eq_zero_of_not_mem (hnone p hp)
  obtain ⟨s₁, htry, rfl⟩ := Option.map_eq_some_iff.mp hstep
  cases heffect : answer.effect with
  | false =>
    rw [tryUpdate_noEffect heffect htry]
    cases answer with
    | success => cases heffect
    | sdk effect => exact h.goto (hc.releasing (fun _ hn => hn) (retry_releasing left))
    | other effect => exact h.goto (hc.releasing (fun _ hn => hn) (.inl rfl))
  | true =>
    rw [tryUpdate_effect (f := (·.diff (A.pairs c))) (hc.read v rfl) heffect htry]
    have hexact := exact_remove hc.count
    have hdeleting : CallOk A
      (s.update .remove c (s.vmPort.current.diff (A.pairs c))) c .deleting := by
      refine ⟨fun p hp => ?_, nofun, trivial, nofun, nofun⟩
      show (s.vmPort.write _).current.count p = 0
      rw [History.current_write]
      exact (hexact.own p hp).2
    -- whatever the answer says, the pairs are gone
    have hzero : ∀ n, Pc.deleting.Counts n → n ≤ 1 :=
      fun n hn => Nat.le_trans (Nat.le_of_eq hn) (Nat.zero_le 1)
    cases answer with
    | success => exact h.update hexact hdeleting
    | sdk effect => exact h.update hexact (hdeleting.releasing hzero (retry_releasing left))
    | other effect => exact h.update hexact (hdeleting.releasing hzero (.inl rfl))

/-- The VM port is read. -/
theorem CallOk.reads (h : CallOk A s c pc) {pc' : Pc} (hcounts : ∀ n, pc.Counts n → pc'.Counts n)
    (hport : pc'.Portless → pc.Portless) (hadds : ∀ n, pc.Adds n → pc'.Adds n)
    (hread : ∀ v, pc'.vmPort = some v → v = s.vmPort.snapshot) : CallOk A s c pc' where
  count := fun p hp => hcounts _ (h.count p hp)
  port := fun hpc' => h.port (hport hpc')
  adds := hadds _ h.adds
  read := by
    intro v hv
    rw [hread v hv]
    exact s.vmPort.genuine_snapshot
  same := by
    intro v hv p hp
    rw [hread v hv]
    rfl

/-- `request_vif` starts. -/
theorem Sound.request {ok : Bool} (h : Sound A s)
    (hstep : step A attempts s (.request c ok) = some s') : Sound A s' := by
  have hc := h.calls c
  simp only [step] at hstep
  split at hstep
  · next hpc =>
    cases hstep
    rw [hpc] at hc
    refine h.goto ?_
    split
    · exact hc.reads (fun _ => id) (fun _ => trivial) (fun _ => id) nofun
    · exact hc.reads (fun _ => id) (fun _ => trivial) (fun _ _ => trivial) nofun
  · cases hstep

/-- The lookup of the VM port, before the port of the container is there and after. -/
theorem Sound.find {ok : Bool} (h : Sound A s) (hok : Careful A attempts s (.find c ok))
    (hstep : step A attempts s (.find c ok) = some s') : Sound A s' := by
  have hc := h.calls c
  simp only [step] at hstep
  split at hstep
  · next left created hpc =>
    cases hstep
    rw [hpc] at hc
    refine h.goto ?_
    cases created with
    | false =>
      cases ok with
      | false => exact hc.reads (fun _ => id) (fun _ => trivial) (fun _ _ => trivial) nofun
      | true =>
        exact hc.reads (fun _ => id) (fun _ => trivial) (fun _ => id)
          fun v hv => (Option.some.inj hv).symm
    -- the container port exists, so the lookup has to be answered
    | true =>
      have hcreated : ¬ (s.pc c).created = false := by
        rw [hpc]
        nofun
      obtain rfl : ok = true := hok.resolve_right hcreated
      exact hc.reads (fun _ => id) nofun (fun _ => id) fun v hv => (Option.some.inj hv).symm
  · cases hstep

theorem Sound.convert {ok : Bool} (h : Sound A s) (hok : Careful A attempts s (.convert c ok))
    (hstep : step A attempts s (.convert c ok) = some s') : Sound A s' := by
  have hc := h.calls c
  obtain rfl : ok = true := hok
  simp only [step] at hstep
  split at hstep
  · next hpc =>
    cases hstep
    rw [hpc] at hc
    exact h.goto (hc.reads (fun _ => id) nofun (fun _ => id) nofun)
  · cases hstep

/-- The creation of the port. Its lost answer is not careful. -/
theorem Sound.create {answer : Creation} (h : Sound A s)
    (hok : Careful A attempts s (.create c answer))
    (hstep : step A attempts s (.create c answer) = some s') : Sound A s' := by
  have hc := h.calls c
  simp only [step] at hstep
  split at hstep
  -- the new port is that of `c`
  · next left v hpc =>
    cases hstep
    rw [hpc] at hc
    refine h.of_frame rfl (fun _ _ _ _ => rfl) (fun d hd hmem => ?_) (fun _ _ => rfl)
      (fun _ => id) h.updates ⟨hc.count, nofun, hc.adds, hc.read, hc.same⟩
    exact (List.mem_cons.mp hmem).resolve_left hd
  · next hpc =>
    cases hstep
    rw [hpc] at hc
    exact h.goto ⟨hc.count, fun _ => hc.port trivial, trivial, nofun, nofun⟩
  · next hpc =>
    cases hstep
    rw [hpc] at hc
    exact h.goto ⟨hc.count, fun _ => hc.port trivial, trivial, nofun, nofun⟩
  · exact absurd rfl hok.1
  · exact absurd rfl hok.2
  · cases hstep

/-- The port is tagged, or it could not be. -/
theorem Sound.tag {ok : Bool} (h : Sound A s) (hok : Careful A attempts s (.tag c ok))
    (hstep : step A attempts s (.tag c ok) = some s') : Sound A s' := by
  have hc := h.calls c
  obtain rfl : ok = true := hok
  simp only [step] at hstep
  split at hstep
  · next left v hpc =>
    cases hstep
    rw [hpc] at hc
    exact h.goto ⟨hc.count, nofun, hc.adds, hc.read, hc.same⟩
  · cases hstep

/-- `release_vif` starts. -/
theorem Sound.release (h : Sound A s) (hok : Careful A attempts s (.release c))
    (hstep : step A attempts s (.release c) = some s') : Sound A s' := by
  have hc := h.calls c
  have hpos : 0 < attempts := hok
  simp only [step, if_pos hpos] at hstep
  have hget : .getting attempts = Pc.releaseRaised ∨ ∃ left, .getting attempts = Pc.getting left ∨
      Pc.getting attempts = .locating left := .inr ⟨attempts, .inl rfl⟩
  split at hstep
  · next hpc =>
    cases hstep
    rw [hpc] at hc
    exact h.goto (hc.releasing (fun n hn => Nat.le_of_eq hn) hget)
  · next hpc =>
    cases hstep
    rw [hpc] at hc
    exact h.goto (hc.releasing (fun n hn => Nat.le_trans (Nat.le_of_eq hn) (Nat.zero_le 1)) hget)
  · next hpc =>
    cases hstep
    rw [hpc] at hc
    exact h.goto (hc.releasing (fun n hn => hn) hget)
  · cases hstep

theorem Sound.get {ok : Bool} (h : Sound A s)
    (hstep : step A attempts s (.get c ok) = some s') : Sound A s' := by
  have hc := h.calls c
  simp only [step] at hstep
  split at hstep
  · next left hpc =>
    cases hstep
    rw [hpc] at hc
    refine h.goto (hc.releasing (fun n hn => hn) ?_)
    split
    · exact .inr ⟨left, .inr rfl⟩
    · exact .inl rfl
  · cases hstep

theorem Sound.locate {ok : Bool} (h : Sound A s)
    (hstep : step A attempts s (.locate c ok) = some s') : Sound A s' := by
  have hc := h.calls c
  simp only [step] at hstep
  split at hstep
  · next left hpc =>
    cases hstep
    rw [hpc] at hc
    refine h.goto ?_
    split
    · exact hc.reads (fun _ => id) nofun (fun _ => id) fun v hv => (Option.some.inj hv).symm
    · exact hc.releasing (fun n hn => hn) (.inl rfl)
  · cases hstep

/-- The deletion of the port, after its pairs are gone. -/
theorem Sound.delete {answer : Deletion} (h : Sound A s)
    (hstep : step A attempts s (.delete c answer) = some s') : Sound A s' := by
  have hc := h.calls c
  simp only [step] at hstep
  split at hstep
  · next hpc =>
    cases hstep
    rw [hpc] at hc
    refine h.of_frame rfl (fun _ _ _ _ => rfl) (fun d _ hmem => ?_) (fun _ _ => rfl) (fun _ => id)
      h.updates ⟨hc.count, nofun, trivial, nofun, nofun⟩
    exact (List.mem_filter.mp hmem).1
  · next hpc =>
    cases hstep
    rw [hpc] at hc
    exact h.goto (hc.releasing (fun n hn => Nat.le_trans (Nat.le_of_eq hn) (Nat.zero_le 1))
      (.inl rfl))
  · cases hstep

/-- **One step** that is careful. -/
theorem Sound.step {a : Action} (h : Sound A s) (hok : Careful A attempts s a)
    (hstep : AddressPairs.step A attempts s a = some s') : Sound A s' := by
  cases a with
  | touch =>
    cases hstep
    refine ⟨fun d => (h.calls d).frame (fun p _ => ?_) id rfl fun v hv => hv.write _, h.updates⟩
    show (s.vmPort.write _).current.count p = _
    rw [History.current_write]
  | request c ok => exact h.request hstep
  | find c ok => exact h.find hok hstep
  | convert c ok => exact h.convert hok hstep
  | create c answer => exact h.create hok hstep
  | tag c ok => exact h.tag hok hstep
  | add c answer =>
    simp only [AddressPairs.step] at hstep
    split at hstep
    · next left v hpc => exact h.add hpc hok hstep
    · cases hstep
  | release c => exact h.release hok hstep
  | get c ok => exact h.get hstep
  | locate c ok => exact h.locate hstep
  | remove c answer =>
    simp only [AddressPairs.step] at hstep
    split at hstep
    · next left v hpc => exact h.remove hpc hstep
    · cases hstep
  | delete c answer => exact h.delete hstep

theorem sound_of_reach (h : Reach (macvlanSystem A attempts) (Careful A attempts) s) :
    Sound A s := by
  refine h.invariant (fun s hs => ?_) fun s a s' hi hok hs => hi.step hok hs
  obtain ⟨hpc, hports, hupdates, hpairs⟩ := hs
  refine ⟨fun c => ?_, fun u hu => ?_⟩
  · rw [hpc c]
    refine ⟨fun p hp => List.count_eq_zero_of_not_mem (hpairs c p hp), fun _ => ?_, ?_, nofun,
      nofun⟩
    · rw [hports]
      exact List.not_mem_nil
    · show s.adds c = 0
      rw [State.adds, hupdates]
      rfl
  · rw [hupdates] at hu
    cases hu

end

/-- **Address pairs are not lost**, in every run of careful steps. -/
theorem address_pairs_kept {A : Addressing} {attempts : Nat} {s : State}
    (h : Reach (macvlanSystem A attempts) (Careful A attempts) s) : Law A s where
  exact := (sound_of_reach h).updates
  added := by
    intro c hpc
    have hc := (sound_of_reach h).calls c
    rw [hpc] at hc
    exact ⟨hc.adds, hc.count⟩
  removed := by
    intro c hpc p hp
    have hc := (sound_of_reach h).calls c
    rw [hpc] at hc
    exact List.count_eq_zero.mp (hc.count p hp)
  raised := by
    intro c hpc
    have hc := (sound_of_reach h).calls c
    rw [hpc] at hc
    exact ⟨fun p hp => List.count_eq_zero.mp (hc.count p hp), hc.port trivial⟩

/-! ## Runs -/

/-- Every container has one address. -/
def addressing : Addressing where
  ips c := [c]
  mac _ := "fa:16:3e:00:00:01"
  nodup _ := List.nodup_singleton _
  distinct := by
    intro c d hne ip hc hd
    exact absurd ((List.mem_singleton.mp hc).symm.trans (List.mem_singleton.mp hd)) hne

/-- A VM port without pairs. -/
def vm : State := ⟨⟨[[]], by simp⟩, [], fun _ => .absent, []⟩

theorem vm_init (attempts : Nat) : (macvlanSystem addressing attempts).init vm :=
  ⟨fun _ => rfl, rfl, rfl, fun _ _ _ => List.not_mem_nil⟩

/-- Two calls read the same revision, and the second one has to read again. -/
def twoRequests : List Action :=
  [.request "a" true, .request "b" true, .find "a" true, .find "b" true, .create "a" .bound,
    .create "b" .bound, .tag "a" true, .tag "b" true, .add "a" .success, .add "b" (.sdk false),
    .find "b" true, .tag "b" true, .add "b" .success, .convert "a" true, .convert "b" true, .release "a", .get "a" true,
    .locate "a" true, .remove "a" .success, .delete "a" .deleted]

theorem address_pairs_kept_two : ∃ s,
    execute (guarded (Careful addressing 3) (step addressing 3)) vm twoRequests = some s ∧
      s.vmPort.current = [⟨"b", "fa:16:3e:00:00:01"⟩] ∧ Law addressing s := by
  have hsome : (execute
    (guarded (Careful addressing 3) (step addressing 3)) vm twoRequests).isSome := by
    decide +kernel
  obtain ⟨s, hs⟩ := Option.isSome_iff_exists.mp hsome
  have hreach : Reach (macvlanSystem addressing 3) (Careful addressing 3) s :=
    Reach.execute (fun _ _ _ => of_guarded) (.init (vm_init 3)) hs
  have hpairs : (execute (guarded (Careful addressing 3) (step addressing 3)) vm twoRequests).map
      (·.vmPort.current) = some [⟨"b", "fa:16:3e:00:00:01"⟩] := by decide +kernel
  rw [hs] at hpairs
  exact ⟨s, hs, Option.some.inj hpairs, address_pairs_kept hreach⟩

/-- Neutron refuses the update in each of the three attempts. -/
def refusedRequest : List Action :=
  [.request "a" true, .find "a" true, .create "a" .bound, .tag "a" true, .add "a" (.sdk false),
    .find "a" true, .tag "a" true, .add "a" (.sdk false), .find "a" true, .tag "a" true,
    .add "a" (.sdk false)]

/-- `request_vif` raises, and the container port stays. -/
theorem request_vif_leaves_port : ∃ s, Reach (macvlanSystem addressing 3) (fun _ _ => True) s ∧
    s.pc "a" = .requestRaised ∧ s.ports = ["a"] ∧ ¬ Law addressing s := by
  have hsome : (execute (step addressing 3) vm refusedRequest).isSome := by decide +kernel
  obtain ⟨s, hs⟩ := Option.isSome_iff_exists.mp hsome
  have hreach : Reach (macvlanSystem addressing 3) (fun _ _ => True) s :=
    Reach.execute (fun _ _ _ hstep => ⟨trivial, hstep⟩) (.init (vm_init 3)) hs
  have hlast : (execute (step addressing 3) vm refusedRequest).map (fun s => (s.pc "a", s.ports)) =
      some (.requestRaised, ["a"]) := by decide +kernel
  rw [hs] at hlast
  obtain ⟨hpc, hports⟩ := Prod.mk.inj (Option.some.inj hlast)
  refine ⟨s, hreach, hpc, hports, fun h => (h.raised "a" hpc).2 ?_⟩
  rw [hports]
  exact List.mem_singleton_self _

end AddressPairs

end KuryrKubernetes
