import KuryrKubernetes.K8s.Objects
import KuryrKubernetes.Lib.Acts

/-!
# Zombie resources

`cleanup_dead_ports` and `cleanup_dead_networks` (`utils.py`) delete what nobody has touched
for `ZOMBIE_AGE` seconds: ports, subnets of the networks that KuryrNetworks refer to, and
networks that have no ports.

- `seconds`: the component of a time difference that is compared, which starts again every
  day.
- `Cloud`: what Neutron and Kubernetes answer during one cleanup. A listing is read piece by
  piece and may raise after any item, and a deletion may raise.
- `PortReached`, `SubnetReached`, `NetworkReached`: what the cleanup comes to look at.
- `recognised_iff`: exactly when a cleanup deletes what is old enough, and leaves the
  networks alone that are in use.

Neutron leaves out, for `not_tags`, what has all of the tags.
-/

namespace KuryrKubernetes

namespace ZombieResources

open Acts

/-! ## Ages -/

/-- `ZOMBIE_AGE`, in seconds. -/
def zombieAge : Int := 600

/-- `timedelta.seconds` of a difference in microseconds: the seconds of the last day that
is not full. -/
def seconds (delta : Int) : Int := delta / 1000000 % 86400

theorem zombieAge_lt_of_seconds {delta : Int} (hpos : 0 ≤ delta) (h : zombieAge < seconds delta) :
    zombieAge * 1000000 < delta := by
  unfold zombieAge seconds at *
  omega

/-- **Within a day the comparison is that of the whole seconds.** -/
theorem zombieAge_lt_seconds_iff {delta : Int} (hpos : 0 ≤ delta) (hday : delta < 86400 * 1000000) :
    zombieAge < seconds delta ↔ (zombieAge + 1) * 1000000 ≤ delta := by
  unfold zombieAge seconds
  omega

/-- **It starts again every day.** -/
theorem seconds_add_day (delta : Int) : seconds (delta + 86400 * 1000000) = seconds delta := by
  unfold seconds
  omega

/-! ## Neutron and Kubernetes -/

/-- `DEVICE_OWNER` of kuryr-lib. -/
def deviceOwner : String := "compute:kuryr"

structure Port where
  id : String
  status : String
  networkId : String
  deviceOwner : String
  tags : List String
  updatedAt : Int
deriving DecidableEq, Repr

structure Subnet where
  id : String
  networkId : String
  tags : List String
  updatedAt : Int
deriving DecidableEq, Repr

structure Net where
  id : String
  description : String
  updatedAt : Int
deriving DecidableEq, Repr

/-- What can be deleted. -/
inductive Resource where
  | port (id : String)
  | subnet (id : String)
  | network (id : String)
deriving DecidableEq, Repr

/-- The listings that are asked of Neutron. -/
inductive Query where
  | downPorts (netId : String)
  | networks
  | untaggedSubnets (netId : String)
  | ports (netId : String)
deriving DecidableEq, Repr

/-- Everything a cleanup is told from outside. -/
structure Cloud where
  /-- `resource_tags` of the configuration. -/
  resourceTags : List String
  /-- `status.netId` of the KuryrNetworks. -/
  kuryrNetworks : List (Option String)
  /-- What listing the KuryrNetworks raises. -/
  k8sError : Option Exc
  ports : List Port
  subnets : List Subnet
  networks : List Net
  /-- The number of items after which a listing raises. -/
  cut : Query → Option (Nat × Exc)
  /-- The current time when a resource is looked at. -/
  now : Resource → Int
  deleteError : Resource → Option Exc
  ports_nodup : (ports.map Port.id).Nodup
  subnets_nodup : (subnets.map Subnet.id).Nodup
  networks_nodup : (networks.map Net.id).Nodup
  ports_le : ∀ p ∈ ports, p.updatedAt ≤ now (.port p.id)
  subnets_le : ∀ s ∈ subnets, s.updatedAt ≤ now (.subnet s.id)
  networks_le : ∀ n ∈ networks, n.updatedAt ≤ now (.network n.id)

namespace Cloud

variable (w : Cloud)

def listing {β : Type} (q : Query) (items : List β) : Listing Exc β := .of items (w.cut q)

/-- Not all of the tags. -/
def untagged (tags : List String) : Bool := !w.resourceTags.all fun tag => tags.contains tag

/-- `os_net.ports(status='DOWN', …)`. -/
def downPorts (netId : String) : Listing Exc Port :=
  w.listing (.downPorts netId) <| w.ports.filter fun p =>
    p.status = "DOWN" && p.networkId = netId && p.deviceOwner = ZombieResources.deviceOwner &&
      w.untagged p.tags

/-- The ids of the networks that KuryrNetworks refer to. -/
def kuryrNetIds : List String := w.kuryrNetworks.filterMap fun netId => netId.filter (· ≠ "")

/-- The description of the networks of the deployment. -/
def desc : String := ",".intercalate w.resourceTags

def deploymentNetworks : Listing Exc Net :=
  w.listing .networks <| w.networks.filter fun n => n.description = w.desc

/-- The subnets of a network without the tags. -/
def untaggedSubnets (netId : String) : Listing Exc Subnet :=
  w.listing (.untaggedSubnets netId) <| w.subnets.filter fun s =>
    s.networkId = netId && w.untagged s.tags

def portsOfNetwork (netId : String) : Listing Exc Port :=
  w.listing (.ports netId) <| w.ports.filter fun p => p.networkId = netId

/-! ## The cleanups -/

/-- The age is compared, and the resource deleted if need be. Errors of the SDK are logged. -/
def checkAge (r : Resource) (updatedAt : Int) : Program Exc Resource :=
  if seconds (w.now r - updatedAt) > zombieAge then
    ⟨[r], (w.deleteError r).filter fun e => !e.isSdk⟩
  else done

def checkPort (p : Port) : Program Exc Resource := w.checkAge (.port p.id) p.updatedAt

/-- The ports of one KuryrNetwork (utils.py:738–755). -/
def cleanPorts (netId : Option String) : Program Exc Resource :=
  match netId.filter (· ≠ "") with
  | none => done
  | some netId => (w.downPorts netId).over w.checkPort

/-- The KuryrNetworks are listed; an error of the client is logged. -/
def withKuryrNetworks (rest : Program Exc Resource) : Program Exc Resource :=
  if w.resourceTags = [] then done
  else match w.k8sError with
    | some e => if e.isK8sClient then done else raise e
    | none => rest

/-- `cleanup_dead_ports` (utils.py:718–755). -/
def cleanupDeadPorts : Program Exc Resource :=
  w.withKuryrNetworks (each w.cleanPorts w.kuryrNetworks)

def checkSubnet (s : Subnet) : Program Exc Resource := w.checkAge (.subnet s.id) s.updatedAt

/-- The extra subnets of a network in use (utils.py:780–795). -/
def cleanSubnets (net : Net) : Program Exc Resource :=
  if net.id ∈ w.kuryrNetIds then (w.untaggedSubnets net.id).over w.checkSubnet else done

/-- A network without ports, be it in use or not (utils.py:797–808). -/
def cleanNetwork (net : Net) : Program Exc Resource :=
  match (w.portsOfNetwork net.id).fails with
  | some e => raise e
  | none =>
    if (w.portsOfNetwork net.id).items.length > 0 then done
    else w.checkAge (.network net.id) net.updatedAt

/-- `cleanup_dead_networks` (utils.py:758–808). -/
def cleanupDeadNetworks : Program Exc Resource :=
  w.withKuryrNetworks
    (w.deploymentNetworks.over fun net => (w.cleanSubnets net).andThen (w.cleanNetwork net))

/-! ## Resources to be cleaned up -/

/-- `r`, last updated at `updatedAt`, is older than `ZOMBIE_AGE`. -/
def Old (r : Resource) (updatedAt : Int) : Prop := zombieAge * 1000000 < w.now r - updatedAt

/-- A DOWN port of a KuryrNetwork that has not got the tags. -/
def DeadPort (p : Port) : Prop :=
  p.status = "DOWN" ∧ p.deviceOwner = ZombieResources.deviceOwner ∧ w.untagged p.tags = true ∧
    p.networkId ∈ w.kuryrNetIds

/-- A network of the deployment; without tags there is none. -/
def Deployed (n : Net) : Prop := w.resourceTags ≠ [] ∧ n.description = w.desc

/-- A subnet without the tags, in a network of the deployment that is in use. -/
def ExtraSubnet (s : Subnet) : Prop :=
  w.untagged s.tags = true ∧ ∃ n ∈ w.networks, w.Deployed n ∧ n.id ∈ w.kuryrNetIds ∧
    n.id = s.networkId

def Portless (n : Net) : Prop := ∀ p ∈ w.ports, p.networkId ≠ n.id

/-- A network of the deployment without ports that no KuryrNetwork refers to. -/
def Orphan (n : Net) : Prop := w.Deployed n ∧ n.id ∉ w.kuryrNetIds ∧ w.Portless n

/-- The cleanups delete exactly what is old enough of what they are for, and no network in
use. -/
structure Recognised : Prop where
  ports : ∀ p ∈ w.ports, w.DeadPort p →
    (.port p.id ∈ w.cleanupDeadPorts.acts ↔ w.Old (.port p.id) p.updatedAt)
  subnets : ∀ s ∈ w.subnets, w.ExtraSubnet s →
    (.subnet s.id ∈ w.cleanupDeadNetworks.acts ↔ w.Old (.subnet s.id) s.updatedAt)
  networks : ∀ n ∈ w.networks, w.Orphan n →
    (.network n.id ∈ w.cleanupDeadNetworks.acts ↔ w.Old (.network n.id) n.updatedAt)
  referred : ∀ n ∈ w.networks, n.id ∈ w.kuryrNetIds →
    .network n.id ∉ w.cleanupDeadNetworks.acts

/-! ## What is looked at -/

/-- The tags are configured and the KuryrNetworks were listed. -/
def Starts : Prop := w.resourceTags ≠ [] ∧ w.k8sError = none

/-- The cleanup of the ports comes to `p`: nothing raises before. -/
def PortReached (p : Port) : Prop :=
  w.Starts ∧ Gets w.cleanPorts w.kuryrNetworks (some p.networkId) ∧ p.networkId ≠ "" ∧
    Gets w.checkPort (w.downPorts p.networkId).items p

/-- The body of the loop over the networks. -/
def cleanNet (net : Net) : Program Exc Resource := (w.cleanSubnets net).andThen (w.cleanNetwork net)

/-- The cleanup of the networks comes to the subnet `s`. -/
def SubnetReached (s : Subnet) : Prop :=
  w.Starts ∧ ∃ n, Gets w.cleanNet w.deploymentNetworks.items n ∧ n.id ∈ w.kuryrNetIds ∧
    n.id = s.networkId ∧ Gets w.checkSubnet (w.untaggedSubnets n.id).items s

/-- It comes to the age of the network `n`, which has no ports. -/
def NetworkReached (n : Net) : Prop :=
  w.Starts ∧ Gets w.cleanNet w.deploymentNetworks.items n ∧ (w.cleanSubnets n).raised = none ∧
    w.cut (.ports n.id) = none ∧ w.Portless n

variable {w}

theorem mem_checkAge {r x : Resource} {updatedAt : Int} :
    x ∈ (w.checkAge r updatedAt).acts ↔ x = r ∧ zombieAge < seconds (w.now r - updatedAt) := by
  unfold checkAge
  split
  · next h => simp [h]
  · next h => simp [h, done]

theorem mem_withKuryrNetworks {rest : Program Exc Resource} {x : Resource} :
    x ∈ (w.withKuryrNetworks rest).acts ↔ w.Starts ∧ x ∈ rest.acts := by
  unfold withKuryrNetworks Starts
  split
  · next htags => simp [htags, done]
  · next htags =>
    cases hk : w.k8sError with
    | none => simp [htags]
    | some e => cases he : e.isK8sClient <;> simp [done, raise, he]

theorem mem_downPorts {netId : String} {p : Port} (h : p ∈ (w.downPorts netId).items) :
    p ∈ w.ports ∧ p.networkId = netId := by
  have h := List.mem_filter.mp (Listing.mem_of h)
  simp only [Bool.and_eq_true, decide_eq_true_eq] at h
  exact ⟨h.1, h.2.1.1.2⟩

/-- **Which ports are deleted**: the ones looked at with enough seconds. -/
theorem mem_cleanupDeadPorts {p : Port} (hp : p ∈ w.ports) :
    .port p.id ∈ w.cleanupDeadPorts.acts ↔
      w.PortReached p ∧ zombieAge < seconds (w.now (.port p.id) - p.updatedAt) := by
  rw [cleanupDeadPorts, mem_withKuryrNetworks, mem_each]
  constructor
  · rintro ⟨hstarts, item, hitem, hmem⟩
    unfold cleanPorts at hmem
    split at hmem
    · cases hmem
    · next netId hnet =>
      obtain ⟨rfl, hne⟩ := Option.filter_eq_some_iff.mp hnet
      obtain ⟨q, hq, hmem⟩ := mem_over.mp hmem
      obtain ⟨heq, hage⟩ := mem_checkAge.mp hmem
      obtain ⟨hqmem, rfl⟩ := mem_downPorts hq.mem
      -- the id tells which port was looked at
      obtain rfl : p = q := List.inj_on_of_nodup_map w.ports_nodup hp hqmem (Resource.port.inj heq)
      exact ⟨⟨hstarts, hitem, by simpa using hne, hq⟩, hage⟩
  · rintro ⟨⟨hstarts, hitem, hne, hget⟩, hage⟩
    refine ⟨hstarts, _, hitem, ?_⟩
    have hfilter : (some p.networkId).filter (· ≠ "") = some p.networkId := by simp [hne]
    simp only [cleanPorts, hfilter]
    exact mem_over.mpr ⟨p, hget, mem_checkAge.mpr ⟨rfl, hage⟩⟩

theorem mem_deploymentNetworks {n : Net} (h : n ∈ w.deploymentNetworks.items) :
    n ∈ w.networks ∧ n.description = w.desc := by
  have h := List.mem_filter.mp (Listing.mem_of h)
  exact ⟨h.1, of_decide_eq_true h.2⟩

theorem mem_cleanSubnets {n : Net} {x : Resource} :
    x ∈ (w.cleanSubnets n).acts ↔ n.id ∈ w.kuryrNetIds ∧
      ∃ s, Gets w.checkSubnet (w.untaggedSubnets n.id).items s ∧ x = .subnet s.id ∧
        zombieAge < seconds (w.now (.subnet s.id) - s.updatedAt) := by
  unfold cleanSubnets
  split
  · next hin =>
    rw [mem_over]
    simp only [checkSubnet, mem_checkAge, hin, true_and]
  · next hin => simp [hin, done]

/-- **A network without ports is looked at, in use or not.** -/
theorem mem_cleanNetwork {n : Net} {x : Resource} :
    x ∈ (w.cleanNetwork n).acts ↔ w.cut (.ports n.id) = none ∧ w.Portless n ∧ x = .network n.id ∧
      zombieAge < seconds (w.now (.network n.id) - n.updatedAt) := by
  have hportless : (w.ports.filter fun p => p.networkId = n.id) = [] ↔ w.Portless n := by
    rw [List.filter_eq_nil_iff]
    simp [Portless]
  have hlisting : w.portsOfNetwork n.id =
      .of (w.ports.filter fun p => p.networkId = n.id) (w.cut (.ports n.id)) := rfl
  unfold cleanNetwork
  rw [hlisting]
  cases w.cut (.ports n.id) with
  -- the listing of the ports raises, outside of any `try`
  | some c => simp [Listing.of, raise]
  | none =>
    cases hports : w.ports.filter fun p => p.networkId = n.id with
    | nil =>
      show x ∈ (w.checkAge (.network n.id) n.updatedAt).acts ↔ _
      simp [mem_checkAge, hportless.mp hports]
    -- a port keeps the network, whatever its age
    | cons q l =>
      have hnot : ¬ w.Portless n := fun h => by
        rw [hportless.mpr h] at hports
        cases hports
      show x ∈ (done : Program Exc Resource).acts ↔ _
      simp [hnot, done]

theorem mem_cleanupDeadNetworks {x : Resource} :
    x ∈ w.cleanupDeadNetworks.acts ↔ w.Starts ∧ ∃ n, Gets w.cleanNet w.deploymentNetworks.items n ∧
      (x ∈ (w.cleanSubnets n).acts ∨
        ((w.cleanSubnets n).raised = none ∧ x ∈ (w.cleanNetwork n).acts)) := by
  rw [cleanupDeadNetworks, mem_withKuryrNetworks, mem_over]
  simp only [mem_andThen]
  rfl

/-- **Which subnets are deleted.** -/
theorem subnet_mem_cleanupDeadNetworks {s : Subnet} (hs : s ∈ w.subnets) :
    .subnet s.id ∈ w.cleanupDeadNetworks.acts ↔
      w.SubnetReached s ∧ zombieAge < seconds (w.now (.subnet s.id) - s.updatedAt) := by
  rw [mem_cleanupDeadNetworks]
  constructor
  · rintro ⟨hstarts, n, hn, hmem | ⟨-, hmem⟩⟩
    · obtain ⟨hin, t, ht, heq, hage⟩ := mem_cleanSubnets.mp hmem
      have htmem := List.mem_filter.mp (Listing.mem_of ht.mem)
      obtain rfl : s = t :=
        List.inj_on_of_nodup_map w.subnets_nodup hs htmem.1 (Resource.subnet.inj heq)
      have hnet : s.networkId = n.id := by
        have := htmem.2
        simp only [Bool.and_eq_true, decide_eq_true_eq] at this
        exact this.1
      exact ⟨⟨hstarts, n, hn, hin, hnet.symm, ht⟩, hage⟩
    · cases (mem_cleanNetwork.mp hmem).2.2.1
  · rintro ⟨⟨hstarts, n, hn, hin, -, hget⟩, hage⟩
    exact ⟨hstarts, n, hn, .inl (mem_cleanSubnets.mpr ⟨hin, s, hget, rfl, hage⟩)⟩

/-- **Which networks are deleted**: any without ports, be it in use or not. -/
theorem network_mem_cleanupDeadNetworks {n : Net} (hn : n ∈ w.networks) :
    .network n.id ∈ w.cleanupDeadNetworks.acts ↔
      w.NetworkReached n ∧ zombieAge < seconds (w.now (.network n.id) - n.updatedAt) := by
  rw [mem_cleanupDeadNetworks]
  constructor
  · rintro ⟨hstarts, m, hm, hmem | ⟨hraised, hmem⟩⟩
    -- a subnet is not a network
    · obtain ⟨-, t, -, heq, -⟩ := mem_cleanSubnets.mp hmem
      cases heq
    · obtain ⟨hcut, hportless, heq, hage⟩ := mem_cleanNetwork.mp hmem
      obtain rfl : n = m :=
        List.inj_on_of_nodup_map w.networks_nodup hn (mem_deploymentNetworks hm.mem).1
          (Resource.network.inj heq)
      exact ⟨⟨hstarts, hm, hraised, hcut, hportless⟩, hage⟩
  · rintro ⟨⟨hstarts, hget, hraised, hcut, hportless⟩, hage⟩
    exact ⟨hstarts, n, hget, .inr ⟨hraised, mem_cleanNetwork.mpr ⟨hcut, hportless, rfl, hage⟩⟩⟩

/-! ## When the cleanups are right -/

/-- Deleting what is looked at with enough seconds is deleting what is old, exactly when
everything old is looked at and has enough seconds. -/
theorem deleted_iff_old {reached : Prop} {delta : Int} (hpos : 0 ≤ delta) :
    ((reached ∧ zombieAge < seconds delta) ↔ zombieAge * 1000000 < delta) ↔
      (zombieAge * 1000000 < delta → reached ∧ zombieAge < seconds delta) :=
  ⟨fun h => h.mpr, fun h => ⟨fun hd => zombieAge_lt_of_seconds hpos hd.2, h⟩⟩

/-- **Exactly when a cleanup recognises the zombies**: everything that is old enough is
looked at, with more seconds in its last day than `ZOMBIE_AGE`; and no network in use is
looked at that has no ports, unless its seconds are fewer. -/
theorem recognised_iff (w : Cloud) :
    w.Recognised ↔
      (∀ p ∈ w.ports, w.DeadPort p → w.Old (.port p.id) p.updatedAt →
        w.PortReached p ∧ zombieAge < seconds (w.now (.port p.id) - p.updatedAt)) ∧
      (∀ s ∈ w.subnets, w.ExtraSubnet s → w.Old (.subnet s.id) s.updatedAt →
        w.SubnetReached s ∧ zombieAge < seconds (w.now (.subnet s.id) - s.updatedAt)) ∧
      (∀ n ∈ w.networks, w.Orphan n → w.Old (.network n.id) n.updatedAt →
        w.NetworkReached n ∧ zombieAge < seconds (w.now (.network n.id) - n.updatedAt)) ∧
      (∀ n ∈ w.networks, n.id ∈ w.kuryrNetIds → w.NetworkReached n →
        seconds (w.now (.network n.id) - n.updatedAt) ≤ zombieAge) := by
  have hport : ∀ p ∈ w.ports, ((.port p.id ∈ w.cleanupDeadPorts.acts ↔
      w.Old (.port p.id) p.updatedAt) ↔ (w.Old (.port p.id) p.updatedAt →
        w.PortReached p ∧ zombieAge < seconds (w.now (.port p.id) - p.updatedAt))) := by
    intro p hp
    rw [mem_cleanupDeadPorts hp]
    exact deleted_iff_old (Int.sub_nonneg.mpr (w.ports_le p hp))
  have hsubnet : ∀ s ∈ w.subnets, ((.subnet s.id ∈ w.cleanupDeadNetworks.acts ↔
      w.Old (.subnet s.id) s.updatedAt) ↔ (w.Old (.subnet s.id) s.updatedAt →
        w.SubnetReached s ∧ zombieAge < seconds (w.now (.subnet s.id) - s.updatedAt))) := by
    intro s hs
    rw [subnet_mem_cleanupDeadNetworks hs]
    exact deleted_iff_old (Int.sub_nonneg.mpr (w.subnets_le s hs))
  have hnetwork : ∀ n ∈ w.networks, ((.network n.id ∈ w.cleanupDeadNetworks.acts ↔
      w.Old (.network n.id) n.updatedAt) ↔ (w.Old (.network n.id) n.updatedAt →
        w.NetworkReached n ∧ zombieAge < seconds (w.now (.network n.id) - n.updatedAt))) := by
    intro n hn
    rw [network_mem_cleanupDeadNetworks hn]
    exact deleted_iff_old (Int.sub_nonneg.mpr (w.networks_le n hn))
  -- a network in use is kept as any other is: by a port, or for want of seconds
  have hreferred : ∀ n ∈ w.networks, (.network n.id ∉ w.cleanupDeadNetworks.acts ↔
      (w.NetworkReached n → seconds (w.now (.network n.id) - n.updatedAt) ≤ zombieAge)) := by
    intro n hn
    rw [network_mem_cleanupDeadNetworks hn, not_and]
    simp only [not_lt]
  constructor
  · rintro ⟨hp, hs, hn, hr⟩
    exact ⟨fun p hmem hdead => (hport p hmem).mp (hp p hmem hdead),
      fun s hmem hextra => (hsubnet s hmem).mp (hs s hmem hextra),
      fun n hmem horphan => (hnetwork n hmem).mp (hn n hmem horphan),
      fun n hmem hin => (hreferred n hmem).mp (hr n hmem hin)⟩
  · rintro ⟨hp, hs, hn, hr⟩
    exact ⟨fun p hmem hdead => (hport p hmem).mpr (hp p hmem hdead),
      fun s hmem hextra => (hsubnet s hmem).mpr (hs s hmem hextra),
      fun n hmem horphan => (hnetwork n hmem).mpr (hn n hmem horphan),
      fun n hmem hin => (hreferred n hmem).mpr (hr n hmem hin)⟩

end Cloud

/-- A port that has been DOWN for a day, and a network that a KuryrNetwork refers to and
that has had no port for eleven minutes. Times are counted from the update of the port. -/
def dayOld : Cloud where
  resourceTags := ["kuryr"]
  kuryrNetworks := [some "net-1", some "net-2"]
  k8sError := none
  ports := [⟨"port-1", "DOWN", "net-1", deviceOwner, [], 0⟩]
  subnets := []
  networks := [⟨"net-1", "kuryr", 0⟩, ⟨"net-2", "kuryr", 85740 * 1000000⟩]
  cut _ := none
  now _ := 86400 * 1000000
  deleteError _ := none
  ports_nodup := by decide
  subnets_nodup := by decide
  networks_nodup := by decide
  ports_le := by decide
  subnets_le := by decide
  networks_le := by decide

/-- The port is left alone, and the network in use is deleted. -/
theorem day_old_port_kept :
    ¬ dayOld.Recognised ∧ dayOld.cleanupDeadPorts.acts = [] ∧
      dayOld.cleanupDeadNetworks.acts = [.network "net-2"] := by
  have hports : dayOld.cleanupDeadPorts.acts = [] := by decide
  refine ⟨fun h => ?_, hports, by decide⟩
  have hdead : dayOld.DeadPort ⟨"port-1", "DOWN", "net-1", deviceOwner, [], 0⟩ :=
    ⟨rfl, rfl, by decide, by decide⟩
  have hold : zombieAge * 1000000 < dayOld.now (.port "port-1") - 0 := by decide
  have hmem := (h.ports _ List.mem_cons_self hdead).mpr hold
  rw [hports] at hmem
  cases hmem

end ZombieResources
end KuryrKubernetes
