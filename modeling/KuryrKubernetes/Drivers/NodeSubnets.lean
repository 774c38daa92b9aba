import Mathlib.Data.Finset.Basic
import KuryrKubernetes.K8s.Objects
import KuryrKubernetes.Lib.Dict
import KuryrKubernetes.Lib.Transition

/-!
# The subnets of the nodes

`OpenShiftNodesSubnets` (`controller/drivers/node_subnets.py`) keeps the set of the subnets
that Machines run in. `add_node` adds one under a lock. `delete_node` lists the Machines
that are left, decides on that list whether the subnet is still in use, and takes the lock
only then.

- `getSubnetFromMachine`: the subnet of a Machine, as Neutron and its spec have it.
- `State`: the Machines of the API, the deletions that are under way and the set. Calls for
  one Machine are made one after the other, calls for different ones in any order.
- `Prompt`: no subnet is dropped that is not in the set or that another call is dropping,
  and none is added while it is being dropped.
- `node_subnets_track`: in runs of such steps no call raises, and when there is nothing left
  to do the set is that of the Machines.

The spec of a Machine does not change.
-/

namespace KuryrKubernetes

namespace NodeSubnets

open Dicts Transition

/-! ## The subnet of a Machine -/

abbrev SubnetId := String

/-- A subnet of a network in a spec: its `uuid`, and its `filter`. -/
structure SubnetSpec where
  uuid : Option SubnetId
  filter : Option String
deriving DecidableEq, Repr

/-- A port of a spec, with the `subnetID`s of its `fixedIPs`. -/
structure PortSpec where
  trunk : Option Bool
  fixedIps : List (Option SubnetId)
deriving DecidableEq, Repr

/-- `spec.providerSpec.value`; the `networks`, each by its `subnets`. -/
structure ProviderSpec where
  trunk : Bool
  primarySubnet : Option String
  networks : List (List SubnetSpec)
  ports : List PortSpec
deriving DecidableEq, Repr

structure Machine where
  name : String
  spec : Option ProviderSpec
deriving DecidableEq, Repr

/-- What `find_subnet` does with a name. -/
inductive FindAnswer where
  | found (id : SubnetId)
  | missing | duplicate | sdkError
deriving DecidableEq, Repr

/-- The answers of Neutron to one call. -/
structure Neutron where
  findSubnet : String → FindAnswer
  getSubnetId : String → Except Exc (Option SubnetId)

/-- The `primarySubnet` (node_subnets.py:66–101). -/
def Neutron.primary (net : Neutron) (name : String) : Except Exc (Option SubnetId) :=
  match net.findSubnet name with
  | .found id => .ok (some id)
  | .missing => .ok none
  | .duplicate => .ok none
  | .sdkError => .error .notReady

/-- The first subnet of the first network (node_subnets.py:103–114). -/
def Neutron.ofNetworks (net : Neutron) (spec : ProviderSpec) : Except Exc (Option SubnetId) :=
  match spec.trunk, spec.networks with
  | true, (subnet :: _) :: _ =>
    match subnet.uuid.filter (· ≠ ""), subnet.filter with
    | some id, _ => .ok (some id)
    | none, some filter => net.getSubnetId filter
    | none, none => .error .keyError
  | _, _ => .ok none

/-- The subnet of the last port on a trunk that has one (node_subnets.py:116–122). -/
def ofPorts (trunk : Bool) (ports : List PortSpec) : Option SubnetId :=
  ports.foldl (fun found port =>
    if port.trunk.getD trunk then
      (port.fixedIps.findSome? fun id => id.filter (· ≠ "")).or found
    else found) none

/-- `_get_subnet_from_machine` (node_subnets.py:60–127). -/
def getSubnetFromMachine (net : Neutron) (machine : Machine) : Except Exc (Option SubnetId) :=
  match machine.spec with
  | none => .error .other
  | some spec =>
    match spec.primarySubnet with
    | some name => net.primary name
    | none => do
      match (← net.ofNetworks spec).filter (· ≠ "") with
      | some id => return some id
      | none => return ofPorts spec.trunk spec.ports

/-! ## The driver -/

/-- `get_nodes_subnets` (node_subnets.py:129–141), with the subnets of the configuration. -/
def getNodesSubnets (subnets configured : Finset SubnetId) (raiseOnEmpty : Bool) :
    Except Exc (Finset SubnetId) :=
  let result := if configured.Nonempty then subnets ∪ configured else subnets
  if ¬ result.Nonempty ∧ raiseOnEmpty then .error .notReady else .ok result

/-- The locked part of `add_node` (node_subnets.py:150–157): whether the set has changed. -/
def addSubnet (subnets : Finset SubnetId) (s : SubnetId) : Finset SubnetId × Bool :=
  if s ∉ subnets then (insert s subnets, true) else (subnets, false)

/-- Whether a Machine of the list is in the subnet; the first one found decides. -/
def inUse (net : Neutron) (s : SubnetId) : List Machine → Except Exc Bool
  | [] => .ok false
  | machine :: rest => do
    if some s = (← getSubnetFromMachine net machine) then return true else inUse net s rest

/-- `delete_node` up to the lock (node_subnets.py:159–172): the subnet that is dropped. -/
def droppedSubnet (net : Neutron) (machine : Machine) (items : Except Exc (List Machine)) :
    Except Exc (Option SubnetId) := do
  match ← getSubnetFromMachine net machine with
  | none => return none
  | some s => if ← inUse net s (← items) then return none else return some s

/-- The locked part of `delete_node` (node_subnets.py:176–177). `remove` wants its element
to be there. -/
def removeSubnet (subnets : Finset SubnetId) (s : SubnetId) : Except Exc (Finset SubnetId) :=
  if s ∈ subnets then .ok (subnets.erase s) else .error .keyError

/-! ## Steps -/

/-- A deletion under way: `delete_node` has not listed the Machines yet, or has decided to
drop a subnet. -/
inductive Deletion where
  | waiting
  | dropping (s : SubnetId)
deriving DecidableEq, Repr

structure State where
  /-- The Machines of the API. -/
  machines : List Machine
  /-- The Machines that `add_node` has been called for. -/
  added : List Machine
  deletions : Dict Machine Deletion
  /-- The set of the driver. -/
  subnets : Finset SubnetId
  /-- What `delete_node` has raised. -/
  raised : List Exc

inductive Step where
  | create (m : Machine)
  | addNode (m : Machine) (net : Neutron)
  | delete (m : Machine)
  /-- `delete_node` lists the Machines and decides; the listing may fail. -/
  | listMachines (m : Machine) (net : Neutron) (listed : Except Exc Unit)
  | remove (m : Machine)

/-- One step. `add_node` may come late, for a Machine that is already gone; a call of
`delete_node` that raises before it has decided may be made again. -/
def State.step (st : State) : Step → Option State
  | .create m =>
    if m ∉ st.machines ∧ st.deletions.get? m = none then
      some { st with machines := m :: st.machines, added := st.added.filter (· ≠ m) }
    else none
  | .addNode m net =>
    if m ∈ st.machines ∨ st.deletions.get? m = some .waiting then
      match getSubnetFromMachine net m with
      | .error _ => some st
      | .ok none => some { st with added := m :: st.added }
      | .ok (some s) =>
        some { st with added := m :: st.added, subnets := (addSubnet st.subnets s).1 }
    else none
  | .delete m =>
    if m ∈ st.machines then
      some { st with
        machines := st.machines.filter (· ≠ m)
        deletions := st.deletions.set m .waiting }
    else none
  | .listMachines m net listed =>
    if st.deletions.get? m = some .waiting then
      match droppedSubnet net m (listed.map fun _ => st.machines) with
      | .error e => some { st with raised := st.raised ++ [e] }
      | .ok none => some { st with deletions := st.deletions.erase m }
      | .ok (some s) => some { st with deletions := st.deletions.set m (.dropping s) }
    else none
  | .remove m =>
    match st.deletions.get? m with
    | some (.dropping s) =>
      match removeSubnet st.subnets s with
      | .error e => some { st with raised := st.raised ++ [e], deletions := st.deletions.erase m }
      | .ok subnets => some { st with subnets, deletions := st.deletions.erase m }
    | _ => none

/-- The controller starts with an empty set and whatever Machines there are. -/
def State.init (st : State) : Prop :=
  st.added = [] ∧ st.deletions = Dict.empty ∧ st.subnets = ∅ ∧ st.raised = []

def system : System State Step where
  init := State.init
  step st a st' := st.step a = some st'

/-! ## Careful steps -/

/-- No call is dropping the subnet. -/
def State.Free (st : State) (s : SubnetId) : Prop :=
  ∀ m, st.deletions.get? m ≠ some (.dropping s)

/-- The steps that keep to the set, for Machines with the subnets `subnet`: the subnet of a
Machine is found whenever it is asked for, the listing succeeds, a subnet is dropped only
when it is in the set and no other call is dropping it, and added only when none is. -/
def Prompt (subnet : Machine → Option SubnetId) (st : State) : Step → Prop
  | .addNode m net =>
    getSubnetFromMachine net m = .ok (subnet m) ∧ ∀ s, subnet m = some s → st.Free s
  | .listMachines m net listed =>
    listed = .ok () ∧ (∀ m', m' = m ∨ m' ∈ st.machines →
      getSubnetFromMachine net m' = .ok (subnet m')) ∧
    ∀ s, subnet m = some s → (∀ m' ∈ st.machines, subnet m' ≠ some s) → s ∈ st.subnets ∧ st.Free s
  | _ => True

/-- Every event has been processed. -/
def State.Quiet (st : State) : Prop :=
  (∀ m ∈ st.machines, m ∈ st.added) ∧ ∀ m, st.deletions.get? m = none

/-- No call of `delete_node` has raised, and when every event has been processed the set is
that of the subnets of the Machines that exist and were added. -/
def Tracks (subnet : Machine → Option SubnetId) (st : State) : Prop :=
  st.raised = [] ∧
    (st.Quiet → ∀ s, s ∈ st.subnets ↔ ∃ m ∈ st.machines, m ∈ st.added ∧ subnet m = some s)

section

variable {subnet : Machine → Option SubnetId} {net : Neutron}

theorem inUse_eq {s : SubnetId} : ∀ {items : List Machine},
    (∀ m ∈ items, getSubnetFromMachine net m = .ok (subnet m)) →
      (inUse net s items = .ok true ∧ ∃ m ∈ items, subnet m = some s) ∨
      (inUse net s items = .ok false ∧ ∀ m ∈ items, subnet m ≠ some s)
  | [], _ => .inr ⟨rfl, by simp⟩
  | m :: rest, h => by
    have hm := h m List.mem_cons_self
    by_cases hs : some s = subnet m
    · refine .inl ⟨?_, m, List.mem_cons_self, hs.symm⟩
      rw [inUse, hm]
      exact if_pos hs
    · have heq : inUse net s (m :: rest) = inUse net s rest := by
        rw [inUse, hm]
        exact if_neg hs
      rw [heq]
      rcases inUse_eq fun x hx => h x (List.mem_cons_of_mem _ hx) with ⟨hu, x, hx, hxs⟩ | ⟨hu, hall⟩
      · exact .inl ⟨hu, x, List.mem_cons_of_mem _ hx, hxs⟩
      · refine .inr ⟨hu, fun x hx => ?_⟩
        rcases List.mem_cons.mp hx with rfl | hx
        · exact fun h => hs h.symm
        · exact hall x hx

/-- **What `delete_node` decides**, when its questions are answered: the subnet is dropped
exactly when no Machine of the list is in it. -/
theorem droppedSubnet_eq {m : Machine} {items : List Machine}
    (h : ∀ m', m' = m ∨ m' ∈ items → getSubnetFromMachine net m' = .ok (subnet m')) :
    (droppedSubnet net m (.ok items) = .ok none ∧
        ∀ s, subnet m = some s → ∃ m' ∈ items, subnet m' = some s) ∨
      (∃ s, droppedSubnet net m (.ok items) = .ok (some s) ∧ subnet m = some s ∧
        ∀ m' ∈ items, subnet m' ≠ some s) := by
  have hm := h m (.inl rfl)
  cases hs : subnet m with
  | none =>
    refine .inl ⟨?_, by simp⟩
    rw [droppedSubnet, hm, hs]
    rfl
  | some s =>
    rcases inUse_eq fun x hx => h x (.inr hx) with ⟨hu, hex⟩ | ⟨hu, hall⟩
    · refine .inl ⟨?_, by rintro s' ⟨⟩; exact hex⟩
      rw [droppedSubnet, hm, hs]
      show (inUse net s items >>= _) = _
      rw [hu]
      rfl
    · refine .inr ⟨s, ?_, rfl, hall⟩
      rw [droppedSubnet, hm, hs]
      show (inUse net s items >>= _) = _
      rw [hu]
      rfl

end

/-! ## The invariant -/

/-- What careful steps keep. A subnet that is being dropped is in the set, is dropped by
one call only, and no Machine in it has been added; every subnet of the set has a Machine
in it, or one whose deletion is under way. -/
structure Inv (subnet : Machine → Option SubnetId) (st : State) : Prop where
  raised : st.raised = []
  apart : ∀ m ∈ st.machines, st.deletions.get? m = none
  added : ∀ m ∈ st.machines, m ∈ st.added → ∀ s, subnet m = some s → s ∈ st.subnets
  dropping : ∀ m s, st.deletions.get? m = some (.dropping s) →
    subnet m = some s ∧ s ∈ st.subnets ∧
      (∀ m' ∈ st.machines, m' ∈ st.added → subnet m' ≠ some s) ∧
      ∀ m', st.deletions.get? m' = some (.dropping s) → m' = m
  supported : ∀ s ∈ st.subnets, (∃ m ∈ st.machines, subnet m = some s) ∨
    ∃ m d, st.deletions.get? m = some d ∧ subnet m = some s

section

variable {subnet : Machine → Option SubnetId} {st st' : State} {m : Machine}

theorem inv_init (h : st.init) : Inv subnet st := by
  obtain ⟨hadded, hdel, hsub, hraised⟩ := h
  have hget : ∀ m, st.deletions.get? m = none := by
    intro m
    rw [hdel]
    rfl
  refine ⟨hraised, fun m _ => hget m, ?_, ?_, ?_⟩
  · intro m _ hm
    rw [hadded] at hm
    cases hm
  · intro m s hm
    rw [hget] at hm
    cases hm
  · intro s hs
    rw [hsub] at hs
    cases hs

/-- A Machine whose deletion is under way is gone. -/
theorem Inv.notMem {d : Deletion} (h : Inv subnet st) (hd : st.deletions.get? m = some d) :
    m ∉ st.machines := by
  intro hm
  rw [h.apart m hm] at hd
  cases hd

/-- Creating a Machine. -/
theorem Inv.create (h : Inv subnet st) (hs : st.step (.create m) = some st') : Inv subnet st' := by
  rw [State.step] at hs
  split at hs
  · next hnew =>
    cases hs
    refine ⟨h.raised, ?_, ?_, ?_, ?_⟩
    · intro x hx
      rcases List.mem_cons.mp hx with rfl | hx
      · exact hnew.2
      · exact h.apart x hx
    -- the new Machine counts as not added, even if one of its name was
    · intro x hx hadd s hxs
      obtain ⟨hadd, hne⟩ := List.mem_filter.mp hadd
      rcases List.mem_cons.mp hx with rfl | hx
      · simp at hne
      · exact h.added x hx hadd s hxs
    · intro x s hx
      obtain ⟨hxs, hmem, hnone, huniq⟩ := h.dropping x s hx
      refine ⟨hxs, hmem, fun y hy hadd => ?_, huniq⟩
      obtain ⟨hadd, hne⟩ := List.mem_filter.mp hadd
      rcases List.mem_cons.mp hy with rfl | hy
      · simp at hne
      · exact hnone y hy hadd
    · intro s hs
      rcases h.supported s hs with ⟨x, hx, hxs⟩ | hdel
      · exact .inl ⟨x, List.mem_cons_of_mem _ hx, hxs⟩
      · exact .inr hdel
  · cases hs

/-- Deleting one: its call of `delete_node` is still to come. -/
theorem Inv.delete (h : Inv subnet st) (hs : st.step (.delete m) = some st') : Inv subnet st' := by
  rw [State.step] at hs
  split at hs
  · next hmem =>
    cases hs
    -- the new call drops nothing yet
    have hold : ∀ {x d}, (st.deletions.set m .waiting).get? x = some (.dropping d) →
        st.deletions.get? x = some (.dropping d) := by
      intro x d hx
      rcases Dict.get?_set_eq_some.mp hx with ⟨-, hd⟩ | ⟨-, hx⟩
      · cases hd
      · exact hx
    refine ⟨h.raised, ?_, ?_, ?_, ?_⟩
    · intro x hx
      obtain ⟨hx, hne⟩ := List.mem_filter.mp hx
      exact (Dict.get?_upsert_of_ne _ _ (by simpa using hne)).trans (h.apart x hx)
    · intro x hx
      exact h.added x (List.mem_filter.mp hx).1
    · intro x s hx
      obtain ⟨hxs, hin, hnone, huniq⟩ := h.dropping x s (hold hx)
      exact ⟨hxs, hin, fun y hy => hnone y (List.mem_filter.mp hy).1, fun y hy => huniq y (hold hy)⟩
    · intro s hs
      rcases h.supported s hs with ⟨x, hx, hxs⟩ | ⟨x, d, hx, hxs⟩
      -- the Machine no longer supports its subnet, but its deletion does
      · by_cases hne : x = m
        · exact .inr ⟨m, .waiting, Dict.get?_set_eq_some.mpr (.inl ⟨rfl, rfl⟩), hne ▸ hxs⟩
        · exact .inl ⟨x, List.mem_filter.mpr ⟨hx, by simpa using hne⟩, hxs⟩
      · by_cases hne : x = m
        · exact .inr ⟨x, .waiting, Dict.get?_set_eq_some.mpr (.inl ⟨hne, rfl⟩), hxs⟩
        · exact .inr ⟨x, d, Dict.get?_set_eq_some.mpr (.inr ⟨hne, hx⟩), hxs⟩
  · cases hs

theorem mem_addSubnet {subnets : Finset SubnetId} {s x : SubnetId} :
    x ∈ (addSubnet subnets s).1 ↔ x = s ∨ x ∈ subnets := by
  unfold addSubnet
  split
  · exact Finset.mem_insert
  · next hmem =>
    rw [not_not] at hmem
    exact ⟨.inr, fun h => h.elim (fun heq => heq ▸ hmem) id⟩

/-- A Machine in no subnet that is known. -/
theorem Inv.addNone (h : Inv subnet st) (hm : subnet m = none) :
    Inv subnet { st with added := m :: st.added } := by
  refine ⟨h.raised, h.apart, ?_, ?_, h.supported⟩
  · intro x hx hadd s hxs
    rcases List.mem_cons.mp hadd with rfl | hadd
    · rw [hm] at hxs
      cases hxs
    · exact h.added x hx hadd s hxs
  · intro x s hx
    obtain ⟨hxs, hin, hnone, huniq⟩ := h.dropping x s hx
    refine ⟨hxs, hin, fun y hy hadd => ?_, huniq⟩
    rcases List.mem_cons.mp hadd with rfl | hadd
    · simp [hm]
    · exact hnone y hy hadd

/-- A Machine in a subnet that no call is dropping. -/
theorem Inv.addSome {t : SubnetId} (h : Inv subnet st) (hm : subnet m = some t)
    (hfree : st.Free t)
    (hknown : m ∈ st.machines ∨ st.deletions.get? m = some .waiting) :
    Inv subnet { st with added := m :: st.added, subnets := (addSubnet st.subnets t).1 } := by
  refine ⟨h.raised, h.apart, ?_, ?_, ?_⟩
  · intro x hx hadd s hxs
    rcases List.mem_cons.mp hadd with rfl | hadd
    · rw [hm] at hxs
      exact mem_addSubnet.mpr (.inl (Option.some.inj hxs).symm)
    · exact mem_addSubnet.mpr (.inr (h.added x hx hadd s hxs))
  · intro x s hx
    obtain ⟨hxs, hin, hnone, huniq⟩ := h.dropping x s hx
    refine ⟨hxs, mem_addSubnet.mpr (.inr hin), fun y hy hadd => ?_, huniq⟩
    rcases List.mem_cons.mp hadd with rfl | hadd
    · rintro hys
      -- nobody is dropping the subnet of the new Machine
      obtain rfl : t = s := Option.some.inj (hm.symm.trans hys)
      exact hfree x hx
    · exact hnone y hy hadd
  · intro s hs
    rcases mem_addSubnet.mp hs with rfl | hs
    · rcases hknown with hmem | hwait
      · exact .inl ⟨m, hmem, hm⟩
      · exact .inr ⟨m, _, hwait, hm⟩
    · exact h.supported s hs

/-- Adding one, while its subnet is not being dropped. -/
theorem Inv.addNode {net : Neutron} (h : Inv subnet st) (hok : Prompt subnet st (.addNode m net))
    (hs : st.step (.addNode m net) = some st') : Inv subnet st' := by
  obtain ⟨hanswer, hfree⟩ := hok
  rw [State.step] at hs
  split at hs
  · next hknown =>
    rw [hanswer] at hs
    cases hm : subnet m with
    | none =>
      rw [hm] at hs
      cases hs
      exact h.addNone hm
    | some t =>
      rw [hm] at hs
      cases hs
      exact h.addSome hm (hfree t hm) hknown
  · cases hs

/-- Taking a deletion that drops nothing out of the books. -/
theorem Inv.kept (h : Inv subnet st)
    (hused : ∀ s, subnet m = some s → ∃ m' ∈ st.machines, subnet m' = some s)
    (hgone : m ∉ st.machines) :
    Inv subnet { st with deletions := st.deletions.erase m } := by
  have hold : ∀ {x d}, (st.deletions.erase m).get? x = some d → st.deletions.get? x = some d :=
    fun hx => (Dict.get?_erase_eq_some.mp hx).2
  refine ⟨h.raised, ?_, h.added, ?_, ?_⟩
  · intro x hx
    exact (Dict.get?_erase_of_ne _ (ne_of_mem_of_not_mem hx hgone)).trans (h.apart x hx)
  · intro x s hx
    obtain ⟨hxs, hin, hnone, huniq⟩ := h.dropping x s (hold hx)
    exact ⟨hxs, hin, hnone, fun y hy => huniq y (hold hy)⟩
  · intro s hs
    rcases h.supported s hs with hex | ⟨x, d, hx, hxs⟩
    · exact .inl hex
    · by_cases hne : x = m
      · exact .inl (hused s (hne ▸ hxs))
      · exact .inr ⟨x, d, Dict.get?_erase_eq_some.mpr ⟨hne, hx⟩, hxs⟩

/-- Deciding to drop a subnet that is in the set, that no other call is dropping and that
no Machine is in. -/
theorem Inv.drops {s : SubnetId} (h : Inv subnet st) (hs : subnet m = some s)
    (hunused : ∀ m' ∈ st.machines, subnet m' ≠ some s) (hgone : m ∉ st.machines)
    (hin : s ∈ st.subnets) (hfree : st.Free s) :
    Inv subnet { st with deletions := st.deletions.set m (.dropping s) } := by
  refine ⟨h.raised, ?_, h.added, ?_, ?_⟩
  · intro x hx
    exact (Dict.get?_upsert_of_ne _ _ (ne_of_mem_of_not_mem hx hgone)).trans (h.apart x hx)
  · intro x t hx
    rcases Dict.get?_set_eq_some.mp hx with ⟨rfl, heq⟩ | ⟨hne, hx⟩
    · cases heq
      refine ⟨hs, hin, fun y hy _ => hunused y hy, fun y hy => ?_⟩
      rcases Dict.get?_set_eq_some.mp hy with ⟨rfl, -⟩ | ⟨-, hy⟩
      · rfl
      · exact absurd hy (hfree y)
    · obtain ⟨hxt, htin, hnone, huniq⟩ := h.dropping x t hx
      refine ⟨hxt, htin, hnone, fun y hy => ?_⟩
      rcases Dict.get?_set_eq_some.mp hy with ⟨-, heq⟩ | ⟨-, hy⟩
      · cases heq
        exact absurd hx (hfree x)
      · exact huniq y hy
  · intro t ht
    rcases h.supported t ht with hex | ⟨x, d, hx, hxs⟩
    · exact .inl hex
    · by_cases hne : x = m
      · exact .inr ⟨x, _, Dict.get?_set_eq_some.mpr (.inl ⟨hne, rfl⟩), hxs⟩
      · exact .inr ⟨x, d, Dict.get?_set_eq_some.mpr (.inr ⟨hne, hx⟩), hxs⟩

/-- Listing the Machines. -/
theorem Inv.listMachines {net : Neutron} {listed : Except Exc Unit} (h : Inv subnet st)
    (hok : Prompt subnet st (.listMachines m net listed))
    (hs : st.step (.listMachines m net listed) = some st') : Inv subnet st' := by
  obtain ⟨rfl, hanswers, hprompt⟩ := hok
  rw [State.step] at hs
  split at hs
  · next hwait =>
    have hgone := h.notMem hwait
    rcases droppedSubnet_eq hanswers with ⟨hdrop, hused⟩ | ⟨s, hdrop, hms, hunused⟩
    · simp only [Except.map, hdrop] at hs
      cases hs
      exact h.kept hused hgone
    -- the subnet is dropped, so this call has to be the only one to drop it
    · obtain ⟨hin, hfree⟩ := hprompt s hms hunused
      simp only [Except.map, hdrop] at hs
      cases hs
      exact h.drops hms hunused hgone hin hfree
  · cases hs

/-- Dropping the subnet. -/
theorem Inv.remove (h : Inv subnet st) (hs : st.step (.remove m) = some st') :
    Inv subnet st' := by
  rw [State.step] at hs
  split at hs
  · next s hdrop =>
    obtain ⟨hms, hin, hnone, huniq⟩ := h.dropping m s hdrop
    rw [removeSubnet, if_pos hin] at hs
    cases hs
    refine ⟨h.raised, ?_, ?_, ?_, ?_⟩
    · intro x hx
      have hne := ne_of_mem_of_not_mem hx (h.notMem hdrop)
      exact (Dict.get?_erase_of_ne _ hne).trans (h.apart x hx)
    · intro x hx hadd t hxt
      refine Finset.mem_erase.mpr ⟨?_, h.added x hx hadd t hxt⟩
      -- no Machine in the dropped subnet has been added
      rintro rfl
      exact hnone x hx hadd hxt
    · intro x t hx
      obtain ⟨hne, hxdrop⟩ := Dict.get?_erase_eq_some.mp hx
      obtain ⟨hxt, htin, hnone', huniq'⟩ := h.dropping x t hxdrop
      refine ⟨hxt, Finset.mem_erase.mpr ⟨?_, htin⟩, hnone', fun y hy => ?_⟩
      · rintro rfl
        exact hne (huniq x hxdrop)
      · exact huniq' y (Dict.get?_erase_eq_some.mp hy).2
    · intro t ht
      obtain ⟨hts, ht⟩ := Finset.mem_erase.mp ht
      rcases h.supported t ht with hex | ⟨x, d, hx, hxt⟩
      · exact .inl hex
      · have hne : x ≠ m := by
          rintro rfl
          rw [hms] at hxt
          exact hts (Option.some.inj hxt).symm
        -- its deletion is another one, and still under way
        exact .inr ⟨x, d, Dict.get?_erase_eq_some.mpr ⟨hne, hx⟩, hxt⟩
  · cases hs

/-- **Every careful step keeps the invariant.** -/
theorem inv_step {a : Step} (h : Inv subnet st) (hok : Prompt subnet st a)
    (hs : system.step st a st') : Inv subnet st' := by
  cases a with
  | create m => exact h.create hs
  | addNode m net => exact h.addNode hok hs
  | delete m => exact h.delete hs
  | listMachines m net listed => exact h.listMachines hok hs
  | remove m => exact h.remove hs

theorem Inv.tracks (h : Inv subnet st) : Tracks subnet st := by
  refine ⟨h.raised, fun hquiet s => ⟨fun hs => ?_, ?_⟩⟩
  · rcases h.supported s hs with ⟨m, hm, hms⟩ | ⟨m, d, hm, -⟩
    · exact ⟨m, hm, hquiet.1 m hm, hms⟩
    · rw [hquiet.2 m] at hm
      cases hm
  · rintro ⟨m, hm, hadd, hms⟩
    exact h.added m hm hadd s hms

/-- **In every run of careful steps `delete_node` raises nothing, and the set is that of
the Machines whenever every event has been processed.** -/
theorem node_subnets_track (h : Reach system (Prompt subnet) st) : Tracks subnet st :=
  (h.invariant (fun _ hinit => inv_init hinit) fun _ _ _ hinv hok hs => inv_step hinv hok hs).tracks

/-- What the other drivers are told then: the subnets of the Machines and the configured
ones. -/
theorem getNodesSubnets_quiet (h : Tracks subnet st) (hquiet : st.Quiet)
    {configured result : Finset SubnetId} {raiseOnEmpty : Bool}
    (hr : getNodesSubnets st.subnets configured raiseOnEmpty = .ok result) (s : SubnetId) :
    s ∈ result ↔ (∃ m ∈ st.machines, m ∈ st.added ∧ subnet m = some s) ∨ s ∈ configured := by
  rw [← h.2 hquiet s]
  have hresult : result = if configured.Nonempty then st.subnets ∪ configured else st.subnets := by
    unfold getNodesSubnets at hr
    dsimp only at hr
    generalize (if configured.Nonempty then st.subnets ∪ configured else st.subnets) = r at hr ⊢
    split at hr
    · cases hr
    · exact (Except.ok.inj hr).symm
  rw [hresult]
  split
  · exact Finset.mem_union
  · next hempty =>
    rw [Finset.not_nonempty_iff_eq_empty.mp hempty]
    simp

end

/-! ## Runs -/

/-- A worker in a subnet. -/
def worker (name : String) (s : SubnetId) : Machine :=
  ⟨name, some ⟨true, none, [[⟨some s, none⟩]], []⟩⟩

/-- No answer of Neutron is needed for a worker. -/
def noNames : Neutron := ⟨fun _ => .missing, fun _ => .ok none⟩

/-- A cluster that starts with some Machines. -/
def State.start (machines : List Machine) : State := ⟨machines, [], Dict.empty, ∅, []⟩

/-- All workers are in one subnet. -/
abbrev oneSubnet : Machine → Option SubnetId := fun _ => some "s"

/-- A listing that finds a worker decides nothing about the set. -/
theorem prompt_listMachines {st : State} {name other : String}
    (hall : ∀ m ∈ st.machines, getSubnetFromMachine noNames m = .ok (some "s"))
    (hother : worker other "s" ∈ st.machines) :
    Prompt oneSubnet st (.listMachines (worker name "s") noNames (.ok ())) := by
  refine ⟨rfl, ?_, fun s (hs : oneSubnet (worker other "s") = some s) hnone =>
    absurd hs (hnone _ hother)⟩
  rintro m (rfl | hm)
  · rfl
  · exact hall m hm

/-- A deletion that waits drops nothing yet. -/
theorem free_of_waiting {st : State} {m : Machine} (h : st.deletions = Dict.empty.set m .waiting)
    (s : SubnetId) : st.Free s := by
  intro m' hm'
  rw [h] at hm'
  have hmem := Dict.get?_eq_some.mp hm'
  simp [Dict.set, Dict.upsert, Dict.upsertItems] at hmem

/-- Two workers of a subnet. The deletion of the first is under way when the second is added, and
its listing finds the second; only when that is deleted as well, the subnet is dropped. -/
theorem two_workers_track : Tracks oneSubnet ⟨[], [worker "b" "s", worker "a" "s"],
    Dict.empty, ∅, []⟩ := by
  have h₀ : Reach system (Prompt oneSubnet) (State.start [worker "a" "s", worker "b" "s"]) :=
    .init ⟨rfl, rfl, rfl, rfl⟩
  have h₁ : Reach system (Prompt oneSubnet) ⟨[worker "a" "s", worker "b" "s"],
      [worker "a" "s"], Dict.empty, {"s"}, []⟩ :=
    h₀.step (show Prompt _ _ (.addNode (worker "a" "s") noNames) from
      ⟨rfl, fun _ _ _ h => by cases h⟩) rfl
  have h₂ : Reach system (Prompt oneSubnet) ⟨[worker "b" "s"], [worker "a" "s"],
      Dict.empty.set (worker "a" "s") .waiting, {"s"}, []⟩ :=
    h₁.step (show Prompt _ _ (.delete (worker "a" "s")) from trivial) rfl
  have h₃ : Reach system (Prompt oneSubnet) ⟨[worker "b" "s"], [worker "b" "s", worker "a" "s"],
      Dict.empty.set (worker "a" "s") .waiting, {"s"}, []⟩ :=
    h₂.step (show Prompt _ _ (.addNode (worker "b" "s") noNames) from
      ⟨rfl, fun s _ => free_of_waiting rfl s⟩) rfl
  have h₄ : Reach system (Prompt oneSubnet) ⟨[worker "b" "s"], [worker "b" "s", worker "a" "s"],
      Dict.empty, {"s"}, []⟩ :=
    h₃.step (show Prompt _ _ (.listMachines (worker "a" "s") noNames (.ok ())) from
      prompt_listMachines (by simp; rfl) List.mem_cons_self) rfl
  have h₅ : Reach system (Prompt oneSubnet) ⟨[], [worker "b" "s", worker "a" "s"],
      Dict.empty.set (worker "b" "s") .waiting, {"s"}, []⟩ :=
    h₄.step (show Prompt _ _ (.delete (worker "b" "s")) from trivial) rfl
  have h₆ : Reach system (Prompt oneSubnet) ⟨[], [worker "b" "s", worker "a" "s"],
      Dict.empty.set (worker "b" "s") (.dropping "s"), {"s"}, []⟩ := by
    refine h₅.step (show Prompt _ _ (.listMachines (worker "b" "s") noNames (.ok ())) from
      ⟨rfl, ?_, ?_⟩) rfl
    · rintro m (rfl | hm)
      · rfl
      · cases hm
    · rintro s ⟨⟩ -
      exact ⟨by decide, free_of_waiting rfl _⟩
  exact node_subnets_track
    (h₆.step (show Prompt _ _ (.remove (worker "b" "s")) from trivial) rfl)

/-- Both workers of a subnet are deleted before the first call of `delete_node`: the second
call raises `KeyError`. A worker that is added between the listing and the removal loses
its subnet. -/
theorem second_worker_raises :
    (execute State.step (State.start [worker "a" "s", worker "b" "s"])
        [.addNode (worker "a" "s") noNames, .addNode (worker "b" "s") noNames,
          .delete (worker "a" "s"), .delete (worker "b" "s"),
          .listMachines (worker "a" "s") noNames (.ok ()), .remove (worker "a" "s"),
          .listMachines (worker "b" "s") noNames (.ok ()), .remove (worker "b" "s")]).map
        State.raised = some [.keyError] ∧
      (execute State.step (State.start [worker "a" "s"])
        [.addNode (worker "a" "s") noNames, .delete (worker "a" "s"),
          .listMachines (worker "a" "s") noNames (.ok ()), .create (worker "b" "s"),
          .addNode (worker "b" "s") noNames, .remove (worker "a" "s")]).map
        (fun st => (st.machines, st.added, st.subnets)) =
          some ([worker "b" "s"], [worker "b" "s", worker "a" "s"], ∅) := by
  constructor
  · decide
  · decide

end NodeSubnets
end KuryrKubernetes
