import Mathlib.Data.List.Flatten
import Mathlib.Data.List.Infix
import KuryrKubernetes.Lib.Dict

/-!
# From Endpoints to endpoint slices

`EndpointsHandler` writes the subsets of an Endpoints object into the spec of the
KuryrLoadBalancer as endpoint slices. What either means is a union of products: every
address of a subset (of a slice) with every port of that subset (of that slice).

- `convertSubsetsToEndpointslice`: the conversion. `endpoints` is one list object,
  created before the loop over the subsets; all slices refer to it, so each of them
  ends up with the addresses of all subsets.
- `convert_preserves_targets_iff`: the products come out the same exactly when no
  address of a subset can meet a port of another one, and no address that has a port
  carries an empty `targetRef`.

Ports are copied as they are, so their type is left open.
-/

namespace KuryrKubernetes

namespace EndpointSlices

open Dicts

variable {π : Type}

/-- The fields of a `targetRef` that are set. -/
abbrev ObjectReference := Dict String String

/-- An item of `addresses` of a subset. -/
structure Address where
  ip : Option String
  targetRef : Option ObjectReference
deriving DecidableEq, Repr

/-- An item of `subsets`; either list may be missing. -/
structure Subset (π : Type) where
  addresses : Option (List Address)
  ports : Option (List π)
deriving DecidableEq, Repr

/-- An Endpoints object. -/
structure Endpoints (π : Type) where
  subsets : Option (List (Subset π))
deriving DecidableEq, Repr

/-- An endpoint of a slice; `conditions` has the key `ready` only. -/
structure Endpoint where
  addresses : List (Option String)
  ready : Bool
  targetRef : Option ObjectReference
deriving DecidableEq, Repr

/-- An item of `endpointSlices`. -/
structure EndpointSlice (π : Type) where
  endpoints : List Endpoint
  ports : List π
deriving DecidableEq, Repr

/-- `subset.get('addresses', [])`. -/
def Subset.addressList (s : Subset π) : List Address := s.addresses.getD []

/-- `subset.get('ports', [])`. -/
def Subset.portList (s : Subset π) : List π := s.ports.getD []

/-- `endpoints_obj.get('subsets', [])`. -/
def Endpoints.subsetList (o : Endpoints π) : List (Subset π) := o.subsets.getD []

/-- `if targetRef:` drops an empty reference. -/
def truthy (targetRef : Option ObjectReference) : Option ObjectReference :=
  targetRef.filter fun r => !r.items.isEmpty

/-- The endpoint built for an address. -/
def endpointOf (address : Address) : Endpoint where
  addresses := [address.ip]
  ready := true
  targetRef := truthy address.targetRef

/-- The locals of the loop: the content of the list object `endpoints`, and
`endpointslices`, whose items all refer to that object, so only the ports of an item are
its own. -/
structure Locals (π : Type) where
  endpoints : List Endpoint
  endpointslices : List (List π)

/-- One round of `for subset in subsets`. -/
def convertSubset (st : Locals π) (subset : Subset π) : Locals π where
  endpoints := subset.addressList.foldl (fun eps address => eps ++ [endpointOf address])
    st.endpoints
  endpointslices := st.endpointslices ++ [subset.portList]

/-- `_convert_subsets_to_endpointslice`. The references are followed when the caller
reads the slices, that is after the loop. -/
def convertSubsetsToEndpointslice (o : Endpoints π) : List (EndpointSlice π) :=
  let st := o.subsetList.foldl convertSubset ⟨[], []⟩
  st.endpointslices.map fun ports => ⟨st.endpoints, ports⟩

/-! ## What slices and subsets mean -/

/-- An address, the object behind it, and a port. -/
abbrev Target (π : Type) := Option String × Option ObjectReference × π

/-- Every address of a subset with every port of that subset. -/
def Subset.targets (s : Subset π) : List (Target π) :=
  s.addressList.flatMap fun a => s.portList.map fun p => (a.ip, a.targetRef, p)

/-- Every endpoint of a slice with every port of that slice. -/
def EndpointSlice.targets (s : EndpointSlice π) : List (Target π) :=
  s.endpoints.flatMap fun e =>
    e.addresses.flatMap fun ip => s.ports.map fun p => (ip, e.targetRef, p)

/-- The combinations of an Endpoints object, with their multiplicities. -/
def Endpoints.targets (o : Endpoints π) : List (Target π) :=
  o.subsetList.flatMap Subset.targets

/-- The combinations of a list of slices, with their multiplicities. -/
def sliceTargets (slices : List (EndpointSlice π)) : List (Target π) :=
  slices.flatMap EndpointSlice.targets

/-! ## What the conversion does -/

theorem foldl_endpointOf (addresses : List Address) (eps : List Endpoint) :
    addresses.foldl (fun eps address => eps ++ [endpointOf address]) eps =
      eps ++ addresses.map endpointOf := by
  induction addresses generalizing eps with
  | nil => simp
  | cons a rest ih => simp [ih]

theorem foldl_convertSubset (subsets : List (Subset π)) (st : Locals π) :
    subsets.foldl convertSubset st =
      ⟨st.endpoints ++ (subsets.flatMap Subset.addressList).map endpointOf,
        st.endpointslices ++ subsets.map Subset.portList⟩ := by
  induction subsets generalizing st with
  | nil => simp
  | cons s rest ih =>
    rw [List.foldl_cons, ih]
    simp only [convertSubset, foldl_endpointOf]
    simp

/-- Every slice lists the addresses of all subsets. -/
theorem convertSubsetsToEndpointslice_eq (o : Endpoints π) :
    convertSubsetsToEndpointslice o = o.subsetList.map fun s =>
      ⟨(o.subsetList.flatMap Subset.addressList).map endpointOf, s.portList⟩ := by
  unfold convertSubsetsToEndpointslice
  rw [foldl_convertSubset]
  simp

/-- Some addresses with some ports, as a slice pairs them. -/
def pairs (addresses : List Address) (ports : List π) : List (Target π) :=
  addresses.flatMap fun a => ports.map fun p => (a.ip, truthy a.targetRef, p)

theorem sliceTargets_convert (o : Endpoints π) :
    sliceTargets (convertSubsetsToEndpointslice o) =
      o.subsetList.flatMap fun s =>
        pairs (o.subsetList.flatMap Subset.addressList) s.portList := by
  rw [convertSubsetsToEndpointslice_eq]
  simp only [sliceTargets, List.flatMap_map]
  congr 1
  funext s
  simp [EndpointSlice.targets, pairs, List.flatMap_map, endpointOf]

@[simp] theorem length_pairs (addresses : List Address) (ports : List π) :
    (pairs addresses ports).length = addresses.length * ports.length := by
  simp [pairs, List.length_flatMap]

@[simp] theorem Subset.length_targets (s : Subset π) :
    s.targets.length = s.addressList.length * s.portList.length := by
  simp [Subset.targets, List.length_flatMap]

theorem pairs_nil_right (addresses : List Address) : pairs addresses ([] : List π) = [] := by
  simp [pairs]

theorem Subset.targets_of_no_ports {s : Subset π} (h : s.portList = []) : s.targets = [] := by
  simp [Subset.targets, h]

/-- Slices carry no empty reference. -/
theorem ref_ne_empty_of_mem_pairs {addresses : List Address} {ports : List π} {t : Target π}
    (h : t ∈ pairs addresses ports) : t.2.1 ≠ some Dict.empty := by
  simp only [pairs, List.mem_flatMap, List.mem_map] at h
  obtain ⟨a, -, p, -, rfl⟩ := h
  intro hempty
  have := Option.eq_some_of_filter_eq_some hempty
  simp [truthy, this] at hempty

theorem truthy_of_ne_empty {r : Option ObjectReference} (h : r ≠ some Dict.empty) :
    truthy r = r := by
  cases r with
  | none => rfl
  | some d =>
    have hitems : d.items ≠ [] := fun hnil => h (congrArg some (Dict.ext hnil))
    simp [truthy, hitems]

/-! ## When the targets are preserved -/

/-- Neither subset has an address that a port of the other one could be paired with. -/
def Subset.Apart (s t : Subset π) : Prop :=
  (s.addressList = [] ∨ t.portList = []) ∧ (t.addressList = [] ∨ s.portList = [])

/-- No address that has a port carries an empty reference. -/
def Subset.RefsSet (s : Subset π) : Prop :=
  s.portList ≠ [] → ∀ a ∈ s.addressList, a.targetRef ≠ some Dict.empty

theorem length_flatMap_le {α β : Type} {f g : α → List β} {l : List α}
    (hle : ∀ x ∈ l, (f x).length ≤ (g x).length) :
    (l.flatMap f).length ≤ (l.flatMap g).length := by
  induction l with
  | nil => simp
  | cons x rest ih =>
    have hrest := ih fun y hy => hle y (List.mem_cons_of_mem x hy)
    have hx := hle x List.mem_cons_self
    simp only [List.flatMap_cons, List.length_append]
    omega

/-- Unions of termwise shorter lists that are of one length are so term by term. -/
theorem length_eq_of_flatMap {α β : Type} {f g : α → List β} {l : List α}
    (hle : ∀ x ∈ l, (f x).length ≤ (g x).length)
    (hlength : (l.flatMap f).length = (l.flatMap g).length) :
    ∀ x ∈ l, (f x).length = (g x).length := by
  induction l with
  | nil => simp
  | cons x rest ih =>
    have hrest := length_flatMap_le fun y hy => hle y (List.mem_cons_of_mem x hy)
    have hx := hle x List.mem_cons_self
    simp only [List.flatMap_cons, List.length_append] at hlength
    intro y hy
    rcases List.mem_cons.mp hy with rfl | hy
    · omega
    · exact ih (fun z hz => hle z (List.mem_cons_of_mem x hz)) (by omega) y hy

theorem length_addressList_le {l : List (Subset π)} {s : Subset π} (hs : s ∈ l) :
    s.addressList.length ≤ (l.flatMap Subset.addressList).length := by
  have hsub : [s].Sublist l := List.singleton_sublist.mpr hs
  simpa using (hsub.flatMap Subset.addressList).length_le

/-- Counting: a subset with a port then has all the addresses there are. -/
theorem length_addressList_of_perm {o : Endpoints π}
    (h : (sliceTargets (convertSubsetsToEndpointslice o)).Perm o.targets) {s : Subset π}
    (hs : s ∈ o.subsetList) (hports : s.portList ≠ []) :
    s.addressList.length = (o.subsetList.flatMap Subset.addressList).length := by
  have hlength := h.length_eq
  rw [sliceTargets_convert] at hlength
  have hle : ∀ t ∈ o.subsetList, t.targets.length ≤
      (pairs (o.subsetList.flatMap Subset.addressList) t.portList).length := by
    intro t ht
    rw [length_pairs, Subset.length_targets]
    exact Nat.mul_le_mul_right _ (length_addressList_le ht)
  have heq := length_eq_of_flatMap hle hlength.symm s hs
  rw [length_pairs, Subset.length_targets] at heq
  exact Nat.eq_of_mul_eq_mul_right (List.length_pos_iff.mpr hports) heq

/-- Two subsets at different places share the addresses, so one with a port leaves the
other none. -/
theorem pairwise_apart_of_perm {o : Endpoints π}
    (h : (sliceTargets (convertSubsetsToEndpointslice o)).Perm o.targets) :
    o.subsetList.Pairwise Subset.Apart := by
  rw [List.pairwise_iff_forall_sublist]
  intro s t hsub
  have hle := (hsub.flatMap Subset.addressList).length_le
  simp only [List.flatMap_cons, List.flatMap_nil, List.append_nil, List.length_append] at hle
  constructor
  · by_cases hports : t.portList = []
    · exact .inr hports
    · have hall := length_addressList_of_perm h (hsub.subset (by simp)) hports
      exact .inl (List.length_eq_zero_iff.mp (by omega))
  · by_cases hports : s.portList = []
    · exact .inr hports
    · have hall := length_addressList_of_perm h (hsub.subset (by simp)) hports
      exact .inl (List.length_eq_zero_iff.mp (by omega))

theorem refsSet_of_perm {o : Endpoints π}
    (h : (sliceTargets (convertSubsetsToEndpointslice o)).Perm o.targets) {s : Subset π}
    (hs : s ∈ o.subsetList) : s.RefsSet := by
  intro hports a ha
  obtain ⟨p, hp⟩ := List.exists_mem_of_ne_nil _ hports
  have hsubset : (a.ip, a.targetRef, p) ∈ o.targets :=
    List.mem_flatMap.mpr ⟨s, hs, List.mem_flatMap.mpr ⟨a, ha, List.mem_map.mpr ⟨p, hp, rfl⟩⟩⟩
  have hslice := h.mem_iff.mpr hsubset
  rw [sliceTargets_convert, List.mem_flatMap] at hslice
  obtain ⟨t, -, ht⟩ := hslice
  exact ref_ne_empty_of_mem_pairs ht

/-- Where the subsets are apart, the addresses of one with a port are all there are. -/
theorem flatMap_addressList {l : List (Subset π)} (hapart : l.Pairwise Subset.Apart)
    {s : Subset π} (hs : s ∈ l) (hports : s.portList ≠ []) :
    l.flatMap Subset.addressList = s.addressList := by
  obtain ⟨before, after, rfl⟩ := List.append_of_mem hs
  rw [List.pairwise_append, List.pairwise_cons] at hapart
  obtain ⟨-, ⟨hafter, -⟩, hbefore⟩ := hapart
  have hnone : before.flatMap Subset.addressList = [] := by
    rw [List.flatMap_eq_nil_iff]
    intro t ht
    exact (hbefore t ht s List.mem_cons_self).1.resolve_right hports
  have hnone' : after.flatMap Subset.addressList = [] := by
    rw [List.flatMap_eq_nil_iff]
    intro t ht
    exact (hafter t ht).2.resolve_right hports
  rw [List.flatMap_append, List.flatMap_cons, hnone, hnone', List.nil_append, List.append_nil]

theorem pairs_eq_targets {s : Subset π} (h : s.RefsSet) (hports : s.portList ≠ []) :
    pairs s.addressList s.portList = s.targets := by
  unfold pairs Subset.targets
  refine List.flatMap_congr fun a ha => ?_
  rw [truthy_of_ne_empty (h hports a ha)]

theorem sliceTargets_eq {o : Endpoints π} (hapart : o.subsetList.Pairwise Subset.Apart)
    (hrefs : ∀ s ∈ o.subsetList, s.RefsSet) :
    sliceTargets (convertSubsetsToEndpointslice o) = o.targets := by
  rw [sliceTargets_convert]
  refine List.flatMap_congr fun s hs => ?_
  by_cases hports : s.portList = []
  · rw [hports, pairs_nil_right, Subset.targets_of_no_ports hports]
  · rw [flatMap_addressList hapart hs hports, pairs_eq_targets (hrefs s hs) hports]

/-- The slices stand for the same targets, with the same multiplicities, exactly when no
address of a subset can be paired with a port of another one and no address that has a
port carries an empty reference. -/
theorem convert_preserves_targets_iff (o : Endpoints π) :
    (sliceTargets (convertSubsetsToEndpointslice o)).Perm o.targets ↔
      o.subsetList.Pairwise Subset.Apart ∧ ∀ s ∈ o.subsetList, s.RefsSet := by
  constructor
  · intro h
    exact ⟨pairwise_apart_of_perm h, fun s hs => refsSet_of_perm h hs⟩
  · rintro ⟨hapart, hrefs⟩
    rw [sliceTargets_eq hapart hrefs]

/-- Two ready pods, one that listens on 8080 and one on 9090. -/
def twoSubsets : Endpoints Nat where
  subsets := some [⟨some [⟨some "10.0.0.5", none⟩], some [8080]⟩,
    ⟨some [⟨some "10.0.0.6", none⟩], some [9090]⟩]

/-- Both pods become targets on both ports. -/
theorem convert_crosses_subsets :
    ¬ (sliceTargets (convertSubsetsToEndpointslice twoSubsets)).Perm twoSubsets.targets := by
  decide

end EndpointSlices

end KuryrKubernetes
