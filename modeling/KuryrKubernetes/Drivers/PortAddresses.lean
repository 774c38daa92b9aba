import Mathlib.Data.List.Dedup
import KuryrKubernetes.Cni.FrontEnds

/-!
# The addresses of a port

`os_vif_util` turns a Neutron port into the network of a VIF: the fixed IPs are filed under their
subnets (`_make_vif_subnets`), for the subnets that were asked for. `osvif_to_neutron_fixed_ips`
goes the other way, when a port is requested, and `get_pod_ip` reads one address out of the VIF
that is stored in a KuryrPort, as a tree of versioned objects.

- `addresses`: what the filed subnets hold, each address with its subnet.
- `makeVifNetwork_ok_iff`: which ports have a network.
- `fixedIps_round_trip`: no address is lost, none is made up, and those of a subnet stay in
  order.
- `makeVifNetwork_of_request`: a port that answers the request of `_get_port_request` has one.
- `getPodIp_of_port`: `get_pod_ip` does not fail for such a port, though no step of its path is
  guarded, and gives the first fixed IP in a subnet that was asked for.

`makeVifSubnets` and the tree are those of the CNI front ends.
-/

namespace KuryrKubernetes

namespace PortAddresses

open Dicts Results FrontEnds

/-! ## Networks and ports -/

/-- An os-vif network; fields that are not set are `none`. -/
structure Network where
  id : String
  label : Option String
  mtu : Option Nat
  vlan : Option Nat
  subnets : List Subnet
deriving DecidableEq, Repr

structure NeutronNetwork where
  id : String
  name : Option String
  mtu : Option Nat
  providerNetworkType : Option String
  providerSegmentationId : Option Nat
deriving DecidableEq, Repr

/-- `neutron_to_osvif_network`; `vlan` stands for `should_provide_vlan`, too. -/
def neutronToOsvifNetwork (n : NeutronNetwork) : Network where
  id := n.id
  label := n.name
  mtu := n.mtu
  vlan := if n.providerNetworkType = some "vlan" then n.providerSegmentationId else none
  subnets := []

/-- `get_subnet`, after its two requests. -/
def getSubnet (s : NeutronSubnet) (n : NeutronNetwork) : Network :=
  { neutronToOsvifNetwork n with
    subnets := (neutronToOsvifNetwork n).subnets ++ [neutronToOsvifSubnet s] }

/-- The subnets of a pod, under their ids. -/
abbrev Subnets := Dict String Network

structure Port where
  id : String
  networkId : String
  fixedIps : List (String × Addr)
deriving DecidableEq, Repr

/-- The `IntegrityError`s. -/
inductive PortError where
  | network (portId networkId : String) (requestedNetworks : List String)
  | subnet (subnetId : String) (numSubnets : Nat)
  | noValidSubnets (portId : String)
  | mapping (numNetworks : Nat)
deriving DecidableEq, Repr

/-- The errors of `_make_vif_subnets`. -/
def PortError.of (portId : String) : IntegrityError → PortError
  | .subnets subnetId numSubnets => .subnet subnetId numSubnets
  | .noValidSubnets => .noValidSubnets portId

/-- The subnets of each network. -/
def subnetsOf (subnets : Subnets) : Dict String (List Subnet) where
  items := subnets.items.map fun e => (e.1, e.2.subnets)
  nodup := by
    rw [List.map_map]
    exact subnets.nodup

/-- `_make_vif_network` (155–190). -/
def makeVifNetwork (port : Port) (subnets : Subnets) : Except PortError Network :=
  match subnets.items.find? fun e => e.2.id = port.networkId with
  | none => .error (.network port.id port.networkId (subnets.items.map fun e => e.2.id))
  | some e =>
    match makeVifSubnets port.fixedIps (subnetsOf subnets) with
    | .ok vifSubnets => .ok { e.2 with subnets := vifSubnets }
    | .error err => .error (.of port.id err)

/-- The loop of `osvif_to_neutron_fixed_ips` for one network. -/
def networkFixedIps (e : String × List Subnet) : Except PortError (List (String × Option Addr)) :=
  if 1 < e.2.length then .error (.subnet e.1 e.2.length)
  else
    match e.2.flatMap Subnet.ips with
    | [] => .ok [(e.1, none)]
    | ips => .ok (ips.map fun ip => (e.1, some ip))

/-- `osvif_to_neutron_fixed_ips` (410–432). -/
def osvifToNeutronFixedIps (subnets : List (String × List Subnet)) :
    Except PortError (List (String × Option Addr)) := do
  let fixedIps ← each networkFixedIps subnets
  return fixedIps.flatten

/-- `get_network_id` (utils.py:41–50). -/
def getNetworkId (subnets : Subnets) : Except PortError String :=
  match (subnets.items.map fun e => e.2.id).dedup with
  | [id] => .ok id
  | ids => .error (.mapping ids.length)

/-! ### `get_pod_ip` -/

/-- How reading a path ends early. -/
inductive PathError where
  | keyError | indexError | typeError
deriving DecidableEq, Repr

def item (key : String) : Json → Except PathError Json
  | .map fields =>
    match fields.lookup key with
    | some j => .ok j
    | none => .error .keyError
  | _ => .error .typeError

def first : Json → Except PathError Json
  | .list (j :: _) => .ok j
  | .list [] => .error .indexError
  | _ => .error .typeError

/-- One VIF of the status of a KuryrPort. -/
structure StatusVif where
  ifname : String
  default : Bool
  vif : Json

/-- `get_pod_ip` (310–322); `vifs` is the field of the status, if there is a KuryrPort that has
it. -/
def getPodIp (vifs : Option (List StatusVif)) : Except PathError (Option Json) :=
  match (vifs.getD []).filter StatusVif.default with
  | [] => .ok none
  | v :: _ => do
    let network ← item vod v.vif >>= item "network"
    let subnets ← item vod network >>= item "subnets"
    let subnet ← item vod subnets >>= item "objects" >>= first
    let ips ← item vod subnet >>= item "ips"
    let ip ← item vod ips >>= item "objects" >>= first
    let address ← item vod ip >>= item "address"
    return some address

/-! ## Addresses that are filed -/

/-- The fixed IPs in subnets that were asked for. -/
def used (subnets : Dict String (List Subnet)) (fixedIps : List (String × Addr)) :
    List (String × Addr) :=
  fixedIps.filter fun e => (subnets.get? e.1).isSome

/-- The addresses of the filed subnets. -/
def addresses (d : Dict String Subnet) : List (String × Addr) :=
  d.items.flatMap fun e => e.2.ips.map (e.1, ·)

/-- What is filed under an id. -/
def filed (d : Dict String Subnet) (id : String) : List Addr := ((d.get? id).map Subnet.ips).getD []

section

variable {subnets : Dict String (List Subnet)} {acc out : Dict String Subnet}
  {fixedIps : List (String × Addr)}

theorem addresses_set (d : Dict String Subnet) (id : String) (s : Subnet) :
    (addresses (d.set id s)).Perm (s.ips.map (id, ·) ++ addresses (d.erase id)) := by
  have hp := (d.upsert_perm id fun _ => s).flatMap_right fun e => e.2.ips.map (e.1, ·)
  rwa [List.flatMap_cons] at hp

theorem addresses_split (d : Dict String Subnet) (id : String) :
    (addresses d).Perm ((filed d id).map (id, ·) ++ addresses (d.erase id)) := by
  unfold filed
  cases h : d.get? id with
  | none =>
    rw [Dict.erase_of_get?_none h]
    exact List.Perm.refl _
  | some s =>
    have hp := (Dict.perm_of_get? h).flatMap_right fun e => e.2.ips.map (e.1, ·)
    rwa [List.flatMap_cons] at hp

/-- No subnet is filed without an address, and each is that of a network with one subnet. -/
def Filed (subnets : Dict String (List Subnet)) (acc : Dict String Subnet) : Prop :=
  ∀ e ∈ acc.items, e.2.ips ≠ [] ∧
    ∃ s, subnets.get? e.1 = some [s] ∧ e.2 = { s with ips := e.2.ips }

/-- The subnet an address is filed in: the one at hand, or a new one. -/
theorem vifSubnet_ok {id : String} {network : List Subnet} {subnet : Subnet}
    (hacc : Filed subnets acc) (hnetwork : subnets.get? id = some network)
    (h : vifSubnet acc id network = .ok subnet) :
    ∃ s, network = [s] ∧ subnet = { s with ips := filed acc id } := by
  unfold vifSubnet at h
  unfold filed
  cases hget : acc.get? id with
  | some s =>
    rw [hget] at h
    cases h
    obtain ⟨s', hs', heq⟩ := (hacc (id, subnet) (Dict.get?_eq_some.mp hget)).2
    rw [hnetwork] at hs'
    cases hs'
    exact ⟨s', rfl, heq⟩
  | none =>
    rw [hget] at h
    match network, h with
    | [s], h =>
      cases h
      exact ⟨s, rfl, rfl⟩

/-- **One address.** -/
theorem addFixedIps_cons {id : String} {ip : Addr} {rest : List (String × Addr)}
    (hacc : Filed subnets acc) (h : addFixedIps subnets ((id, ip) :: rest) acc = .ok out) :
    (subnets.get? id = none ∧ addFixedIps subnets rest acc = .ok out) ∨
      ∃ s, subnets.get? id = some [s] ∧
        addFixedIps subnets rest (acc.set id { s with ips := filed acc id ++ [ip] }) = .ok out := by
  rw [addFixedIps] at h
  cases hget : subnets.get? id with
  | none =>
    rw [hget] at h
    exact .inl ⟨rfl, h⟩
  | some network =>
    rw [hget] at h
    obtain ⟨subnet, hsubnet, h⟩ := bind_eq_ok.mp h
    obtain ⟨s, rfl, rfl⟩ := vifSubnet_ok hacc hget hsubnet
    exact .inr ⟨s, rfl, h⟩

theorem Filed.set {id : String} {ip : Addr} {s : Subnet} (hacc : Filed subnets acc)
    (hs : subnets.get? id = some [s]) :
    Filed subnets (acc.set id { s with ips := filed acc id ++ [ip] }) := by
  intro e he
  rcases Dict.mem_items_upsert.mp he with rfl | ⟨he, -⟩
  · exact ⟨List.append_ne_nil_of_right_ne_nil _ (List.cons_ne_nil _ _), s, hs, rfl⟩
  · exact hacc e he

theorem used_cons_none {id : String} {ip : Addr} {rest : List (String × Addr)}
    (h : subnets.get? id = none) : used subnets ((id, ip) :: rest) = used subnets rest := by
  simp [used, h]

theorem used_cons_some {id : String} {ip : Addr} {rest : List (String × Addr)} {s : Subnet}
    (h : subnets.get? id = some [s]) :
    used subnets ((id, ip) :: rest) = (id, ip) :: used subnets rest := by
  simp [used, h]

/-- The loop, for what each address does to the filed ones. -/
theorem addFixedIps_induct {P : List (String × Addr) → Dict String Subnet → Prop}
    (hnone : ∀ {id ip rest acc}, subnets.get? id = none → P rest acc → P ((id, ip) :: rest) acc)
    (hsome : ∀ {id ip rest acc s}, Filed subnets acc → subnets.get? id = some [s] →
      P rest (acc.set id { s with ips := filed acc id ++ [ip] }) → P ((id, ip) :: rest) acc)
    (hnil : P [] out) : ∀ {fixedIps acc}, Filed subnets acc →
      addFixedIps subnets fixedIps acc = .ok out → P fixedIps acc ∧ Filed subnets out
  | [], acc, hacc, h => by
    cases h
    exact ⟨hnil, hacc⟩
  | (id, ip) :: rest, acc, hacc, h => by
    rcases addFixedIps_cons hacc h with ⟨hget, h⟩ | ⟨s, hget, h⟩
    · obtain ⟨hP, hout⟩ := addFixedIps_induct hnone hsome hnil hacc h
      exact ⟨hnone hget hP, hout⟩
    · obtain ⟨hP, hout⟩ := addFixedIps_induct hnone hsome hnil (hacc.set hget) h
      exact ⟨hsome hacc hget hP, hout⟩

theorem filed_of_addFixedIps (hacc : Filed subnets acc)
    (h : addFixedIps subnets fixedIps acc = .ok out) : Filed subnets out :=
  (addFixedIps_induct (P := fun _ _ => True) (fun _ _ => trivial) (fun _ _ _ => trivial) trivial
    hacc h).2

/-- **Every address is filed once.** -/
theorem addresses_addFixedIps (hacc : Filed subnets acc)
    (h : addFixedIps subnets fixedIps acc = .ok out) :
    (addresses out).Perm (addresses acc ++ used subnets fixedIps) := by
  refine (addFixedIps_induct (P := fun fixedIps acc =>
    (addresses out).Perm (addresses acc ++ used subnets fixedIps)) ?_ ?_ ?_ hacc h).1
  · intro id ip rest acc hget hP
    rwa [used_cons_none hget]
  · intro id ip rest acc s _ hget hP
    rw [used_cons_some hget]
    have hone : (addresses (acc.set id { s with ips := filed acc id ++ [ip] })).Perm
        ((id, ip) :: addresses acc) := by
      refine (addresses_set acc id _).trans
        (List.Perm.trans ?_ ((addresses_split acc id).symm.cons (id, ip)))
      rw [List.map_append, List.append_assoc]
      exact List.perm_middle
    exact (hP.trans (hone.append_right _)).trans List.perm_middle.symm
  · simp [used]

/-- **The addresses of a subnet stay in order.** -/
theorem filed_addFixedIps (id : String) (hacc : Filed subnets acc)
    (h : addFixedIps subnets fixedIps acc = .ok out) :
    filed out id =
      filed acc id ++ ((used subnets fixedIps).filter (·.1 = id)).map Prod.snd := by
  refine (addFixedIps_induct (P := fun fixedIps acc => filed out id =
    filed acc id ++ ((used subnets fixedIps).filter (·.1 = id)).map Prod.snd) ?_ ?_ ?_ hacc h).1
  · intro id' ip rest acc hget hP
    rwa [used_cons_none hget]
  · intro id' ip rest acc s _ hget hP
    rw [used_cons_some hget, hP]
    by_cases heq : id' = id
    · subst heq
      simp [filed, Dict.set, Dict.get?_upsert_self]
    · simp [filed, Dict.set, Dict.get?_upsert_of_ne _ _ (Ne.symm heq), heq]
  · simp [used]

/-- The first address of what is filed. -/
theorem head?_addresses_set {id : String} {ip : Addr} {s : Subnet} (hacc : Filed subnets acc) :
    (addresses (acc.set id { s with ips := filed acc id ++ [ip] })).head? =
      (addresses acc ++ [(id, ip)]).head? := by
  cases hitems : acc.items with
  | nil =>
    have hget : acc.get? id = none := by simp [Dict.get?, hitems]
    simp [addresses, Dict.set, Dict.upsert, Dict.upsertItems, hitems, filed, hget]
  | cons e rest =>
    obtain ⟨hne, -⟩ := hacc e (hitems ▸ List.mem_cons_self)
    obtain ⟨a, as, hips⟩ := List.exists_cons_of_ne_nil hne
    by_cases heq : e.1 = id
    · -- the first subnet gets another address, at its end
      have hget : acc.get? id = some e.2 := by simp [Dict.get?, hitems, heq]
      simp [addresses, Dict.set, Dict.upsert, Dict.upsertItems, hitems, filed, hget, heq, hips]
    · simp [addresses, Dict.set, Dict.upsert, Dict.upsertItems, hitems, heq, hips]

/-- **The first address stays the first.** -/
theorem head?_addFixedIps (hacc : Filed subnets acc)
    (h : addFixedIps subnets fixedIps acc = .ok out) :
    (addresses out).head? = (addresses acc ++ used subnets fixedIps).head? := by
  refine (addFixedIps_induct (P := fun fixedIps acc =>
    (addresses out).head? = (addresses acc ++ used subnets fixedIps).head?) ?_ ?_ ?_ hacc h).1
  · intro id ip rest acc hget hP
    rwa [used_cons_none hget]
  · intro id ip rest acc s hacc hget hP
    rw [used_cons_some hget, hP, List.head?_append, head?_addresses_set hacc, ← List.head?_append,
      List.append_assoc]
    rfl
  · simp [used]

/-! ## Which ports have a network -/

theorem filed_empty : Filed subnets .empty := fun _ he => absurd he List.not_mem_nil

/-- The loop ends unless a network has more or fewer subnets than one. -/
theorem exists_addFixedIps_iff : ∀ {fixedIps : List (String × Addr)} {acc : Dict String Subnet},
    Filed subnets acc → ((∃ out, addFixedIps subnets fixedIps acc = .ok out) ↔
      ∀ e ∈ used subnets fixedIps, ∃ s, subnets.get? e.1 = some [s])
  | [], acc, _ => by simp [addFixedIps, used]
  | (id, ip) :: rest, acc, hacc => by
    constructor
    · rintro ⟨out, h⟩
      rcases addFixedIps_cons hacc h with ⟨hget, h⟩ | ⟨s, hget, h⟩
      · rw [used_cons_none hget]
        exact (exists_addFixedIps_iff hacc).mp ⟨out, h⟩
      · rw [used_cons_some hget]
        exact List.forall_mem_cons.mpr
          ⟨⟨s, hget⟩, (exists_addFixedIps_iff (hacc.set hget)).mp ⟨out, h⟩⟩
    · intro h
      rw [addFixedIps]
      cases hget : subnets.get? id with
      | none =>
        rw [used_cons_none hget] at h
        exact (exists_addFixedIps_iff hacc).mpr h
      | some network =>
        have hmem : (id, ip) ∈ used subnets ((id, ip) :: rest) := by simp [used, hget]
        obtain ⟨s, hs⟩ := h _ hmem
        obtain rfl : network = [s] := Option.some.inj (hget.symm.trans hs)
        rw [used_cons_some hget] at h
        have hone : vifSubnet acc id [s] = .ok { s with ips := filed acc id } := by
          unfold vifSubnet filed
          cases hseen : acc.get? id with
          | none => rfl
          | some s' =>
            obtain ⟨s'', hs'', heq⟩ := (hacc (id, s') (Dict.get?_eq_some.mp hseen)).2
            rw [hget] at hs''
            cases hs''
            exact congrArg Except.ok heq
        obtain ⟨out, hout⟩ := (exists_addFixedIps_iff (hacc.set hget)).mpr
          fun e he => h e (List.mem_cons_of_mem _ he)
        exact ⟨out, bind_eq_ok.mpr ⟨_, hone, hout⟩⟩

/-- `_make_vif_subnets`, by what it files. -/
theorem makeVifSubnets_eq_ok {ss : List Subnet} : makeVifSubnets fixedIps subnets = .ok ss ↔
    ∃ out, addFixedIps subnets fixedIps .empty = .ok out ∧ out.items ≠ [] ∧
      ss = out.items.map Prod.snd := by
  constructor
  · intro h
    obtain ⟨out, hout, h⟩ := bind_eq_ok.mp h
    simp only at h
    split at h
    · cases h
    · next hne =>
      cases h
      exact ⟨out, hout, hne, rfl⟩
  · rintro ⟨out, hout, hne, rfl⟩
    refine bind_eq_ok.mpr ⟨out, hout, ?_⟩
    simp [hne]
    rfl

/-- Something is filed when some fixed IP is in a subnet that was asked for. -/
theorem items_ne_nil_iff (h : addFixedIps subnets fixedIps .empty = .ok out) :
    out.items ≠ [] ↔ used subnets fixedIps ≠ [] := by
  have hperm : (addresses out).Perm (used subnets fixedIps) :=
    addresses_addFixedIps filed_empty h
  have hout := filed_of_addFixedIps filed_empty h
  refine not_congr ⟨fun hnil => ?_, fun hnil => ?_⟩
  · have hnone : addresses out = [] := by simp [addresses, hnil]
    rw [hnone] at hperm
    exact hperm.symm.eq_nil
  · rw [hnil] at hperm
    cases hitems : out.items with
    | nil => rfl
    | cons e rest =>
      obtain ⟨hne, -⟩ := hout e (hitems ▸ List.mem_cons_self)
      have hnone := hperm.eq_nil
      simp only [addresses, hitems, List.flatMap_cons, List.append_eq_nil_iff,
        List.map_eq_nil_iff] at hnone
      exact absurd hnone.1 hne

end

/-- What `_make_vif_network` returns. -/
theorem makeVifNetwork_eq_ok {port : Port} {subnets : Subnets} {network : Network}
    (h : makeVifNetwork port subnets = .ok network) :
    ∃ e out, e ∈ subnets.items ∧ addFixedIps (subnetsOf subnets) port.fixedIps .empty = .ok out ∧
      out.items ≠ [] ∧ network = { e.2 with subnets := out.items.map Prod.snd } := by
  unfold makeVifNetwork at h
  split at h
  · cases h
  · next e hfind =>
    split at h
    · next ss hss =>
      cases h
      obtain ⟨out, hout, hne, rfl⟩ := makeVifSubnets_eq_ok.mp hss
      exact ⟨e, out, List.mem_of_find?_eq_some hfind, hout, hne, rfl⟩
    · cases h

/-- **The ports that have a network**: one of a network that was asked for, with a fixed IP in a
subnet that was asked for, where each such subnet is the only one of its network. -/
theorem makeVifNetwork_ok_iff (port : Port) (subnets : Subnets) :
    (∃ network, makeVifNetwork port subnets = .ok network) ↔
      (∃ e ∈ subnets.items, e.2.id = port.networkId) ∧
        used (subnetsOf subnets) port.fixedIps ≠ [] ∧
        ∀ f ∈ used (subnetsOf subnets) port.fixedIps,
          ∃ s, (subnetsOf subnets).get? f.1 = some [s] := by
  have hsubnets : (∃ ss, makeVifSubnets port.fixedIps (subnetsOf subnets) = .ok ss) ↔
      used (subnetsOf subnets) port.fixedIps ≠ [] ∧
        ∀ f ∈ used (subnetsOf subnets) port.fixedIps,
          ∃ s, (subnetsOf subnets).get? f.1 = some [s] := by
    rw [← exists_addFixedIps_iff filed_empty]
    constructor
    · rintro ⟨ss, hss⟩
      obtain ⟨out, hout, hne, -⟩ := makeVifSubnets_eq_ok.mp hss
      exact ⟨(items_ne_nil_iff hout).mp hne, out, hout⟩
    · rintro ⟨hne, out, hout⟩
      exact ⟨_, makeVifSubnets_eq_ok.mpr ⟨out, hout, (items_ne_nil_iff hout).mpr hne, rfl⟩⟩
  rw [← hsubnets]
  unfold makeVifNetwork
  cases hfind : subnets.items.find? fun e => e.2.id = port.networkId with
  | none =>
    have hnone := List.find?_eq_none.mp hfind
    constructor
    · rintro ⟨network, h⟩
      cases h
    · rintro ⟨⟨e, he, heq⟩, -⟩
      exact absurd heq (by simpa using hnone e he)
  | some e =>
    have hmem : ∃ e ∈ subnets.items, e.2.id = port.networkId :=
      ⟨e, List.mem_of_find?_eq_some hfind, by simpa using List.find?_some hfind⟩
    simp only [hmem, true_and]
    cases hmake : makeVifSubnets port.fixedIps (subnetsOf subnets) with
    | ok ss => simp
    | error err => simp

/-! ## There and back -/

/-- The addresses of one subnet. -/
theorem filter_addresses (d : Dict String Subnet) (id : String) :
    ((addresses d).filter (·.1 = id)).map Prod.snd = filed d id := by
  obtain ⟨items, hnd⟩ := d
  unfold addresses filed Dict.get?
  dsimp only
  induction items with
  | nil => rfl
  | cons e rest ih =>
    rw [List.map_cons, List.nodup_cons] at hnd
    rw [List.flatMap_cons, List.filter_append, List.map_append, ih hnd.2]
    by_cases heq : e.1 = id
    · have hnone : rest.find? (fun e => e.1 = id) = none := by
        refine List.find?_eq_none.mpr fun e' he' heq' => hnd.1 ?_
        rw [heq, ← (by simpa using heq' : e'.1 = id)]
        exact List.mem_map_of_mem he'
      simp [hnone, heq, List.filter_map, Function.comp_def]
    · simp [heq]

/-- **There and back**: the filed subnets, asked for again, have the fixed IPs of the port, apart
from those in other subnets; those of a subnet are in the same order. -/
theorem fixedIps_round_trip (fixedIps : List (String × Addr))
    (subnets : Dict String (List Subnet)) (out : Dict String Subnet)
    (h : addFixedIps subnets fixedIps .empty = .ok out) :
    ∃ rq, osvifToNeutronFixedIps (out.items.map fun e => (e.1, [e.2])) = .ok rq ∧
      rq.Perm ((used subnets fixedIps).map fun e => (e.1, some e.2)) ∧
      ∀ id, (rq.filter (·.1 = id)).map Prod.snd =
        ((used subnets fixedIps).filter (·.1 = id)).map fun e => some e.2 := by
  have hout := filed_of_addFixedIps filed_empty h
  have hone : ∀ items : List (String × Subnet), (∀ e ∈ items, e.2.ips ≠ []) →
      each networkFixedIps (items.map fun e => (e.1, [e.2])) =
        .ok (items.map fun e => e.2.ips.map fun ip => (e.1, some ip)) := by
    intro items hne
    induction items with
    | nil => rfl
    | cons e items ih =>
      obtain ⟨ip, ips, hips⟩ := List.exists_cons_of_ne_nil (hne e List.mem_cons_self)
      refine bind_eq_ok.mpr ⟨e.2.ips.map fun ip => (e.1, some ip), ?_, bind_eq_ok.mpr
        ⟨_, ih fun e' he' => hne e' (List.mem_cons_of_mem _ he'), rfl⟩⟩
      simp [networkFixedIps, hips]
  have hrq : (out.items.map fun e => e.2.ips.map fun ip => (e.1, some ip)).flatten =
      (addresses out).map fun e => (e.1, some e.2) := by
    simp [addresses, List.flatMap_def, List.map_flatten, Function.comp_def]
  refine ⟨(addresses out).map fun e => (e.1, some e.2), ?_, ?_, fun id => ?_⟩
  · rw [← hrq]
    exact bind_eq_ok.mpr ⟨_, hone out.items fun e he => (hout e he).1, rfl⟩
  · exact (addresses_addFixedIps filed_empty h).map _
  · have hfiled := filed_addFixedIps id filed_empty h
    rw [← filter_addresses] at hfiled
    have hsome := congrArg (List.map some) hfiled
    simpa [filed, Dict.get?, List.filter_map, Function.comp_def] using hsome

/-! ## From the request to the VIF -/

/-- The port has an address in every subnet of a request that names none. -/
def Answers (port : Port) (networkId : String) (rq : List (String × Option Addr)) : Prop :=
  port.networkId = networkId ∧ ∀ id, (id, none) ∈ rq → ∃ ip, (id, ip) ∈ port.fixedIps

/-- The mapping is made of networks as `get_subnet` returns them. -/
def Plain (subnets : Subnets) : Prop :=
  ∀ e ∈ subnets.items, ∃ s, e.2.subnets = [s] ∧ s.ips = []

theorem plain_getSubnet (s : NeutronSubnet) (n : NeutronNetwork) :
    ∃ s', (getSubnet s n).subnets = [s'] ∧ s'.ips = [] := ⟨neutronToOsvifSubnet s, rfl, rfl⟩

theorem get?_subnetsOf {subnets : Subnets} {id : String} {l : List Subnet} :
    (subnetsOf subnets).get? id = some l ↔ ∃ network, (id, network) ∈ subnets.items ∧
      network.subnets = l := by
  rw [Dict.get?_eq_some]
  simp only [subnetsOf, List.mem_map, Prod.mk.injEq]
  constructor
  · rintro ⟨e, he, rfl, rfl⟩
    exact ⟨e.2, he, rfl⟩
  · rintro ⟨network, hmem, rfl⟩
    exact ⟨_, hmem, rfl, rfl⟩

/-- The request names every subnet, and no address. -/
theorem request_of_plain {subnets : Subnets} {rq : List (String × Option Addr)}
    (hplain : Plain subnets) (h : osvifToNeutronFixedIps (subnetsOf subnets).items = .ok rq) :
    ∀ e ∈ subnets.items, (e.1, none) ∈ rq := by
  obtain ⟨parts, hparts, h⟩ := bind_eq_ok.mp h
  cases h
  intro e he
  obtain ⟨s, hs, hips⟩ := hplain e he
  have hin : (e.1, e.2.subnets) ∈ (subnetsOf subnets).items := List.mem_map.mpr ⟨e, he, rfl⟩
  have hone : networkFixedIps (e.1, e.2.subnets) = .ok [(e.1, none)] := by
    simp [networkFixedIps, hs, hips]
  exact List.mem_flatten.mpr ⟨_, mem_of_each_eq_ok hparts hin hone, List.mem_singleton.mpr rfl⟩

theorem mem_keys_of_getNetworkId {subnets : Subnets} {networkId : String}
    (h : getNetworkId subnets = .ok networkId) :
    ∀ e ∈ subnets.items, e.2.id = networkId := by
  unfold getNetworkId at h
  split at h
  · next id hids =>
    cases h
    intro e he
    have hin : e.2.id ∈ (subnets.items.map fun e => e.2.id).dedup :=
      List.mem_dedup.mpr (List.mem_map_of_mem he)
    rw [hids] at hin
    exact List.mem_singleton.mp hin
  · cases h

theorem items_ne_nil_of_getNetworkId {subnets : Subnets} {networkId : String}
    (h : getNetworkId subnets = .ok networkId) : subnets.items ≠ [] := by
  intro hnil
  simp [getNetworkId, hnil, List.dedup_nil] at h

theorem mem_keys_subnetsOf {subnets : Subnets} {id : String} :
    ((subnetsOf subnets).get? id).isSome ↔ id ∈ subnets.keys := by
  rw [Option.isSome_iff_exists, Dict.mem_keys]
  constructor
  · rintro ⟨l, h⟩
    obtain ⟨network, hmem, -⟩ := get?_subnetsOf.mp h
    exact ⟨network, hmem⟩
  · rintro ⟨network, hmem⟩
    exact ⟨_, get?_subnetsOf.mpr ⟨network, hmem, rfl⟩⟩

/-- The subnets that are filed: those with an address of the port. -/
theorem mem_keys_addFixedIps {subnets : Dict String (List Subnet)}
    {fixedIps : List (String × Addr)} {out : Dict String Subnet} {id : String}
    (h : addFixedIps subnets fixedIps .empty = .ok out) :
    id ∈ out.keys ↔ ∃ ip, (id, ip) ∈ used subnets fixedIps := by
  have hperm : (addresses out).Perm (used subnets fixedIps) :=
    addresses_addFixedIps filed_empty h
  have hout := filed_of_addFixedIps filed_empty h
  simp only [← hperm.mem_iff, Dict.mem_keys, addresses, List.mem_flatMap, List.mem_map]
  constructor
  · rintro ⟨s, hs⟩
    obtain ⟨ip, ips, hips⟩ := List.exists_cons_of_ne_nil (hout _ hs).1
    exact ⟨ip, (id, s), hs, ip, hips ▸ List.mem_cons_self, rfl⟩
  · rintro ⟨ip, e, he, ip', -, heq⟩
    cases heq
    exact ⟨e.2, he⟩

/-- **From the request to the VIF**: a port that answers the request of `_get_port_request` has a
network, the one asked for, with every subnet that was asked for. -/
theorem makeVifNetwork_of_request (subnets : Subnets) (networkId : String)
    (rq : List (String × Option Addr)) (port : Port) (hplain : Plain subnets)
    (hnetwork : getNetworkId subnets = .ok networkId)
    (hrq : osvifToNeutronFixedIps (subnetsOf subnets).items = .ok rq)
    (hport : Answers port networkId rq) :
    ∃ network out, makeVifNetwork port subnets = .ok network ∧ network.id = networkId ∧
      addFixedIps (subnetsOf subnets) port.fixedIps .empty = .ok out ∧
      network.subnets = out.items.map Prod.snd ∧ out.keys.Perm subnets.keys := by
  have hids := mem_keys_of_getNetworkId hnetwork
  have hused : ∀ e ∈ subnets.items, ∃ ip, (e.1, ip) ∈ used (subnetsOf subnets) port.fixedIps := by
    intro e he
    obtain ⟨ip, hip⟩ := hport.2 e.1 (request_of_plain hplain hrq e he)
    exact ⟨ip, List.mem_filter.mpr
      ⟨hip, mem_keys_subnetsOf.mpr (Dict.mem_keys.mpr ⟨e.2, he⟩)⟩⟩
  obtain ⟨e, rest, hitems⟩ := List.exists_cons_of_ne_nil (items_ne_nil_of_getNetworkId hnetwork)
  have he : e ∈ subnets.items := hitems ▸ List.mem_cons_self
  have hsome : used (subnetsOf subnets) port.fixedIps ≠ [] := by
    obtain ⟨ip, hip⟩ := hused e he
    exact List.ne_nil_of_mem hip
  have hsingle : ∀ f ∈ used (subnetsOf subnets) port.fixedIps,
      ∃ s, (subnetsOf subnets).get? f.1 = some [s] := by
    intro f hf
    obtain ⟨n, hn⟩ := Dict.mem_keys.mp (mem_keys_subnetsOf.mp (List.mem_filter.mp hf).2)
    obtain ⟨s, hs, -⟩ := hplain _ hn
    exact ⟨s, get?_subnetsOf.mpr ⟨n, hn, hs⟩⟩
  obtain ⟨network, hok⟩ := (makeVifNetwork_ok_iff port subnets).mpr
    ⟨⟨e, he, (hids e he).trans hport.1.symm⟩, hsome, hsingle⟩
  obtain ⟨e', out, he', hout, -, rfl⟩ := makeVifNetwork_eq_ok hok
  refine ⟨_, out, hok, hids e' he', hout, rfl, ?_⟩
  refine (List.perm_ext_iff_of_nodup out.nodup subnets.nodup).mpr fun id => ?_
  refine (mem_keys_addFixedIps hout).trans ⟨?_, fun hid => ?_⟩
  · rintro ⟨ip, hip⟩
    exact mem_keys_subnetsOf.mp (List.mem_filter.mp hip).2
  · obtain ⟨n, hn⟩ := Dict.mem_keys.mp hid
    exact hused _ hn

/-! ## `get_pod_ip` reads it -/

/-- The path of `get_pod_ip` in the tree of a VIF with an address in its first subnet. -/
theorem getPodIp_toPrimitive {v : Vif} {s : Subnet} {rest : List Subnet} {ip : Addr}
    {ips : List Addr} {vifs : List StatusVif} {w : StatusVif} {ws : List StatusVif}
    (hv : v.subnets = s :: rest) (hs : s.ips = ip :: ips)
    (hvifs : vifs.filter StatusVif.default = w :: ws) (hw : w.vif = v.toPrimitive) :
    getPodIp (some vifs) = .ok (some (.str (.addr ip))) := by
  obtain ⟨address, vifName, vsubnets⟩ := v
  obtain ⟨cidr, dns, gateway, routes, sips⟩ := s
  obtain rfl : vsubnets = _ := hv
  obtain rfl : sips = _ := hs
  unfold getPodIp
  simp only [Option.getD_some, hvifs, hw]
  -- the path is read whether there is a gateway before it or not
  cases gateway <;> rfl

/-- **`get_pod_ip` reads the first address**: for a VIF with the network of a port it does not
fail, and gives the first fixed IP of the port in a subnet that was asked for. -/
theorem getPodIp_of_port (port : Port) (subnets : Subnets) (network : Network) (v : Vif)
    (vifs : List StatusVif) (w : StatusVif) (ws : List StatusVif)
    (hnetwork : makeVifNetwork port subnets = .ok network) (hv : v.subnets = network.subnets)
    (hvifs : vifs.filter StatusVif.default = w :: ws) (hw : w.vif = v.toPrimitive) :
    ∃ id ip, (used (subnetsOf subnets) port.fixedIps).head? = some (id, ip) ∧
      getPodIp (some vifs) = .ok (some (.str (.addr ip))) := by
  obtain ⟨_, out, -, hout, hne, rfl⟩ := makeVifNetwork_eq_ok hnetwork
  obtain ⟨e, rest, hitems⟩ := List.exists_cons_of_ne_nil hne
  obtain ⟨ip, ips, hips⟩ := List.exists_cons_of_ne_nil
    (filed_of_addFixedIps filed_empty hout e (hitems ▸ List.mem_cons_self)).1
  have hhead := head?_addFixedIps filed_empty hout
  have hfirst : v.subnets = e.2 :: rest.map Prod.snd := by
    rw [hv, hitems]
    rfl
  refine ⟨e.1, ip, ?_, getPodIp_toPrimitive hfirst hips hvifs hw⟩
  rw [addresses, hitems] at hhead
  simpa [hips, addresses, Dict.empty] using hhead.symm

/-! ### A port with three addresses -/

/-- Two subnets of a network, the second without a gateway. -/
def webSubnets : Subnets where
  items := [("s1", getSubnet (podSubnet (some (.v4 0x0a000001))) ⟨"n1", none, none, none, none⟩),
    ("s2", getSubnet (podSubnet none) ⟨"n1", none, none, none, none⟩)]
  nodup := by decide

/-- A port with an address outside of the two, which comes first. -/
def webPort : Port where
  id := "p1"
  networkId := "n1"
  fixedIps := [("s3", .v4 0x0a000309), ("s2", .v4 0x0a000205), ("s1", .v4 0x0a000105),
    ("s2", .v4 0x0a000206)]

/-- The port has the addresses that are not in `s3`, those of `s2` in their order. -/
theorem fixedIps_round_trip_web :
    ∃ out, addFixedIps (subnetsOf webSubnets) webPort.fixedIps .empty = .ok out ∧
      ∃ rq, osvifToNeutronFixedIps (out.items.map fun e => (e.1, [e.2])) = .ok rq ∧
        rq.Perm ((used (subnetsOf webSubnets) webPort.fixedIps).map fun e => (e.1, some e.2)) ∧
        ∀ id, (rq.filter (·.1 = id)).map Prod.snd =
          ((used (subnetsOf webSubnets) webPort.fixedIps).filter (·.1 = id)).map fun e =>
            some e.2 :=
  ⟨_, rfl, fixedIps_round_trip _ _ _ rfl⟩

/-- The request for the two subnets, and the network of the port. -/
theorem makeVifNetwork_of_request_web :
    ∃ rq, osvifToNeutronFixedIps (subnetsOf webSubnets).items = .ok rq ∧
      rq = [("s1", none), ("s2", none)] ∧
      ∃ network out, makeVifNetwork webPort webSubnets = .ok network ∧ network.id = "n1" ∧
        addFixedIps (subnetsOf webSubnets) webPort.fixedIps .empty = .ok out ∧
        network.subnets = out.items.map Prod.snd ∧ out.keys.Perm webSubnets.keys := by
  refine ⟨_, rfl, rfl, makeVifNetwork_of_request webSubnets "n1" [("s1", none), ("s2", none)]
    webPort ?_ rfl rfl ⟨rfl, ?_⟩⟩
  · intro e he
    rcases List.mem_cons.mp he with rfl | he
    · exact plain_getSubnet _ _
    · rw [List.mem_singleton.mp he]
      exact plain_getSubnet _ _
  · intro id hid
    rcases List.mem_cons.mp hid with heq | hid
    · cases heq
      exact ⟨.v4 0x0a000105, by decide⟩
    · cases List.mem_singleton.mp hid
      exact ⟨.v4 0x0a000205, by decide⟩

/-- A KuryrPort with an additional VIF before the default one. -/
theorem getPodIp_of_port_web :
    ∃ network, makeVifNetwork webPort webSubnets = .ok network ∧
      ∃ id ip, (used (subnetsOf webSubnets) webPort.fixedIps).head? = some (id, ip) ∧
        getPodIp (some [⟨"eth1", false, .list []⟩,
            ⟨"eth0", true, (⟨"fa:16:3e:00:00:01", "tap1", network.subnets⟩ : Vif).toPrimitive⟩]) =
          .ok (some (.str (.addr ip))) :=
  ⟨_, rfl, getPodIp_of_port webPort webSubnets _ ⟨"fa:16:3e:00:00:01", "tap1", _⟩ _ _ _ rfl rfl rfl
    rfl⟩

end PortAddresses

end KuryrKubernetes
