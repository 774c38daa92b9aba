import Mathlib.Algebra.GroupWithZero.Nat
import KuryrKubernetes.Lib.Result
import KuryrKubernetes.Lib.Dict

/-!
# The two CNI front ends

The daemon answers an ADD with a VIF as a versioned object, a JSON tree in which fields
that are not set are left out. `CNIRunner._vif_data` reads it as an object again; the Go
plugin walks the tree (`UnmarshalOVO`) and then builds its result (`cmdAdd`).

- `Json`: the tree. Its texts are modelled by what they stand for (`Word`), since both
  sides leave reading and writing addresses to their libraries; `Addr` keeps apart what Go
  does not, an IPv4 address and the IPv6 address it is mapped to.
- `Stop.panic`: a Go panic, of a type assertion or an index.

They agree on the VIFs whose subnets are all `Agreeable`, and on no others.
-/

namespace KuryrKubernetes

namespace FrontEnds

open Dicts Results

/-! ## Addresses -/

inductive Addr where
  | v4 (a : BitVec 32)
  | v6 (a : BitVec 128)
deriving DecidableEq, Repr

def Addr.width : Addr → Nat
  | .v4 _ => 32
  | .v6 _ => 128

def Addr.version : Addr → Nat
  | .v4 _ => 4
  | .v6 _ => 6

/-- An address with a prefix length; bits behind the prefix may be set. -/
structure Net where
  addr : Addr
  prefixlen : Nat
  le : prefixlen ≤ addr.width
deriving DecidableEq, Repr

/-- The bits of the network. -/
def clearHost {w : Nat} (a : BitVec w) (n : Nat) : BitVec w :=
  BitVec.ofNat w (a.toNat / 2 ^ (w - n) * 2 ^ (w - n))

/-! ### Go's `net.IP` -/

/-- The 16 bytes of a `net.IP`. -/
abbrev Ip16 := BitVec 128

def Addr.to16 : Addr → Ip16
  | .v4 a => BitVec.ofNat 128 (0xffff * 2 ^ 32 + a.toNat)
  | .v6 a => a

/-- The first twelve bytes are those of a mapped IPv4 address. -/
def Mapped (x : Ip16) : Prop := x.toNat / 2 ^ 32 = 0xffff

instance (x : Ip16) : Decidable (Mapped x) := inferInstanceAs (Decidable (_ = _))

/-- `IP.To4`. -/
def to4 (x : Ip16) : Option (BitVec 32) := if Mapped x then some (BitVec.ofNat 32 x.toNat) else none

/-- `IP.String`: what the text stands for. -/
def showIp (x : Ip16) : Addr :=
  match to4 x with
  | some a => .v4 a
  | none => .v6 x

/-! ## Versioned objects -/

/-- A text, by what it stands for. -/
inductive Word where
  | addr (a : Addr)
  | net (n : Net)
  | name (s : String)
deriving DecidableEq, Repr

inductive Json where
  | str (w : Word)
  | list (js : List Json)
  | map (fields : List (String × Json))

structure Route where
  cidr : Net
  gateway : Addr
deriving DecidableEq, Repr

/-- An os-vif subnet; `gateway` may be unset. -/
structure Subnet where
  cidr : Net
  dns : List Addr
  gateway : Option Addr
  routes : List Route
  ips : List Addr
deriving DecidableEq, Repr

structure Vif where
  address : String
  vifName : String
  subnets : List Subnet
deriving DecidableEq, Repr

/-! ### From Neutron -/

structure NeutronSubnet where
  cidr : Net
  dnsNameservers : List Addr
  gatewayIp : Option Addr
  hostRoutes : List Route

/-- `neutron_to_osvif_subnet`. -/
def neutronToOsvifSubnet (s : NeutronSubnet) : Subnet where
  cidr := s.cidr
  dns := s.dnsNameservers
  gateway := s.gatewayIp
  routes := s.hostRoutes
  ips := []

/-- `IntegrityError`. -/
inductive IntegrityError where
  | subnets (subnetId : String) (numSubnets : Nat)
  | noValidSubnets
deriving DecidableEq, Repr

/-- `_make_vif_subnet`: the one subnet of the network under the id, without addresses. -/
def makeVifSubnet (subnetId : String) (network : List Subnet) : Except IntegrityError Subnet :=
  match network with
  | [s] => .ok { s with ips := [] }
  | _ => .error (.subnets subnetId network.length)

/-- The subnet in `vif_subnets`, or a new one. -/
def vifSubnet (acc : Dict String Subnet) (subnetId : String) (network : List Subnet) :
    Except IntegrityError Subnet :=
  match acc.get? subnetId with
  | some s => .ok s
  | none => makeVifSubnet subnetId network

/-- The loop of `_make_vif_subnets` over the fixed IPs; `acc` is `vif_subnets`. -/
def addFixedIps (subnets : Dict String (List Subnet)) :
    List (String × Addr) → Dict String Subnet → Except IntegrityError (Dict String Subnet)
  | [], acc => .ok acc
  | (id, ip) :: rest, acc =>
    match subnets.get? id with
    | none => addFixedIps subnets rest acc
    | some network => do
      let subnet ← vifSubnet acc id network
      addFixedIps subnets rest (acc.set id { subnet with ips := subnet.ips ++ [ip] })

/-- `_make_vif_subnets`. -/
def makeVifSubnets (fixedIps : List (String × Addr)) (subnets : Dict String (List Subnet)) :
    Except IntegrityError (List Subnet) := do
  let vifSubnets ← addFixedIps subnets fixedIps .empty
  if vifSubnets.items = [] then throw .noValidSubnets
  return vifSubnets.items.map Prod.snd

/-! ### `obj_to_primitive` -/

def vod : String := "versioned_object.data"

/-- The levels around the data of an object. -/
def primitive (name : String) (data : List (String × Json)) : Json :=
  .map [("versioned_object.name", .str (.name name)),
    ("versioned_object.namespace", .str (.name "os_vif")),
    ("versioned_object.version", .str (.name "1.0")), (vod, .map data)]

/-- A list object. -/
def primitiveList (name : String) (objects : List Json) : Json :=
  primitive name [("objects", .list objects)]

def Route.toPrimitive (r : Route) : Json :=
  primitive "Route" [("cidr", .str (.net r.cidr)), ("gateway", .str (.addr r.gateway))]

def ipToPrimitive (ip : Addr) : Json := primitive "FixedIP" [("address", .str (.addr ip))]

def Subnet.toPrimitive (s : Subnet) : Json :=
  primitive "Subnet" (
    [("cidr", .str (.net s.cidr)), ("dns", .list (s.dns.map fun a => .str (.addr a)))] ++
    (match s.gateway with
      | some g => [("gateway", .str (.addr g))]
      | none => []) ++
    [("ips", primitiveList "FixedIPList" (s.ips.map ipToPrimitive)),
      ("routes", primitiveList "RouteList" (s.routes.map Route.toPrimitive))])

def Vif.toPrimitive (v : Vif) : Json :=
  primitive "VIF"
    [("address", .str (.name v.address)),
      ("network", primitive "Network"
        [("subnets", primitiveList "SubnetList" (v.subnets.map Subnet.toPrimitive))]),
      ("vif_name", .str (.name v.vifName))]

/-! ## Results -/

structure IpConfig where
  version : Nat
  address : Addr
  prefixlen : Nat
  gateway : Option Addr
deriving DecidableEq, Repr

/-- A route of a result: destination and gateway. -/
structure RouteOut where
  dst : Addr
  prefixlen : Nat
  gw : Addr
deriving DecidableEq, Repr

/-- What one subnet adds to the result. -/
structure Part where
  ip : IpConfig
  routes : List RouteOut
  dns : List Word
deriving DecidableEq, Repr

structure CniResult where
  ifname : String
  mac : Word
  ips : List IpConfig
  routes : List RouteOut
  dns : List Word
deriving DecidableEq, Repr

def assemble (ifname : String) (mac : Word) (parts : List Part) : CniResult where
  ifname := ifname
  mac := mac
  ips := parts.map Part.ip
  routes := parts.flatMap Part.routes
  dns := parts.flatMap Part.dns

/-! ## `CNIRunner._vif_data` -/

inductive PyError where
  | indexError
  | notImplementedError
deriving DecidableEq, Repr

/-- `hasattr(subnet, 'gateway')`. Whether an unset field is an `AttributeError`, which
`hasattr` takes for "no", or is raised, is up to the library. -/
def hasGateway (unsetRaises : Bool) (s : Subnet) : Except PyError (Option Addr) :=
  match s.gateway with
  | some g => .ok (some g)
  | none => if unsetRaises then .error .notImplementedError else .ok none

/-- The loop of `_vif_data` for one subnet. -/
def vifDataPart (unsetRaises : Bool) (s : Subnet) : Except PyError Part :=
  match s.ips with
  | [] => .error .indexError
  | ip :: _ => do
    let gateway ← hasGateway unsetRaises s
    return {
      ip := ⟨ip.version, ip, s.cidr.prefixlen, gateway⟩
      routes := s.routes.map fun r => ⟨r.cidr.addr, r.cidr.prefixlen, r.gateway⟩
      dns := s.dns.map Word.addr }

/-- `_vif_data`. -/
def vifData (unsetRaises : Bool) (ifname : String) (v : Vif) : Except PyError CniResult := do
  let parts ← each (vifDataPart unsetRaises) v.subnets
  return assemble ifname (.name v.address) parts

/-! ## The Go plugin -/

/-- How a run of the plugin ends without a result. -/
inductive Stop where
  | panic
  /-- `json.Unmarshal` returns an error -/
  | unmarshal
  /-- `ErrParsing` -/
  | parsing (w : Word)
deriving DecidableEq, Repr

abbrev Go := Except Stop

/-- `.(map[string]interface{})`. -/
def asMap : Option Json → Go (List (String × Json))
  | some (.map m) => .ok m
  | _ => .error .panic

/-- `.(string)`. -/
def asString : Option Json → Go Word
  | some (.str w) => .ok w
  | _ => .error .panic

/-- `.([]interface{})`. -/
def asSlice : Option Json → Go (List Json)
  | some (.list js) => .ok js
  | _ => .error .panic

/-- The start of `UnmarshalOVO`: the map under `versioned_object.data`. -/
def ovoData : Json → Go (List (String × Json))
  | .map m => asMap (m.lookup vod)
  | _ => .error .unmarshal

/-- A field that is a slice: a plain list, or the `objects` two levels down. -/
def sliceField (d : List (String × Json)) (key : String) : Go (List Json) :=
  match d.lookup key with
  | some (.list js) => .ok js
  | v => do
    let listObj ← asMap v
    let listData ← asMap (listObj.lookup vod)
    asSlice (listData.lookup "objects")

/-- An element of a `[]string`. -/
def unmarshalString : Json → Go Word
  | .str w => .ok w
  | _ => .error .unmarshal

/-- The structs of the plugin. -/
structure GoRoute where
  cidr : Word
  gateway : Word

structure GoSubnet where
  routes : List GoRoute
  ips : List Word
  cidr : Word
  gateway : Word
  dns : List Word

structure GoVif where
  network : List GoSubnet
  address : Word
  vifName : Word

/-- `UnmarshalOVO` of a `Route`. -/
def unmarshalRoute (j : Json) : Go GoRoute := do
  let d ← ovoData j
  let cidr ← asString (d.lookup "cidr")
  let gateway ← asString (d.lookup "gateway")
  return ⟨cidr, gateway⟩

/-- `UnmarshalOVO` of an `IP`. -/
def unmarshalIp (j : Json) : Go Word := do
  let d ← ovoData j
  asString (d.lookup "address")

/-- `UnmarshalOVO` of a `Subnet`. -/
def unmarshalSubnet (j : Json) : Go GoSubnet := do
  let d ← ovoData j
  let routes ← each unmarshalRoute (← sliceField d "routes")
  let ips ← each unmarshalIp (← sliceField d "ips")
  let cidr ← asString (d.lookup "cidr")
  let gateway ← asString (d.lookup "gateway")
  let dns ← each unmarshalString (← sliceField d "dns")
  return ⟨routes, ips, cidr, gateway, dns⟩

/-- `UnmarshalOVO` of a `Network`; without one the zero value stays. -/
def unmarshalNetwork : Option Json → Go (List GoSubnet)
  | none => .ok []
  | some j => do
    let d ← ovoData j
    each unmarshalSubnet (← sliceField d "subnets")

/-- `UnmarshalOVO` of a `VIF`. -/
def unmarshalVif (j : Json) : Go GoVif := do
  let d ← ovoData j
  let network ← unmarshalNetwork (d.lookup "network")
  let address ← asString (d.lookup "address")
  let vifName ← asString (d.lookup "vif_name")
  return ⟨network, address, vifName⟩

/-- `net.ParseIP`. -/
def parseIp : Word → Option Ip16
  | .addr a => some a.to16
  | _ => none

/-- A `net.IPNet`, with 4 or with 16 bytes. -/
inductive IpNet where
  | four (a : BitVec 32) (n : Nat)
  | sixteen (a : Ip16) (n : Nat)

def Net.toIpNet (n : Net) : IpNet :=
  match n.addr with
  | .v4 a => .four (clearHost a n.prefixlen) n.prefixlen
  | .v6 a => .sixteen (clearHost a n.prefixlen) n.prefixlen

/-- The network of `net.ParseCIDR`. -/
def parseCidr : Word → Option IpNet
  | .net n => some n.toIpNet
  | _ => none

/-- `Mask.Size`. -/
def IpNet.size : IpNet → Nat
  | .four _ n => n
  | .sixteen _ n => n

/-- `IPNet.String`: a mapped address is shown with the mask of its last four bytes. -/
def IpNet.show : IpNet → Addr × Nat
  | .four a n => (.v4 a, n)
  | .sixteen a n =>
    match to4 a with
    | some a => (.v4 a, n - 96)
    | none => (.v6 a, n)

/-- The route of `cmdAdd`. -/
def cmdAddRoute (r : GoRoute) : Go RouteOut :=
  match parseCidr r.cidr with
  | none => .error (.parsing r.cidr)
  | some dst =>
    match parseIp r.gateway with
    | none => .error (.parsing r.gateway)
    | some gw => .ok ⟨dst.show.1, dst.show.2, showIp gw⟩

/-- The loop of `cmdAdd` for one subnet. -/
def cmdAddPart (s : GoSubnet) : Go Part :=
  match s.ips with
  | [] => .error .panic
  | ip :: _ =>
    match parseIp ip with
    | none => .error (.parsing ip)
    | some addr =>
      match parseCidr s.cidr with
      | none => .error (.parsing s.cidr)
      | some cidr =>
        -- the address is written and parsed again, with the mask of the subnet
        if (showIp addr).width < cidr.size then .error (.parsing ip)
        else do
          let routes ← each cmdAddRoute s.routes
          return {
            ip := ⟨if (to4 addr).isNone then 6 else 4, showIp addr, cidr.size,
              (parseIp s.gateway).map showIp⟩
            routes := routes
            dns := s.dns }

/-- `cmdAdd` on the answer of the daemon. -/
def cmdAdd (ifname : String) (body : Json) : Go CniResult := do
  let vif ← unmarshalVif body
  let parts ← each cmdAddPart vif.network
  return assemble ifname vif.address parts

/-! ## Addresses on both sides -/

/-- Not an IPv6 address that Go takes for an IPv4 address. -/
def Addr.Plain : Addr → Prop
  | .v4 _ => True
  | .v6 a => ¬ Mapped a

/-- No bit behind the prefix is set. -/
def Net.Canonical (n : Net) : Prop :=
  match n.addr with
  | .v4 a => clearHost a n.prefixlen = a
  | .v6 a => clearHost a n.prefixlen = a

/-- What both front ends make the same of. -/
structure Agreeable (s : Subnet) : Prop where
  gateway : ∃ g, s.gateway = some g ∧ g.Plain
  ip : ∀ ip, s.ips.head? = some ip → ip.Plain
  routes : ∀ r ∈ s.routes, r.gateway.Plain ∧ r.cidr.addr.Plain ∧ r.cidr.Canonical

theorem to16_v4_toNat (a : BitVec 32) : (Addr.v4 a).to16.toNat = 0xffff * 2 ^ 32 + a.toNat := by
  have ha := a.isLt
  rw [Addr.to16, BitVec.toNat_ofNat]
  omega

theorem to4_to16 (a : Addr) : to4 a.to16 = none ↔ a.version = 6 ∧ a.Plain := by
  unfold to4
  cases a with
  | v4 a =>
    have hmapped : Mapped (Addr.v4 a).to16 := by
      have ha := a.isLt
      rw [Mapped, to16_v4_toNat]
      omega
    rw [if_pos hmapped]
    constructor
    · nofun
    · rintro ⟨h, _⟩
      cases h
  | v6 a =>
    show (if Mapped a then _ else none) = none ↔ _
    constructor
    · intro h
      refine ⟨rfl, fun hmapped => ?_⟩
      rw [if_pos hmapped] at h
      cases h
    · rintro ⟨_, hplain⟩
      rw [if_neg hplain]

/-- Go writes the address it has read, unless it is mapped. -/
theorem showIp_to16 (a : Addr) : showIp a.to16 = a ↔ a.Plain := by
  unfold showIp to4
  cases a with
  | v4 a =>
    have ha := a.isLt
    have hmapped : Mapped (Addr.v4 a).to16 := by
      rw [Mapped, to16_v4_toNat]
      omega
    have hlow : BitVec.ofNat 32 (Addr.v4 a).to16.toNat = a := by
      refine BitVec.eq_of_toNat_eq ?_
      rw [BitVec.toNat_ofNat, to16_v4_toNat]
      omega
    rw [if_pos hmapped, hlow]
    exact ⟨fun _ => trivial, fun _ => rfl⟩
  | v6 a =>
    show (match (if Mapped a then _ else none : Option (BitVec 32)) with
      | some a => Addr.v4 a
      | none => Addr.v6 a) = Addr.v6 a ↔ ¬ Mapped a
    split
    · rename_i hsome
      constructor
      · nofun
      · intro hplain
        rw [if_neg hplain] at hsome
        cases hsome
    · rename_i hnone
      refine ⟨fun _ hmapped => ?_, fun _ => rfl⟩
      rw [if_pos hmapped] at hnone
      cases hnone

theorem toIpNet_size (n : Net) : n.toIpNet.size = n.prefixlen := by
  unfold Net.toIpNet
  split
  · rfl
  · rfl

/-- Go writes the network it has read, unless it is mapped or has bits to clear. -/
theorem show_toIpNet (n : Net) :
    n.toIpNet.show = (n.addr, n.prefixlen) ↔ n.addr.Plain ∧ n.Canonical := by
  obtain ⟨addr, len, hle⟩ := n
  cases addr with
  | v4 a =>
    show (Addr.v4 (clearHost a len), len) = (Addr.v4 a, len) ↔ True ∧ clearHost a len = a
    constructor
    · intro h
      exact ⟨trivial, Addr.v4.inj (Prod.mk.inj h).1⟩
    · rintro ⟨_, h⟩
      rw [h]
  | v6 a =>
    show IpNet.show (.sixteen (clearHost a len) len) = (Addr.v6 a, len) ↔
      ¬ Mapped a ∧ clearHost a len = a
    by_cases hmapped : Mapped (clearHost a len)
    · simp only [IpNet.show, to4, if_pos hmapped]
      constructor
      · intro h
        cases (Prod.mk.inj h).1
      · rintro ⟨hplain, heq⟩
        rw [heq] at hmapped
        exact absurd hmapped hplain
    · simp only [IpNet.show, to4, if_neg hmapped]
      constructor
      · intro h
        have heq : clearHost a len = a := Addr.v6.inj (Prod.mk.inj h).1
        rw [heq] at hmapped
        exact ⟨hmapped, heq⟩
      · rintro ⟨_, heq⟩
        rw [heq]

/-! ## One subnet on both sides -/

section

variable {s : Subnet} {unsetRaises : Bool}

/-- The subnet as the plugin has it, with its gateway. -/
def goSubnet (s : Subnet) (g : Addr) : GoSubnet where
  routes := s.routes.map fun r => ⟨.net r.cidr, .addr r.gateway⟩
  ips := s.ips.map Word.addr
  cidr := .net s.cidr
  gateway := .addr g
  dns := s.dns.map Word.addr

/-- `UnmarshalOVO` reads a gateway, or panics. -/
theorem unmarshalSubnet_eq (s : Subnet) : unmarshalSubnet s.toPrimitive =
    match s.gateway with
    | some g => .ok (goSubnet s g)
    | none => .error .panic := by
  have hroutes : each unmarshalRoute (s.routes.map Route.toPrimitive) =
      .ok (s.routes.map fun r => ⟨.net r.cidr, .addr r.gateway⟩) := by
    rw [each_map]
    exact each_ok fun _ => rfl
  have hips : each unmarshalIp (s.ips.map ipToPrimitive) = .ok (s.ips.map Word.addr) := by
    rw [each_map]
    exact each_ok fun _ => rfl
  have hdns : each unmarshalString (s.dns.map fun a => .str (.addr a)) =
      .ok (s.dns.map Word.addr) := by
    rw [each_map]
    exact each_ok fun _ => rfl
  unfold unmarshalSubnet Subnet.toPrimitive
  cases hgateway : s.gateway with
  | none =>
    show (each unmarshalRoute _ >>= fun _ => each unmarshalIp _ >>= fun _ => _) = _
    rw [hroutes, hips]
    rfl
  | some g =>
    show (each unmarshalRoute _ >>= fun _ => each unmarshalIp _ >>= fun _ => _) = _
    rw [hroutes, hips]
    show (each unmarshalString _ >>= fun _ => _) = _
    rw [hdns]
    rfl

/-- The plugin on one subnet. -/
def goPart (s : Subnet) : Go Part := unmarshalSubnet s.toPrimitive >>= cmdAddPart

theorem goPart_eq_ok {p : Part} : goPart s = .ok p ↔
    ∃ g, s.gateway = some g ∧ cmdAddPart (goSubnet s g) = .ok p := by
  unfold goPart
  rw [bind_eq_ok, unmarshalSubnet_eq]
  constructor
  · rintro ⟨gs, hgs, hp⟩
    cases hgateway : s.gateway with
    | none =>
      rw [hgateway] at hgs
      cases hgs
    | some g =>
      rw [hgateway] at hgs
      cases hgs
      exact ⟨g, rfl, hp⟩
  · rintro ⟨g, hgateway, hp⟩
    rw [hgateway]
    exact ⟨_, rfl, hp⟩

/-- A route as the plugin writes it. -/
def goRouteOut (r : Route) : RouteOut :=
  ⟨r.cidr.toIpNet.show.1, r.cidr.toIpNet.show.2, showIp r.gateway.to16⟩

/-- A route as the runner writes it. -/
def pyRouteOut (r : Route) : RouteOut := ⟨r.cidr.addr, r.cidr.prefixlen, r.gateway⟩

theorem goRouteOut_eq (r : Route) : goRouteOut r = pyRouteOut r ↔
    r.gateway.Plain ∧ r.cidr.addr.Plain ∧ r.cidr.Canonical := by
  rw [← show_toIpNet, ← showIp_to16]
  unfold goRouteOut pyRouteOut
  constructor
  · intro h
    obtain ⟨hdst, hlen, hgw⟩ := RouteOut.mk.inj h
    exact ⟨hgw, Prod.ext hdst hlen⟩
  · rintro ⟨hgw, hnet⟩
    rw [hnet, hgw]

theorem cmdAddRoutes (s : Subnet) (g : Addr) :
    each cmdAddRoute (goSubnet s g).routes = .ok (s.routes.map goRouteOut) := by
  show each cmdAddRoute (s.routes.map _) = _
  rw [each_map]
  exact each_ok fun _ => rfl

/-- The plugin's part, where it gets that far. -/
theorem cmdAddPart_eq {g ip : Addr} {rest : List Addr} (hips : s.ips = ip :: rest) :
    cmdAddPart (goSubnet s g) =
      if (showIp ip.to16).width < s.cidr.prefixlen then .error (.parsing (.addr ip))
      else .ok {
        ip := ⟨if (to4 ip.to16).isNone then 6 else 4, showIp ip.to16, s.cidr.prefixlen,
          some (showIp g.to16)⟩
        routes := s.routes.map goRouteOut
        dns := s.dns.map Word.addr } := by
  have hgo : (goSubnet s g).ips = .addr ip :: rest.map Word.addr := by
    show s.ips.map Word.addr = _
    rw [hips, List.map_cons]
  unfold cmdAddPart
  rw [hgo]
  simp only [parseIp, goSubnet, parseCidr, toIpNet_size]
  split
  · rfl
  · have hroutes := cmdAddRoutes s g
    unfold goSubnet at hroutes
    rw [hroutes]
    rfl

theorem vifDataPart_eq {g ip : Addr} {rest : List Addr} (hips : s.ips = ip :: rest)
    (hgateway : s.gateway = some g) : vifDataPart unsetRaises s =
      .ok {
        ip := ⟨ip.version, ip, s.cidr.prefixlen, some g⟩
        routes := s.routes.map pyRouteOut
        dns := s.dns.map Word.addr } := by
  unfold vifDataPart
  rw [hips]
  simp only [hgateway, hasGateway]
  rfl

/-- A subnet of a VIF: it has addresses, and they are of its family. -/
structure Subnet.Addressed (s : Subnet) : Prop where
  ips : s.ips ≠ []
  family : ∀ ip ∈ s.ips, ip.width = s.cidr.addr.width

theorem version_of_plain {a : Addr} (h : a.Plain) :
    (if (to4 a.to16).isNone then 6 else 4) = a.version := by
  cases hto : to4 a.to16 with
  | none => exact ((to4_to16 a).mp hto).1.symm
  | some x =>
    cases a with
    | v4 a => rfl
    | v6 a =>
      rw [(to4_to16 _).mpr ⟨rfl, h⟩] at hto
      cases hto

/-- Both make the same of an agreeable subnet. -/
theorem Agreeable.parts (h : Agreeable s) (haddressed : s.Addressed) :
    ∃ p, goPart s = .ok p ∧ vifDataPart unsetRaises s = .ok p := by
  obtain ⟨ip, rest, hips⟩ := List.exists_cons_of_ne_nil haddressed.ips
  obtain ⟨g, hgateway, hplain⟩ := h.gateway
  have hip : ip.Plain := h.ip ip (by rw [hips]; rfl)
  have hshow := (showIp_to16 ip).mpr hip
  have hfamily := haddressed.family ip (hips ▸ List.mem_cons_self)
  have hle := s.cidr.le
  refine ⟨_, goPart_eq_ok.mpr ⟨g, hgateway, ?_⟩, vifDataPart_eq hips hgateway⟩
  have hroutes : s.routes.map goRouteOut = s.routes.map pyRouteOut :=
    List.map_congr_left fun r hr => (goRouteOut_eq r).mpr (h.routes r hr)
  rw [cmdAddPart_eq hips, hshow, if_neg (by omega), version_of_plain hip,
    (showIp_to16 g).mpr hplain, hroutes]

/-- Where both make the same of a subnet, it is agreeable. -/
theorem agreeable_of_parts (haddressed : s.Addressed) {p q : Part} (hgo : goPart s = .ok p)
    (hpy : vifDataPart unsetRaises s = .ok q) (hip : p.ip = q.ip) (hroutes : p.routes = q.routes) :
    Agreeable s := by
  obtain ⟨ip, rest, hips⟩ := List.exists_cons_of_ne_nil haddressed.ips
  obtain ⟨g, hgateway, hgo⟩ := goPart_eq_ok.mp hgo
  rw [vifDataPart_eq hips hgateway] at hpy
  rw [cmdAddPart_eq hips] at hgo
  split at hgo
  · cases hgo
  · cases hgo
    cases hpy
    obtain ⟨_, hshow, _, hgw⟩ := IpConfig.mk.inj hip
    refine ⟨⟨g, hgateway, (showIp_to16 g).mp (Option.some.inj hgw)⟩, fun ip' hip' => ?_, ?_⟩
    · rw [hips] at hip'
      cases hip'
      exact (showIp_to16 ip).mp hshow
    · intro r hr
      exact (goRouteOut_eq r).mp (List.map_inj_left.mp hroutes r hr)

theorem routes_length {p q : Part} (haddressed : s.Addressed) (hgo : goPart s = .ok p)
    (hpy : vifDataPart unsetRaises s = .ok q) : p.routes.length = q.routes.length := by
  obtain ⟨ip, rest, hips⟩ := List.exists_cons_of_ne_nil haddressed.ips
  obtain ⟨g, hgateway, hgo⟩ := goPart_eq_ok.mp hgo
  rw [vifDataPart_eq hips hgateway] at hpy
  rw [cmdAddPart_eq hips] at hgo
  split at hgo
  · cases hgo
  · cases hgo
    cases hpy
    rw [List.length_map, List.length_map]

/-- The same addresses and routes on the whole come from the same subnet by subnet. -/
theorem agreeable_of_results : ∀ {ss : List Subnet} {ps qs : List Part},
    (∀ s ∈ ss, s.Addressed) → List.Forall₂ (fun s p => goPart s = .ok p) ss ps →
    List.Forall₂ (fun s q => vifDataPart unsetRaises s = .ok q) ss qs →
    ps.map Part.ip = qs.map Part.ip → ps.flatMap Part.routes = qs.flatMap Part.routes →
      ∀ s ∈ ss, Agreeable s
  | [], _, _, _, _, _, _, _ => nofun
  | s :: ss, _, _, haddressed, .cons hgo hgos, .cons hpy hpys, hips, hroutes => by
    have hs := haddressed s List.mem_cons_self
    rw [List.map_cons, List.map_cons] at hips
    obtain ⟨hip, hips⟩ := List.cons.inj hips
    rw [List.flatMap_cons, List.flatMap_cons] at hroutes
    obtain ⟨hroute, hroutes⟩ := List.append_inj hroutes (routes_length hs hgo hpy)
    intro s' hs'
    rcases List.mem_cons.mp hs' with rfl | hs'
    · exact agreeable_of_parts hs hgo hpy hip hroute
    · exact agreeable_of_results (fun x hx => haddressed x (List.mem_cons_of_mem _ hx)) hgos hpys
        hips hroutes s' hs'

end

/-! ## The VIFs of the daemon -/

section

variable {subnets : Dict String (List Subnet)} {fixedIps : List (String × Addr)}

/-- Neutron takes the fixed IPs of a port from their subnets. -/
def FromSubnets (fixedIps : List (String × Addr)) (subnets : Dict String (List Subnet)) : Prop :=
  ∀ id ip, (id, ip) ∈ fixedIps → ∀ network, subnets.get? id = some network → ∀ s ∈ network,
    ip.width = s.cidr.addr.width

/-- The subnet under the id, with addresses of its family. -/
structure Gathered (subnets : Dict String (List Subnet)) (e : String × Subnet) : Prop where
  addressed : e.2.Addressed
  source : ∃ network, subnets.get? e.1 = some network ∧ ∃ s ∈ network, e.2.cidr = s.cidr

theorem gathered_addFixedIps : ∀ {fixedIps : List (String × Addr)} {acc out : Dict String Subnet},
    FromSubnets fixedIps subnets → (∀ e ∈ acc.items, Gathered subnets e) →
    addFixedIps subnets fixedIps acc = .ok out → ∀ e ∈ out.items, Gathered subnets e
  | [], _, _, _, hacc, h => by
    cases h
    exact hacc
  | (id, ip) :: rest, acc, out, hfixed, hacc, h => by
    have hrest : FromSubnets rest subnets :=
      fun id ip hmem => hfixed id ip (List.mem_cons_of_mem _ hmem)
    rw [addFixedIps] at h
    cases hget : subnets.get? id with
    | none =>
      rw [hget] at h
      exact gathered_addFixedIps hrest hacc h
    | some network =>
      rw [hget] at h
      obtain ⟨subnet, hsubnet, h⟩ := bind_eq_ok.mp h
      refine gathered_addFixedIps hrest (fun e he => ?_) h
      have hsource : (∃ s ∈ network, subnet.cidr = s.cidr) ∧
          ∀ a ∈ subnet.ips, a.width = subnet.cidr.addr.width := by
        unfold vifSubnet at hsubnet
        cases hseen : acc.get? id with
        | some s =>
          rw [hseen] at hsubnet
          cases hsubnet
          have hgathered := hacc (id, subnet) (Dict.get?_eq_some.mp hseen)
          obtain ⟨network', hget', hs⟩ := hgathered.source
          rw [hget] at hget'
          cases hget'
          exact ⟨hs, hgathered.addressed.family⟩
        | none =>
          rw [hseen] at hsubnet
          match network, hsubnet with
          | [s], hsubnet =>
            cases hsubnet
            exact ⟨⟨s, List.mem_singleton_self _, rfl⟩, nofun⟩
      rcases Dict.mem_items_upsert.mp he with rfl | ⟨he, _⟩
      · refine ⟨⟨?_, fun a ha => ?_⟩, network, hget, hsource.1⟩
        · exact List.append_ne_nil_of_right_ne_nil _ (List.cons_ne_nil _ _)
        · rcases List.mem_append.mp ha with ha | ha
          · exact hsource.2 a ha
          · obtain ⟨s, hs, hcidr⟩ := hsource.1
            rw [List.mem_singleton.mp ha]
            show ip.width = subnet.cidr.addr.width
            rw [hcidr]
            exact hfixed id ip List.mem_cons_self network hget s hs
      · exact hacc e he

theorem addressed_of_built {ss : List Subnet} (hfixed : FromSubnets fixedIps subnets)
    (hbuilt : makeVifSubnets fixedIps subnets = .ok ss) : ∀ s ∈ ss, s.Addressed := by
  obtain ⟨out, hout, h⟩ := bind_eq_ok.mp hbuilt
  simp only at h
  split at h
  · cases h
  · cases h
    intro s hs
    obtain ⟨e, he, rfl⟩ := List.mem_map.mp hs
    have hempty : ∀ e ∈ (Dict.empty : Dict String Subnet).items, Gathered subnets e :=
      fun _ he => absurd he List.not_mem_nil
    exact (gathered_addFixedIps hfixed hempty hout e he).addressed

theorem cmdAdd_eq_ok {ifname : String} {v : Vif} {r : CniResult} :
    cmdAdd ifname v.toPrimitive = .ok r ↔
      ∃ ps, each goPart v.subnets = .ok ps ∧ r = assemble ifname (.name v.address) ps := by
  have hvif : unmarshalVif v.toPrimitive =
      (each unmarshalSubnet (v.subnets.map Subnet.toPrimitive) >>= fun network =>
        .ok ⟨network, .name v.address, .name v.vifName⟩) := rfl
  unfold cmdAdd
  rw [hvif, each_map]
  constructor
  · intro h
    obtain ⟨vif, hgo, h⟩ := bind_eq_ok.mp h
    obtain ⟨network, hnetwork, hgo⟩ := bind_eq_ok.mp hgo
    cases hgo
    obtain ⟨ps, hps, h⟩ := bind_eq_ok.mp h
    cases h
    exact ⟨ps, each_each_eq_ok.mp ⟨network, hnetwork, hps⟩, rfl⟩
  · rintro ⟨ps, hps, rfl⟩
    obtain ⟨network, hnetwork, hps⟩ := each_each_eq_ok.mpr hps
    exact bind_eq_ok.mpr ⟨_, bind_eq_ok.mpr ⟨network, hnetwork, rfl⟩,
      bind_eq_ok.mpr ⟨ps, hps, rfl⟩⟩

/-- **The front ends agree exactly on VIFs with agreeable subnets.** -/
theorem frontEnds_agree_iff {v : Vif} (hbuilt : makeVifSubnets fixedIps subnets = .ok v.subnets)
    (hfixed : FromSubnets fixedIps subnets) (unsetRaises : Bool) (ifname : String) :
    (∃ r, vifData unsetRaises ifname v = .ok r ∧ cmdAdd ifname v.toPrimitive = .ok r) ↔
      ∀ s ∈ v.subnets, Agreeable s := by
  have haddressed := addressed_of_built hfixed hbuilt
  constructor
  · rintro ⟨r, hpy, hgo⟩
    obtain ⟨ps, hps, rfl⟩ := cmdAdd_eq_ok.mp hgo
    obtain ⟨qs, hqs, h⟩ := bind_eq_ok.mp hpy
    have h := CniResult.mk.inj (Except.ok.inj h)
    exact agreeable_of_results haddressed (each_eq_ok.mp hps) (each_eq_ok.mp hqs) h.2.2.1.symm
      h.2.2.2.1.symm
  · intro hall
    obtain ⟨ps, hgo, hpy⟩ := each_congr fun s hs => (hall s hs).parts (haddressed s hs)
    exact ⟨_, bind_eq_ok.mpr ⟨ps, hpy, rfl⟩, cmdAdd_eq_ok.mpr ⟨ps, hgo, rfl⟩⟩

end

/-- A subnet with a nameserver and a host route. -/
def podSubnet (gateway : Option Addr) : NeutronSubnet where
  cidr := ⟨.v4 0x0a000000, 24, by decide⟩
  dnsNameservers := [.v4 0x0a000002]
  gatewayIp := gateway
  hostRoutes := [⟨⟨.v4 0xc0a80000, 16, by decide⟩, .v4 0x0a0000fe⟩]

/-- `get_subnets` for the one subnet. -/
def podSubnets (gateway : Option Addr) : Dict String (List Subnet) :=
  ⟨[("s1", [neutronToOsvifSubnet (podSubnet gateway)])], List.nodup_singleton _⟩

def podFixedIps : List (String × Addr) := [("s1", .v4 0x0a000005)]

def podVif (gateway : Option Addr) : Vif where
  address := "fa:16:3e:00:00:01"
  vifName := "tap1"
  subnets := [{ neutronToOsvifSubnet (podSubnet gateway) with ips := [.v4 0x0a000005] }]

theorem podVif_built (gateway : Option Addr) :
    makeVifSubnets podFixedIps (podSubnets gateway) = .ok (podVif gateway).subnets := rfl

theorem podVif_fromSubnets (gateway : Option Addr) :
    FromSubnets podFixedIps (podSubnets gateway) := by
  intro id ip hmem network hget s hs
  obtain ⟨rfl, rfl⟩ := Prod.mk.inj (List.mem_singleton.mp hmem)
  cases hget
  rw [List.mem_singleton.mp hs]
  rfl

theorem frontEnds_agree_podVif :
    ∃ r, vifData true "eth0" (podVif (some (.v4 0x0a000001))) = .ok r ∧
      cmdAdd "eth0" (podVif (some (.v4 0x0a000001))).toPrimitive = .ok r := by
  refine (frontEnds_agree_iff (podVif_built _) (podVif_fromSubnets _) true "eth0").mpr ?_
  intro s hs
  rw [List.mem_singleton.mp hs]
  refine ⟨⟨_, rfl, trivial⟩, fun ip hip => ?_, fun r hr => ?_⟩
  · cases hip
    trivial
  · rw [List.mem_singleton.mp hr]
    exact ⟨trivial, trivial, rfl⟩

/-- Without a gateway the runner has a result and the plugin panics. -/
theorem cmdAdd_panics_noGateway :
    makeVifSubnets podFixedIps (podSubnets none) = .ok (podVif none).subnets ∧
      FromSubnets podFixedIps (podSubnets none) ∧
      (∃ r, vifData false "eth0" (podVif none) = .ok r) ∧
      cmdAdd "eth0" (podVif none).toPrimitive = .error .panic :=
  ⟨rfl, podVif_fromSubnets none, ⟨_, rfl⟩, rfl⟩

end FrontEnds

end KuryrKubernetes
