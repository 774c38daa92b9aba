import KuryrKubernetes.Lib.Effect
import KuryrKubernetes.Lib.Transition
import Mathlib.Algebra.Order.BigOperators.Group.List
import Mathlib.Algebra.Order.Group.Nat
import Mathlib.Algebra.GroupWithZero.Nat

/-!
# The network of a namespace

`KuryrNetworkHandler` creates a network and a subnet for a namespace, attaches the
subnet to the router and records each in the status of the KuryrNetwork object, one
call after the other. `on_finalize` takes them down again.

- `Cloud`: Neutron, and the stored status (`none` once the object is gone). `World` is
  the cloud and a clock that counts calls.
- `Env`: what becomes of each call. A call may raise before or after it took effect,
  and a crash is a call that raises what nobody catches; since fates depend on the
  clock, "for every `Env`" is "whatever happens at whichever call".

An execution that was cut short is handled again with the status stored by then. It
finds by name what it had created, unless the search itself raises a `ValueError`,
which `create_network` takes for "there is none" (`LookupOk`).
-/

namespace KuryrKubernetes

namespace KuryrNetwork

open Effect Transition

/-! ## Objects -/

abbrev Text := List Char

/-- Ids are never empty, so a missing id is the only one that is not true. -/
abbrev Id := { s : String // s ≠ "" }

structure Network where
  id : Id
  name : Text
  description : Text
  tags : List Text
deriving DecidableEq, Repr

structure Subnet where
  id : Id
  networkId : Id
  cidr : String
  tags : List Text
deriving DecidableEq, Repr

/-- `set_tags` on the resource with the id. -/
def Network.setTags (id : Id) (tags : List Text) (n : Network) : Network :=
  if n.id = id then { n with tags := tags } else n

def Subnet.setTags (id : Id) (tags : List Text) (s : Subnet) : Subnet :=
  if s.id = id then { s with tags := tags } else s

/-- A Namespace object: no `/` in its name or its uid, and a uid of 36 characters. -/
structure Namespace where
  name : Text
  uid : Text
  name_slash : '/' ∉ name
  uid_slash : '/' ∉ uid
  uid_length : uid.length = 36

/-- The status of a KuryrNetwork. -/
structure Status where
  netId : Option Id := none
  subnetId : Option Id := none
  subnetCIDR : Option String := none
  routerId : Option Id := none
  nsLabels : Option (List (String × String)) := none
deriving DecidableEq, Repr

/-- A merge patch. -/
def Status.merge (old new : Status) : Status where
  netId := new.netId.or old.netId
  subnetId := new.subnetId.or old.subnetId
  subnetCIDR := new.subnetCIDR.or old.subnetCIDR
  routerId := new.routerId.or old.routerId
  nsLabels := new.nsLabels.or old.nsLabels

/-- The configuration. -/
structure Config where
  tags : List Text
  podRouter : Id
  networkPolicyEnabled : Bool
  enforceSgRules : Bool

/-- The calls of the handler. -/
inductive Site where
  | getNamespace
  | listNetworks | tagFoundNetwork | createNetwork | tagNetwork
  | listSubnets | tagFoundSubnet | getSubnetpool | createSubnet | tagSubnet
  | addInterface
  | patch | addEvent
  | updateSgRules | updateServices
  | deletePools | removeInterface | deleteNetwork | listPorts | deletePorts | removeFinalizer
deriving DecidableEq, Repr

/-- Exceptions, as far as the handler tells them apart; `ConflictException` and
`NotFoundException` are `SDKException`s. -/
inductive Fault where
  | valueError
  | conflict
  | notFound
  | sdk
  | notReady
  | typeError
  | other
deriving DecidableEq, Repr

/-- An `SDKException`. -/
def Fault.isSdk (e : Fault) : Bool := e = .conflict ∨ e = .notFound ∨ e = .sdk

def Fault.isConflict (e : Fault) : Bool := e = .conflict

inductive Fate where
  | returns
  | raises (e : Fault) (applied : Bool)
deriving DecidableEq, Repr

structure Cloud where
  networks : List Network
  subnets : List Subnet
  /-- subnets attached to the router -/
  attached : List Id
  status : Option Status
  finalizer : Bool

structure World where
  cloud : Cloud
  clock : Nat

abbrev Handler := EStateM Fault World

/-- What becomes of the calls. Neutron gives no network an id that is in use. -/
structure Env where
  fate : Site → World → Fate
  namespaceGone : World → Bool
  objectGone : World → Bool
  newNetworkId : World → Id
  newSubnetId : World → Id
  newCidr : World → String
  selectors : World → Bool
  fresh : ∀ w, newNetworkId w ∉ w.cloud.networks.map Network.id ∧
    newNetworkId w ∉ w.cloud.subnets.map Subnet.networkId

/-! ## Names -/

/-- `text[:n]`, where a negative `n` counts from the end. -/
def sliceTo (text : Text) (n : Int) : Text :=
  if 0 ≤ n then text.take n.toNat else text.take (text.length - (-n).toNat)

/-- `get_resource_name`. -/
def getResourceName (name : Text) (uid prefixed suffix : Text) : Text :=
  let uid := if uid = [] then [] else uid ++ ['/']
  let length := (prefixed ++ uid ++ name ++ suffix).length
  let name := if 255 < length then sliceTo name (254 - ((length : Int) - 254)) else name
  prefixed ++ uid ++ name ++ suffix

/-- The name `create_network` gives. -/
def netName (ns : Namespace) : Text := getResourceName ns.name ns.uid [] []

/-- The legacy name. -/
def oldNetName (ns : Namespace) : Text :=
  getResourceName ns.name [] "ns/".toList "-net".toList

/-- The network has one of the names `create_network` looks for. -/
def Own (ns : Namespace) (n : Network) : Prop := n.name = netName ns ∨ n.name = oldNetName ns

instance (ns : Namespace) (n : Network) : Decidable (Own ns n) :=
  inferInstanceAs (Decidable (_ ∨ _))

/-- `",".join(TAGS)`. -/
def joinedTags (tags : List Text) : Text := [','].intercalate tags

/-! ## The drivers -/

section Programs

variable (cfg : Config) (env : Env)

/-- A call that returns something and has an effect. -/
def call {α : Type} (site : Site) (effect : World → α × Cloud) : Handler α := fun w =>
  let w := { w with clock := w.clock + 1 }
  match env.fate site w with
  | .returns => .ok (effect w).1 { w with cloud := (effect w).2 }
  | .raises e applied => .error e (if applied then { w with cloud := (effect w).2 } else w)

/-- A call for its effect. -/
def act (site : Site) (effect : World → Cloud) : Handler Unit :=
  call env site fun w => ((), effect w)

/-- A call that reads. -/
def read (site : Site) : Handler Cloud := call env site fun w => (w.cloud, w.cloud)

/-- `tag_neutron_resources` of a network. -/
def tagNetwork (site : Site) (id : Id) : Handler Unit :=
  if cfg.tags = [] then
    return ()
  else
    act env site fun w =>
      { w.cloud with networks := w.cloud.networks.map (Network.setTags id cfg.tags) }

/-- `tag_neutron_resources` of a subnet. -/
def tagSubnet (site : Site) (id : Id) : Handler Unit :=
  if cfg.tags = [] then
    return ()
  else
    act env site fun w =>
      { w.cloud with subnets := w.cloud.subnets.map (Subnet.setTags id cfg.tags) }

/-- The search in `create_network`, with the tags of what it finds. -/
def findNetwork (ns : Namespace) : Handler (Option Id) := do
  let cloud ← read env .listNetworks
  match cloud.networks.find? fun n => Own ns n with
  | none => return none
  | some n =>
    if ¬ cfg.tags ⊆ n.tags then
      tagNetwork cfg env .tagFoundNetwork n.id
    return some n.id

/-- `create_network`. -/
def createNetwork (ns : Namespace) : Handler Id := do
  let found ← tryCatch (findNetwork cfg env ns) fun e =>
    if e = .valueError then pure none else throw e
  match found with
  | some id => return id
  | none =>
    let id ← call env .createNetwork fun w =>
      (env.newNetworkId w, { w.cloud with networks := w.cloud.networks ++
        [⟨env.newNetworkId w, netName ns, joinedTags cfg.tags, []⟩] })
    tagNetwork cfg env .tagNetwork id
    return id

/-- The call of Neutron in `create_subnet`. -/
def newSubnet (netId : Id) : Handler (Id × String) :=
  call env .createSubnet fun w =>
    ((env.newSubnetId w, env.newCidr w), { w.cloud with subnets := w.cloud.subnets ++
      [⟨env.newSubnetId w, netId, env.newCidr w, []⟩] })

/-- `create_subnet`. -/
def createSubnet (netId : Id) : Handler (Id × String) := do
  let cloud ← read env .listSubnets
  match cloud.subnets.find? fun s => s.networkId = netId with
  | some s =>
    if ¬ cfg.tags ⊆ s.tags then
      tagSubnet cfg env .tagFoundSubnet s.id
    return (s.id, s.cidr)
  | none =>
    let _ ← read env .getSubnetpool
    let subnet ← tryCatch (newSubnet env netId) fun e =>
      throw (if e = .conflict then .notReady else e)
    tagSubnet cfg env .tagSubnet subnet.1
    return subnet

/-- `add_subnet_to_router`. A `BadRequest` says that the subnet is attached already. -/
def addSubnetToRouter (subnetId : Id) : Handler Id := do
  act env .addInterface fun w => { w.cloud with attached := subnetId :: w.cloud.attached }
  return cfg.podRouter

/-- `_patch_kuryrnetwork_crd`; that the object is gone is ignored. -/
def patchStatus (data : Status) : Handler Unit :=
  act env .patch fun w =>
    if env.objectGone w then { w.cloud with status := none }
    else { w.cloud with status := w.cloud.status.map fun st => st.merge data }

def addEvent : Handler Unit := act env .addEvent World.cloud

/-- Some exceptions are told in an event before they are raised again. -/
def reporting {α : Type} (kind : Fault → Bool) (x : Handler α) : Handler α :=
  tryCatch x fun e => do
    if kind e then
      addEvent env
    throw e

/-! ## `on_present` -/

/-- The network, and whether this execution recorded it. -/
def ensureNetwork (ns : Option Namespace) (st : Status) : Handler (Id × Bool) :=
  match st.netId with
  | some id => return (id, false)
  | none =>
    match ns with
    | none => throw .typeError
    | some ns => do
      let id ← reporting env Fault.isSdk (createNetwork cfg env ns)
      patchStatus env { netId := some id }
      addEvent env
      return (id, true)

/-- The subnet. -/
def ensureSubnet (ns : Option Namespace) (st : Status) (netId : Id) (created : Bool) :
    Handler (Id × Bool) :=
  match st.subnetId, created with
  | some id, false => return (id, false)
  | _, _ =>
    match ns with
    | none => throw .typeError
    | some _ => do
      let subnet ← reporting env Fault.isConflict (createSubnet cfg env netId)
      patchStatus env { subnetId := some subnet.1, subnetCIDR := some subnet.2 }
      addEvent env
      return (subnet.1, true)

/-- The router. -/
def ensureRouter (st : Status) (subnetId : Id) (created : Bool) : Handler Bool :=
  match st.routerId, created with
  | some _, false => return false
  | _, _ => do
    let id ← reporting env Fault.isSdk (addSubnetToRouter cfg env subnetId)
    patchStatus env { routerId := some id }
    addEvent env
    return true

/-- The security group rules, when something was created or the labels changed. -/
def updateLabels (labels : List (String × String)) (st : Status) (created : Bool) : Handler Unit :=
  if created = true ∨ st.nsLabels.getD [] ≠ labels then do
    let selectors ← call env .updateSgRules fun w => (env.selectors w, w.cloud)
    if cfg.networkPolicyEnabled ∧ selectors ∧ cfg.enforceSgRules then
      act env .updateServices World.cloud
    patchStatus env { nsLabels := some labels }
    addEvent env
  else
    return ()

/-- `on_present` for an object with the given status and labels. -/
def onPresent (ns : Namespace) (labels : List (String × String)) (st : Status) : Handler Unit := do
  let gone ← call env .getNamespace fun w => (env.namespaceGone w, w.cloud)
  let found := if gone then none else some ns
  let network ← ensureNetwork cfg env found st
  let subnet ← ensureSubnet cfg env found st network.1 network.2
  let created ← ensureRouter cfg env st subnet.1 subnet.2
  updateLabels cfg env labels st created

end Programs

/-! ## What is promised -/

/-- What there is of a namespace: its networks, the subnets of each network with their
addresses, the attached subnets and the stored status. -/
structure View where
  networks : List Id
  subnets : Id → List (Id × String)
  attached : List Id
  status : Option Status

def view (ns : Namespace) (c : Cloud) : View where
  networks := (c.networks.filter fun n => Own ns n).map Network.id
  subnets := fun net => (c.subnets.filter fun s => s.networkId = net).map fun s => (s.id, s.cidr)
  attached := c.attached
  status := c.status

def View.addNetwork (v : View) (id : Id) : View := { v with networks := v.networks ++ [id] }

def View.addSubnet (v : View) (net : Id) (s : Id × String) : View :=
  { v with subnets := Function.update v.subnets net (v.subnets net ++ [s]) }

/-- What the status records is the namespace's own. -/
structure Names (cfg : Config) (v : View) (st : Status) : Prop where
  netId : ∀ id, st.netId = some id → id ∈ v.networks
  subnetId : ∀ id, st.subnetId = some id →
    ∃ net ∈ v.networks, ∃ cidr, (id, cidr) ∈ v.subnets net ∧ st.subnetCIDR = some cidr
  routerId : ∀ id, st.routerId = some id → id = cfg.podRouter ∧
    ∃ net ∈ v.networks, ∃ s ∈ v.subnets net, s.1 ∈ v.attached

/-- At most one network and one subnet, and the stored status names them. -/
structure Once (cfg : Config) (v : View) : Prop where
  networks : v.networks.length ≤ 1
  subnets : ∀ net ∈ v.networks, (v.subnets net).length ≤ 1
  status : ∀ st, v.status = some st → Names cfg v st

/-- The status names the network, its subnet and the router it is attached to. -/
def Complete (cfg : Config) (v : View) (st : Status) : Prop :=
  ∃ net ∈ v.networks, ∃ s ∈ v.subnets net, s.1 ∈ v.attached ∧ st.netId = some net ∧
    st.subnetId = some s.1 ∧ st.subnetCIDR = some s.2 ∧ st.routerId = some cfg.podRouter

/-- Once the namespace has a network, neither the search for it nor the tagging of what
was found raises a `ValueError`. -/
def LookupOk (ns : Namespace) (env : Env) : Prop :=
  ∀ w b, (view ns w.cloud).networks ≠ [] → env.fate .listNetworks w ≠ .raises .valueError b ∧
    env.fate .tagFoundNetwork w ≠ .raises .valueError b

/-! ## Views -/

section Proofs

variable {α β : Type} {cfg : Config} {env : Env} {ns : Namespace} {c : Cloud} {v v' : View}
  {st : Status}

/-- Nothing of the namespace is lost. -/
structure Grown (v v' : View) : Prop where
  networks : v.networks ⊆ v'.networks
  subnets : ∀ net, v.subnets net ⊆ v'.subnets net
  attached : v.attached ⊆ v'.attached

theorem Names.mono (h : Names cfg v st) (hgrown : Grown v v') : Names cfg v' st where
  netId := fun id hid => hgrown.networks (h.netId id hid)
  subnetId := by
    intro id hid
    obtain ⟨net, hnet, cidr, hmem, hcidr⟩ := h.subnetId id hid
    exact ⟨net, hgrown.networks hnet, cidr, hgrown.subnets net hmem, hcidr⟩
  routerId := by
    intro id hid
    obtain ⟨hrouter, net, hnet, s, hs, hattached⟩ := h.routerId id hid
    exact ⟨hrouter, net, hgrown.networks hnet, s, hgrown.subnets net hs, hgrown.attached hattached⟩

/-- The one network. -/
theorem Once.unique (h : Once cfg v) {net net' : Id} (hnet : net ∈ v.networks)
    (hnet' : net' ∈ v.networks) : net = net' := by
  have hlen := h.networks
  cases hids : v.networks with
  | nil =>
    rw [hids] at hnet
    cases hnet
  | cons a rest =>
    rw [hids, List.length_cons] at hlen
    obtain rfl : rest = [] := List.eq_nil_of_length_eq_zero (by omega)
    rw [hids, List.mem_singleton] at hnet hnet'
    rw [hnet, hnet']

theorem Once.addNetwork (h : Once cfg v) {id : Id} (hnone : v.networks = [])
    (hfresh : v.subnets id = []) : Once cfg (v.addNetwork id) where
  networks := by
    show (v.networks ++ [id]).length ≤ 1
    rw [hnone]
    exact Nat.le_refl _
  subnets := by
    intro net hnet
    have hnet : net ∈ v.networks ++ [id] := hnet
    rw [hnone, List.nil_append, List.mem_singleton] at hnet
    show (v.subnets net).length ≤ 1
    rw [hnet, hfresh]
    exact Nat.zero_le _
  status := fun st hst => (h.status st hst).mono
    ⟨List.subset_append_left _ _, fun _ => List.Subset.refl _, List.Subset.refl _⟩

theorem Once.addSubnet (h : Once cfg v) {net : Id} {s : Id × String} (hnone : v.subnets net = []) :
    Once cfg (v.addSubnet net s) where
  networks := h.networks
  subnets := by
    intro net' hnet'
    show (Function.update v.subnets net (v.subnets net ++ [s]) net').length ≤ 1
    by_cases heq : net' = net
    · rw [heq, Function.update_self, hnone]
      exact Nat.le_refl _
    · rw [Function.update_of_ne heq]
      exact h.subnets net' hnet'
  status := by
    intro st hst
    refine (h.status st hst).mono ⟨List.Subset.refl _, fun net' => ?_, List.Subset.refl _⟩
    show v.subnets net' ⊆ Function.update v.subnets net (v.subnets net ++ [s]) net'
    by_cases heq : net' = net
    · rw [heq, Function.update_self]
      exact List.subset_append_left _ _
    · rw [Function.update_of_ne heq]
      exact List.Subset.refl _

theorem Once.attach (h : Once cfg v) (id : Id) :
    Once cfg { v with attached := id :: v.attached } where
  networks := h.networks
  subnets := h.subnets
  status := fun st hst => (h.status st hst).mono
    ⟨List.Subset.refl _, fun _ => List.Subset.refl _, List.subset_cons_self _ _⟩

/-- The view's status is whatever names what there is. -/
theorem Once.record (h : Once cfg v) {status : Option Status}
    (hstatus : ∀ st, status = some st → Names cfg v st) : Once cfg { v with status := status } where
  networks := h.networks
  subnets := h.subnets
  status := by
    intro st hst
    obtain ⟨hnet, hsubnet, hrouter⟩ := hstatus st hst
    exact ⟨hnet, hsubnet, hrouter⟩

/-! ## Calls -/

/-- Started with `P` of the view, the program returns with `Q`, or fails with the
namespace's networking in order. -/
def Safe (cfg : Config) (ns : Namespace) (P : View → Prop) (x : Handler α) (Q : α → View → Prop) :
    Prop :=
  Triple (fun w => P (view ns w.cloud)) x (fun a w => Q a (view ns w.cloud))
    fun _ w => Once cfg (view ns w.cloud)

theorem Safe.bind {P : View → Prop} {Q : α → View → Prop} {R : β → View → Prop} {x : Handler α}
    {f : α → Handler β} (hx : Safe cfg ns P x Q) (hf : ∀ a, Safe cfg ns (Q a) (f a) R) :
    Safe cfg ns P (x >>= f) R :=
  Triple.bind hx hf

theorem Safe.pure {P : View → Prop} {Q : α → View → Prop} {a : α} (h : ∀ v, P v → Q a v) :
    Safe cfg ns P (Pure.pure a) Q :=
  Triple.pure fun _ hw => h _ hw

theorem Safe.throw {P : View → Prop} {Q : α → View → Prop} {e : Fault}
    (h : ∀ v, P v → Once cfg v) : Safe cfg ns P (throw e) Q :=
  Triple.throw fun _ hw => h _ hw

theorem Safe.tryCatch {P : View → Prop} {Q : α → View → Prop} {x : Handler α}
    {handle : Fault → Handler α} (hx : Safe cfg ns P x Q)
    (hhandle : ∀ e, Safe cfg ns (Once cfg) (handle e) Q) : Safe cfg ns P (tryCatch x handle) Q :=
  Triple.tryCatch hx hhandle

theorem triple_call {P : Cloud → Prop} {Q : α → Cloud → Prop} {E : Fault → Cloud → Prop}
    {site : Site}
    {effect : World → α × Cloud} (hreturns : ∀ w, P w.cloud → Q (effect w).1 (effect w).2)
    (hraises : ∀ w e b, env.fate site w = .raises e b → P w.cloud →
      E e w.cloud ∧ E e (effect w).2) :
    Triple (fun w => P w.cloud) (call env site effect) (fun a w => Q a w.cloud)
      fun e w => E e w.cloud := by
  intro w hw
  have hret := hreturns { w with clock := w.clock + 1 } hw
  have hrai := fun e b hf => hraises { w with clock := w.clock + 1 } e b hf hw
  unfold call
  simp only
  cases hfate : env.fate site { w with clock := w.clock + 1 } with
  | returns => exact hret
  | raises e applied =>
    cases applied with
    | false => exact (hrai e _ hfate).1
    | true => exact (hrai e _ hfate).2

theorem safe_call {P : View → Prop} {Q : α → View → Prop} {site : Site} {effect : World → α × Cloud}
    (hP : ∀ v, P v → Once cfg v)
    (h : ∀ w, P (view ns w.cloud) →
      Q (effect w).1 (view ns (effect w).2) ∧ Once cfg (view ns (effect w).2)) :
    Safe cfg ns P (call env site effect) Q :=
  triple_call (P := fun c => P (view ns c)) (Q := fun a c => Q a (view ns c))
    (E := fun _ c => Once cfg (view ns c)) (fun w hw => (h w hw).1)
    fun w _ _ _ hw => ⟨hP _ hw, (h w hw).2⟩

/-- A call the view does not notice. -/
theorem safe_still {P : View → Prop} {site : Site} {effect : World → α × Cloud}
    (hP : ∀ v, P v → Once cfg v) (hview : ∀ w, view ns (effect w).2 = view ns w.cloud) :
    Safe cfg ns P (call env site effect) fun _ v => P v := by
  refine safe_call hP fun w hw => ?_
  rw [hview w]
  exact ⟨hw, hP _ hw⟩

theorem Network.setTags_frame (id : Id) (tags : List Text) (n : Network) :
    (n.setTags id tags).name = n.name ∧ (n.setTags id tags).id = n.id := by
  unfold Network.setTags
  split
  · exact ⟨rfl, rfl⟩
  · exact ⟨rfl, rfl⟩

theorem Subnet.setTags_frame (id : Id) (tags : List Text) (s : Subnet) :
    (s.setTags id tags).networkId = s.networkId ∧ (s.setTags id tags).id = s.id ∧
      (s.setTags id tags).cidr = s.cidr := by
  unfold Subnet.setTags
  split
  · exact ⟨rfl, rfl, rfl⟩
  · exact ⟨rfl, rfl, rfl⟩

theorem view_tagNetwork (id : Id) (tags : List Text) :
    view ns { c with networks := c.networks.map (Network.setTags id tags) } = view ns c := by
  have hown : (fun n => decide (Own ns n)) ∘ Network.setTags id tags =
      fun n => decide (Own ns n) := by
    funext n
    refine decide_eq_decide.mpr ?_
    rw [Own, Own, (n.setTags_frame id tags).1]
  have hids : ((c.networks.map (Network.setTags id tags)).filter fun n => Own ns n).map Network.id =
      (c.networks.filter fun n => Own ns n).map Network.id := by
    rw [List.filter_map, hown, List.map_map]
    exact List.map_congr_left fun n _ => (n.setTags_frame id tags).2
  simp only [view, hids]

theorem view_tagSubnet (id : Id) (tags : List Text) :
    view ns { c with subnets := c.subnets.map (Subnet.setTags id tags) } = view ns c := by
  have hsubnets : ∀ net, ((c.subnets.map (Subnet.setTags id tags)).filter fun s =>
      s.networkId = net).map (fun s => (s.id, s.cidr)) =
      (c.subnets.filter fun s => s.networkId = net).map fun s => (s.id, s.cidr) := by
    intro net
    have hnet : (fun s => decide (s.networkId = net)) ∘ Subnet.setTags id tags =
        fun s => decide (s.networkId = net) := by
      funext s
      simp only [Function.comp, (s.setTags_frame id tags).1]
    rw [List.filter_map, hnet, List.map_map]
    refine List.map_congr_left fun s _ => ?_
    simp only [Function.comp, (s.setTags_frame id tags).2]
  simp only [view, hsubnets]

theorem safe_tagNetwork {P : View → Prop} {site : Site} {id : Id} (hP : ∀ v, P v → Once cfg v) :
    Safe cfg ns P (tagNetwork cfg env site id) fun _ v => P v := by
  unfold tagNetwork
  split
  · exact Safe.pure fun _ hv => hv
  · exact safe_still hP fun w => view_tagNetwork ..

theorem safe_tagSubnet {P : View → Prop} {site : Site} {id : Id} (hP : ∀ v, P v → Once cfg v) :
    Safe cfg ns P (tagSubnet cfg env site id) fun _ v => P v := by
  unfold tagSubnet
  split
  · exact Safe.pure fun _ hv => hv
  · exact safe_still hP fun w => view_tagSubnet ..

theorem safe_addEvent {P : View → Prop} (hP : ∀ v, P v → Once cfg v) :
    Safe cfg ns P (addEvent env) fun _ v => P v := by
  unfold addEvent act
  exact safe_still hP fun _ => rfl

theorem safe_reporting {P : View → Prop} {Q : α → View → Prop} {kind : Fault → Bool} {x : Handler α}
    (hx : Safe cfg ns P x Q) : Safe cfg ns P (reporting env kind x) Q := by
  refine hx.tryCatch fun e => ?_
  simp only
  split
  · exact Safe.bind (safe_addEvent fun v hv => hv) fun _ => Safe.throw fun v hv => hv
  · exact Safe.throw fun v hv => hv

/-! ## The network -/

theorem mem_view_networks {id : Id} :
    id ∈ (view ns c).networks ↔ ∃ n ∈ c.networks, Own ns n ∧ n.id = id := by
  simp only [view, List.mem_map, List.mem_filter, decide_eq_true_eq, and_assoc]

/-- The search finds the network of the namespace if there is one. -/
theorem triple_findNetwork (hok : LookupOk ns env) :
    Triple (fun w => Once cfg (view ns w.cloud)) (findNetwork cfg env ns)
      (fun r w => Once cfg (view ns w.cloud) ∧
        (∀ id, r = some id → id ∈ (view ns w.cloud).networks) ∧
        (r = none → (view ns w.cloud).networks = []))
      fun e w => Once cfg (view ns w.cloud) ∧
        (e = .valueError → (view ns w.cloud).networks = []) := by
  unfold findNetwork read
  refine Triple.bind (Q := fun c w => Once cfg (view ns w.cloud) ∧ view ns w.cloud = view ns c)
    (triple_call (P := fun c => Once cfg (view ns c)) (Q := fun a c => Once cfg (view ns c) ∧
      view ns c = view ns a) (E := fun e c => Once cfg (view ns c) ∧
        (e = .valueError → (view ns c).networks = []))
      (fun w hw => ⟨hw, rfl⟩) fun w e b hfate hw => ?_) fun cloud => ?_
  · have hnone : e = .valueError → (view ns w.cloud).networks = [] :=
      fun he => by_contra fun hne => (hok w b hne).1 (he ▸ hfate)
    exact ⟨⟨hw, hnone⟩, hw, hnone⟩
  · cases hfind : cloud.networks.find? fun n => Own ns n with
    | none =>
      refine Triple.pure fun w hw => ⟨hw.1, nofun, fun _ => ?_⟩
      rw [hw.2, List.eq_nil_iff_forall_not_mem]
      intro id hid
      obtain ⟨n, hn, hown, _⟩ := mem_view_networks.mp hid
      rw [List.find?_eq_none] at hfind
      exact hfind n hn (decide_eq_true hown)
    | some n =>
      have hn : n.id ∈ (view ns cloud).networks := mem_view_networks.mpr
        ⟨n, List.mem_of_find?_eq_some hfind, by simpa using List.find?_some hfind, rfl⟩
      have hreturn : ∀ w : World, Once cfg (view ns w.cloud) ∧ view ns w.cloud = view ns cloud →
          Once cfg (view ns w.cloud) ∧
            (∀ id, some n.id = some id → id ∈ (view ns w.cloud).networks) ∧
            (some n.id = none → (view ns w.cloud).networks = []) := by
        rintro w ⟨hw, hview⟩
        refine ⟨hw, fun id hid => ?_, nofun⟩
        cases hid
        rw [hview]
        exact hn
      simp only
      split
      · refine Triple.bind (Q := fun _ w => Once cfg (view ns w.cloud) ∧
          view ns w.cloud = view ns cloud) ?_ fun _ => Triple.pure hreturn
        unfold tagNetwork act
        split
        · exact Triple.pure fun w hw => hw
        · refine triple_call (P := fun c => Once cfg (view ns c) ∧ view ns c = view ns cloud)
            (Q := fun _ c => Once cfg (view ns c) ∧ view ns c = view ns cloud)
            (E := fun e c => Once cfg (view ns c) ∧
              (e = .valueError → (view ns c).networks = [])) (fun w hw => ?_)
            fun w e b hfate hw => ?_
          · rw [view_tagNetwork]
            exact hw
          · have hne : (view ns w.cloud).networks ≠ [] := hw.2 ▸ List.ne_nil_of_mem hn
            have he : e ≠ .valueError := fun he => (hok w b hne).2 (he ▸ hfate)
            rw [view_tagNetwork]
            exact ⟨⟨hw.1, (absurd · he)⟩, hw.1, (absurd · he)⟩
      · exact Triple.pure hreturn

theorem view_addNetwork {n : Network} (hown : Own ns n) :
    view ns { c with networks := c.networks ++ [n] } = (view ns c).addNetwork n.id := by
  have hids : ((c.networks ++ [n]).filter fun n => Own ns n).map Network.id =
      (c.networks.filter fun n => Own ns n).map Network.id ++ [n.id] := by
    rw [List.filter_append, List.map_append]
    simp only [List.filter_cons, hown, decide_true, if_true, List.filter_nil, List.map_cons,
      List.map_nil]
  simp only [view, View.addNetwork, hids]

/-- A network id that no subnet has. -/
theorem view_subnets_fresh {id : Id} (hfresh : id ∉ c.subnets.map Subnet.networkId) :
    (view ns c).subnets id = [] := by
  show (c.subnets.filter fun s => s.networkId = id).map _ = []
  rw [List.map_eq_nil_iff, List.filter_eq_nil_iff]
  intro s hs hid
  exact hfresh (List.mem_map.mpr ⟨s, hs, of_decide_eq_true hid⟩)

/-- `create_network` returns the one network there is. -/
theorem safe_createNetwork (hok : LookupOk ns env) :
    Safe cfg ns (Once cfg) (createNetwork cfg env ns) fun id v => Once cfg v ∧ id ∈ v.networks := by
  refine Triple.bind (Triple.tryCatch (triple_findNetwork hok) fun e => ?_) fun found => ?_
  · -- a `ValueError` is taken for "there is none", and there is none
    split
    · rename_i he
      exact Triple.pure fun w hw => ⟨hw.1, nofun, fun _ => hw.2 he⟩
    · exact Triple.throw fun w hw => hw.1
  · cases found with
    | some id => exact Triple.pure fun w hw => ⟨hw.1, hw.2.1 id rfl⟩
    | none =>
      have hcreate : Safe cfg ns (fun v => Once cfg v ∧ v.networks = [])
          (call env .createNetwork fun w => (env.newNetworkId w,
            { w.cloud with networks := w.cloud.networks ++
              [⟨env.newNetworkId w, netName ns, joinedTags cfg.tags, []⟩] }))
          fun id v => Once cfg v ∧ id ∈ v.networks := by
        refine safe_call (fun v hv => hv.1) fun w hw => ?_
        have honce := hw.1.addNetwork hw.2 (view_subnets_fresh (env.fresh w).2)
        rw [view_addNetwork (.inl rfl)]
        exact ⟨⟨honce, List.mem_append_right _ (List.mem_singleton_self _)⟩, honce⟩
      refine Triple.pre (P := fun w => Once cfg (view ns w.cloud) ∧
        (view ns w.cloud).networks = []) ?_ fun w hw => ⟨hw.1, hw.2.2 rfl⟩
      show Safe cfg ns (fun v => Once cfg v ∧ v.networks = []) (_ >>= _)
        fun id v => Once cfg v ∧ id ∈ v.networks
      refine Safe.bind hcreate fun id => ?_
      exact Safe.bind (safe_tagNetwork fun v hv => hv.1) fun _ => Safe.pure fun v hv => hv

/-! ## The subnet -/

theorem mem_view_subnets {net id : Id} {cidr : String} :
    (id, cidr) ∈ (view ns c).subnets net ↔
      ∃ s ∈ c.subnets, s.networkId = net ∧ s.id = id ∧ s.cidr = cidr := by
  simp only [view, List.mem_map, List.mem_filter, decide_eq_true_eq, Prod.mk.injEq, and_assoc]

theorem view_addSubnet (s : Subnet) :
    view ns { c with subnets := c.subnets ++ [s] } =
      (view ns c).addSubnet s.networkId (s.id, s.cidr) := by
  have hsubnets : ∀ net, ((c.subnets ++ [s]).filter fun s => s.networkId = net).map
      (fun s => (s.id, s.cidr)) =
        ((view ns c).addSubnet s.networkId (s.id, s.cidr)).subnets net := by
    intro net
    simp only [View.addSubnet]
    by_cases heq : net = s.networkId
    · subst heq
      rw [Function.update_self, List.filter_append, List.map_append]
      simp only [List.filter_cons, decide_true, if_true, List.filter_nil, List.map_cons,
        List.map_nil, view]
    · rw [Function.update_of_ne heq, List.filter_append, List.map_append]
      simp only [List.filter_cons, Ne.symm heq, decide_false, Bool.false_eq_true, if_false,
        List.filter_nil, List.map_nil, List.append_nil, view]
  simp only [view, View.addSubnet] at hsubnets ⊢
  simp only [hsubnets]

/-- The network is there, and it is the one on record. -/
structure Networked (cfg : Config) (net : Id) (v : View) : Prop where
  once : Once cfg v
  network : net ∈ v.networks
  status : ∀ st, v.status = some st → st.netId = some net

/-- `create_subnet` returns the one subnet of the network. -/
theorem safe_createSubnet (net : Id) :
    Safe cfg ns (Networked cfg net) (createSubnet cfg env net)
      fun s v => Networked cfg net v ∧ s ∈ v.subnets net := by
  have hread : Triple (fun w : World => Networked cfg net (view ns w.cloud)) (read env .listSubnets)
      (fun c w => Networked cfg net (view ns w.cloud) ∧ w.cloud = c)
      fun _ w => Once cfg (view ns w.cloud) :=
    triple_call (P := fun c => Networked cfg net (view ns c))
      (Q := fun a c => Networked cfg net (view ns c) ∧ c = a)
      (E := fun _ c => Once cfg (view ns c)) (fun w hw => ⟨hw, rfl⟩)
      fun w _ _ _ hw => ⟨hw.once, hw.once⟩
  refine Triple.bind hread fun cloud => ?_
  cases hfind : cloud.subnets.find? fun s => s.networkId = net with
  | some s =>
    have hs : (s.id, s.cidr) ∈ (view ns cloud).subnets net := mem_view_subnets.mpr
      ⟨s, List.mem_of_find?_eq_some hfind, by simpa using List.find?_some hfind, rfl, rfl⟩
    have hreturn : Safe cfg ns (fun v => Networked cfg net v ∧ (s.id, s.cidr) ∈ v.subnets net)
        (pure (s.id, s.cidr)) fun s v => Networked cfg net v ∧ s ∈ v.subnets net :=
      Safe.pure fun v hv => hv
    have hpre : ∀ w : World, Networked cfg net (view ns w.cloud) ∧ w.cloud = cloud →
        Networked cfg net (view ns w.cloud) ∧ (s.id, s.cidr) ∈ (view ns w.cloud).subnets net := by
      rintro w ⟨hw, hcloud⟩
      exact ⟨hw, hcloud ▸ hs⟩
    simp only
    split
    · exact Triple.pre (Safe.bind (safe_tagSubnet fun v hv => hv.1.once) fun _ => hreturn) hpre
    · exact Triple.pre hreturn hpre
  | none =>
    have hnone : ∀ w : World, Networked cfg net (view ns w.cloud) ∧ w.cloud = cloud →
        Networked cfg net (view ns w.cloud) ∧ (view ns w.cloud).subnets net = [] := by
      rintro w ⟨hw, hcloud⟩
      refine ⟨hw, ?_⟩
      rw [hcloud, List.eq_nil_iff_forall_not_mem]
      rintro ⟨id, cidr⟩ hmem
      obtain ⟨s, hs, hnetId, _⟩ := mem_view_subnets.mp hmem
      rw [List.find?_eq_none] at hfind
      exact hfind s hs (decide_eq_true hnetId)
    have hpool : Safe cfg ns (fun v => Networked cfg net v ∧ v.subnets net = [])
        (read env .getSubnetpool) fun _ v => Networked cfg net v ∧ v.subnets net = [] :=
      safe_still (fun v hv => hv.1.once) fun _ => rfl
    have hcreate : Safe cfg ns (fun v => Networked cfg net v ∧ v.subnets net = [])
        (newSubnet env net) fun s v => Networked cfg net v ∧ s ∈ v.subnets net := by
      unfold newSubnet
      refine safe_call (fun v hv => hv.1.once) fun w hw => ?_
      have honce := hw.1.once.addSubnet (s := (env.newSubnetId w, env.newCidr w)) hw.2
      rw [view_addSubnet ⟨env.newSubnetId w, net, env.newCidr w, []⟩]
      refine ⟨⟨⟨honce, hw.1.network, hw.1.status⟩, ?_⟩, honce⟩
      show (env.newSubnetId w, env.newCidr w) ∈ Function.update (view ns w.cloud).subnets net
        ((view ns w.cloud).subnets net ++ [(env.newSubnetId w, env.newCidr w)]) net
      rw [Function.update_self]
      exact List.mem_append_right _ (List.mem_singleton_self _)
    refine Triple.pre (P := fun w => Networked cfg net (view ns w.cloud) ∧
      (view ns w.cloud).subnets net = []) ?_ hnone
    show Safe cfg ns (fun v => Networked cfg net v ∧ v.subnets net = []) (_ >>= _)
      fun s v => Networked cfg net v ∧ s ∈ v.subnets net
    refine Safe.bind hpool fun _ => Safe.bind (hcreate.tryCatch fun e => Safe.throw fun v hv => hv)
      fun s => ?_
    exact Safe.bind (safe_tagSubnet fun v hv => hv.1.once) fun _ => Safe.pure fun v hv => hv

/-! ## The stages of `on_present` -/

/-- What a patch adds may name other things than the status had. -/
theorem Names.merge {old new : Status} (hold : Names cfg v old) (hnew : Names cfg v new)
    (hcidr : new.subnetId = none → new.subnetCIDR = none) : Names cfg v (old.merge new) where
  netId := by
    intro id hid
    rcases Option.or_eq_some_iff.mp hid with hid | ⟨_, hid⟩
    · exact hnew.netId id hid
    · exact hold.netId id hid
  subnetId := by
    intro id hid
    rcases Option.or_eq_some_iff.mp hid with hid | ⟨hnone, hid⟩
    · obtain ⟨net, hnet, cidr, hmem, hcidr⟩ := hnew.subnetId id hid
      exact ⟨net, hnet, cidr, hmem, Option.or_eq_some_iff.mpr (.inl hcidr)⟩
    · obtain ⟨net, hnet, cidr, hmem, hcidr'⟩ := hold.subnetId id hid
      exact ⟨net, hnet, cidr, hmem, Option.or_eq_some_iff.mpr (.inr ⟨hcidr hnone, hcidr'⟩)⟩
  routerId := by
    intro id hid
    rcases Option.or_eq_some_iff.mp hid with hid | ⟨_, hid⟩
    · exact hnew.routerId id hid
    · exact hold.routerId id hid

theorem Once.patch (h : Once cfg v) {data : Status} (hdata : Names cfg v data)
    (hcidr : data.subnetId = none → data.subnetCIDR = none) :
    Once cfg { v with status := v.status.map fun st => st.merge data } := by
  refine h.record fun st hst => ?_
  obtain ⟨old, hold, rfl⟩ := Option.map_eq_some_iff.mp hst
  exact (h.status old hold).merge hdata hcidr

/-- The stored status is the one the execution was given, unless it is gone. -/
structure Given (cfg : Config) (st : Status) (v : View) : Prop where
  once : Once cfg v
  names : Names cfg v st
  status : ∀ st', v.status = some st' → st' = st

/-- The network is there and recorded; `r.2` says whether by this execution. -/
structure HasNetwork (cfg : Config) (st : Status) (r : Id × Bool) (v : View) : Prop where
  networked : Networked cfg r.1 v
  given : r.2 = false → Given cfg st v

/-- The subnet is there and recorded, too. -/
structure HasSubnet (cfg : Config) (st : Status) (r : Id × Bool) (v : View) : Prop where
  once : Once cfg v
  subnet : ∃ net ∈ v.networks, ∃ cidr, (r.1, cidr) ∈ v.subnets net ∧ ∀ st', v.status = some st' →
    st'.netId = some net ∧ st'.subnetId = some r.1 ∧ st'.subnetCIDR = some cidr
  given : r.2 = false → Given cfg st v

/-- Everything is there and recorded. -/
structure Finished (cfg : Config) (v : View) : Prop where
  once : Once cfg v
  complete : ∀ st, v.status = some st → Complete cfg v st

/-- A patch that names what there is. -/
theorem safe_patchStatus {P Q : View → Prop} {data : Status} (hP : ∀ v, P v → Once cfg v)
    (hgone : ∀ v, P v → Once cfg { v with status := none } → Q { v with status := none })
    (hdata : ∀ v, P v → Names cfg v data)
    (hcidr : data.subnetId = none → data.subnetCIDR = none)
    (hmerge : ∀ v, P v → Once cfg { v with status := v.status.map fun st => st.merge data } →
      Q { v with status := v.status.map fun st => st.merge data }) :
    Safe cfg ns P (patchStatus env data) fun _ => Q := by
  unfold patchStatus act
  refine safe_call hP fun w hw => ?_
  simp only
  split
  · have honce : Once cfg { view ns w.cloud with status := none } := (hP _ hw).record nofun
    exact ⟨hgone _ hw honce, honce⟩
  · have honce := (hP _ hw).patch (hdata _ hw) hcidr
    exact ⟨hmerge _ hw honce, honce⟩

/-- The event that tells of what was created. -/
theorem safe_announce {Q : α → View → Prop} {a : α} (hQ : ∀ v, Q a v → Once cfg v) :
    Safe cfg ns (Q a) (do addEvent env; return a) Q :=
  Safe.bind (safe_addEvent hQ) fun _ => Safe.pure fun _ hv => hv

theorem safe_ensureNetwork (hok : LookupOk ns env) (found : Option Namespace)
    (hfound : ∀ ns', found = some ns' → ns' = ns) :
    Safe cfg ns (Given cfg st) (ensureNetwork cfg env found st) (HasNetwork cfg st) := by
  unfold ensureNetwork
  cases hnet : st.netId with
  | some id =>
    refine Safe.pure fun v hv =>
      ⟨⟨hv.once, hv.names.netId id hnet, fun st' hst' => ?_⟩, fun _ => hv⟩
    rw [hv.status st' hst', hnet]
  | none =>
    cases found with
    | none => exact Safe.throw fun v hv => hv.once
    | some ns' =>
      obtain rfl := hfound ns' rfl
      refine Triple.pre (P := fun w => Once cfg (view ns' w.cloud)) ?_ fun w hw => hw.once
      refine Safe.bind (safe_reporting (safe_createNetwork hok)) fun id => ?_
      refine Safe.bind (Q := fun _ => HasNetwork cfg st (id, true)) (safe_patchStatus
        (fun v hv => hv.1) (fun v hv honce => ⟨⟨honce, hv.2, nofun⟩, nofun⟩)
        (fun v hv => ⟨?_, nofun, nofun⟩) (fun _ => rfl)
        fun v hv honce => ⟨⟨honce, hv.2, fun st' hst' => ?_⟩, nofun⟩)
        fun _ => safe_announce fun v hv => hv.networked.once
      · intro id' hid'
        cases hid'
        exact hv.2
      · obtain ⟨old, _, rfl⟩ := Option.map_eq_some_iff.mp hst'
        rfl

theorem safe_ensureSubnet (found : Option Namespace) (net : Id) (created : Bool) :
    Safe cfg ns (HasNetwork cfg st (net, created)) (ensureSubnet cfg env found st net created)
      (HasSubnet cfg st) := by
  unfold ensureSubnet
  split
  · rename_i id hsubnet
    refine Safe.pure fun v hv => ⟨hv.networked.once, ?_, fun _ => hv.given rfl⟩
    have hgiven := hv.given rfl
    obtain ⟨net', hnet', cidr, hmem, hcidr⟩ := hgiven.names.subnetId id hsubnet
    obtain rfl := hv.networked.once.unique hnet' hv.networked.network
    refine ⟨net', hnet', cidr, hmem, fun st' hst' => ⟨hv.networked.status st' hst', ?_⟩⟩
    rw [hgiven.status st' hst']
    exact ⟨hsubnet, hcidr⟩
  · cases found with
    | none => exact Safe.throw fun v hv => hv.networked.once
    | some ns' =>
      refine Triple.pre (P := fun w => Networked cfg net (view ns w.cloud)) ?_
        fun w hw => hw.networked
      refine Safe.bind (safe_reporting (safe_createSubnet net)) fun s => ?_
      refine Safe.bind (Q := fun _ => HasSubnet cfg st (s.1, true)) (safe_patchStatus
        (fun v hv => hv.1.once)
        (fun v hv honce => ⟨honce, ⟨net, hv.1.network, s.2, hv.2, nofun⟩, nofun⟩)
        (fun v hv => ⟨nofun, ?_, nofun⟩) nofun
        fun v hv honce => ⟨honce, ⟨net, hv.1.network, s.2, hv.2, fun st' hst' => ?_⟩, nofun⟩)
        fun _ => safe_announce fun v hv => hv.once
      · intro id hid
        cases hid
        exact ⟨net, hv.1.network, s.2, hv.2, rfl⟩
      · obtain ⟨old, hold, rfl⟩ := Option.map_eq_some_iff.mp hst'
        exact ⟨hv.1.status old hold, rfl, rfl⟩

/-- A network has one subnet. -/
theorem Once.unique_subnet (h : Once cfg v) {net : Id} (hnet : net ∈ v.networks)
    {s s' : Id × String} (hs : s ∈ v.subnets net) (hs' : s' ∈ v.subnets net) : s = s' := by
  have hlen := h.subnets net hnet
  cases hsubnets : v.subnets net with
  | nil =>
    rw [hsubnets] at hs
    cases hs
  | cons a rest =>
    rw [hsubnets, List.length_cons] at hlen
    obtain rfl : rest = [] := List.eq_nil_of_length_eq_zero (by omega)
    rw [hsubnets, List.mem_singleton] at hs hs'
    rw [hs, hs']

theorem safe_ensureRouter (s : Id) (created : Bool) :
    Safe cfg ns (HasSubnet cfg st (s, created)) (ensureRouter cfg env st s created)
      fun _ => Finished cfg := by
  unfold ensureRouter
  split
  · rename_i id hrouter
    refine Safe.pure fun v hv => ⟨hv.once, fun st' hst' => ?_⟩
    have hgiven := hv.given rfl
    obtain ⟨net, hnet, cidr, hmem, hstatus⟩ := hv.subnet
    obtain ⟨rfl, net', hnet', s', hs', hattached⟩ := hgiven.names.routerId id hrouter
    obtain rfl := hv.once.unique hnet hnet'
    obtain rfl := hv.once.unique_subnet hnet hmem hs'
    obtain ⟨hnetId, hsubnetId, hcidr⟩ := hstatus st' hst'
    refine ⟨net, hnet, (s, cidr), hmem, hattached, hnetId, hsubnetId, hcidr, ?_⟩
    rw [hgiven.status st' hst', hrouter]
  · have hattach : ∀ b, Safe cfg ns (HasSubnet cfg st (s, b)) (addSubnetToRouter cfg env s)
        fun id v => id = cfg.podRouter ∧ HasSubnet cfg st (s, true) v ∧ s ∈ v.attached := by
      intro b
      unfold addSubnetToRouter act
      refine Safe.bind (Q := fun _ v => HasSubnet cfg st (s, true) v ∧ s ∈ v.attached)
        (safe_call (fun v hv => hv.once) fun w hw => ?_) fun _ => Safe.pure fun v hv => ⟨rfl, hv⟩
      have honce := hw.once.attach s
      exact ⟨⟨⟨honce, hw.subnet, nofun⟩, List.mem_cons_self⟩, honce⟩
    refine Safe.bind (safe_reporting (hattach _)) fun id => ?_
    refine Safe.bind (Q := fun _ => Finished cfg) (safe_patchStatus (fun v hv => hv.2.1.once)
      (fun v hv honce => ⟨honce, nofun⟩) (fun v hv => ⟨nofun, nofun, ?_⟩) (fun _ => rfl)
      fun v hv honce => ⟨honce, fun st' hst' => ?_⟩)
      fun _ => safe_announce (Q := fun _ => Finished cfg) fun _ hv => hv.once
    · intro id' hid'
      cases hid'
      obtain ⟨net, hnet, cidr, hmem, _⟩ := hv.2.1.subnet
      exact ⟨hv.1, net, hnet, (s, cidr), hmem, hv.2.2⟩
    · obtain ⟨old, hold, rfl⟩ := Option.map_eq_some_iff.mp hst'
      obtain ⟨net, hnet, cidr, hmem, hstatus⟩ := hv.2.1.subnet
      obtain ⟨hnetId, hsubnetId, hcidr⟩ := hstatus old hold
      exact ⟨net, hnet, (s, cidr), hmem, hv.2.2, hnetId, hsubnetId, hcidr, congrArg some hv.1⟩

theorem safe_updateLabels (labels : List (String × String)) (created : Bool) :
    Safe cfg ns (Finished cfg) (updateLabels cfg env labels st created) fun _ => Finished cfg := by
  unfold updateLabels
  split
  · refine Safe.bind (Q := fun _ => Finished cfg) (safe_still (fun v hv => hv.once) fun _ => rfl)
      fun selectors => ?_
    have hrecord : Safe cfg ns (Finished cfg)
        (do patchStatus env { nsLabels := some labels }; addEvent env)
        fun _ => Finished cfg := by
      refine Safe.bind (Q := fun _ => Finished cfg) (safe_patchStatus (fun v hv => hv.once)
        (fun v hv honce => ⟨honce, nofun⟩) (fun v hv => ⟨nofun, nofun, nofun⟩) (fun _ => rfl)
        fun v hv honce => ⟨honce, fun st' hst' => ?_⟩) fun _ => safe_addEvent fun v hv => hv.once
      obtain ⟨old, hold, rfl⟩ := Option.map_eq_some_iff.mp hst'
      exact hv.complete old hold
    simp only
    split
    · unfold act
      exact Safe.bind (safe_still (fun v hv => hv.once) fun _ => rfl) fun _ => hrecord
    · exact hrecord
  · exact Safe.pure fun v hv => hv

/-- **One execution.** -/
theorem safe_onPresent (hok : LookupOk ns env) (labels : List (String × String)) :
    Safe cfg ns (Given cfg st) (onPresent cfg env ns labels st) fun _ => Finished cfg := by
  unfold onPresent
  refine Safe.bind (Q := fun _ => Given cfg st) (safe_still (fun v hv => hv.once) fun _ => rfl)
    fun gone => ?_
  have hfound : ∀ ns', (if gone then none else some ns) = some ns' → ns' = ns := by
    intro ns' h
    split at h
    · cases h
    · cases h
      rfl
  exact Safe.bind (safe_ensureNetwork hok _ hfound) fun network =>
    Safe.bind (safe_ensureSubnet _ network.1 network.2) fun subnet =>
    Safe.bind (safe_ensureRouter subnet.1 subnet.2) fun created => safe_updateLabels labels created

end Proofs

/-! ## Executions one after the other -/

def ending : EStateM.Result Fault World Unit → World
  | .ok _ w => w
  | .error _ w => w

/-- Executions of `on_present`, each on the status stored by then. What an execution has
done up to some call is what it leaves when it is cut short there, so the states reached
are all there are. -/
def networkSystem (cfg : Config) (ns : Namespace) :
    System World (Env × List (String × String)) where
  init := fun w => (∀ n ∈ w.cloud.networks, ¬ Own ns n) ∧ w.cloud.status = some {}
  step := fun w a w' => ∃ st, w.cloud.status = some st ∧ w' = ending (onPresent cfg a.1 ns a.2 st w)

section Runs

variable {cfg : Config} {ns : Namespace} {env : Env} {w : World} {st : Status}

theorem once_of_init (h : (networkSystem cfg ns).init w) : Once cfg (view ns w.cloud) := by
  have hnone : (view ns w.cloud).networks = [] := by
    rw [List.eq_nil_iff_forall_not_mem]
    intro id hid
    obtain ⟨n, hn, hown, _⟩ := mem_view_networks.mp hid
    exact h.1 n hn hown
  refine ⟨?_, ?_, fun st hst => ?_⟩
  · rw [hnone]
    exact Nat.zero_le _
  · rw [hnone]
    nofun
  · have hst : w.cloud.status = some st := hst
    rw [h.2] at hst
    cases hst
    exact ⟨nofun, nofun, nofun⟩

theorem Once.given (h : Once cfg (view ns w.cloud)) (hst : w.cloud.status = some st) :
    Given cfg st (view ns w.cloud) where
  once := h
  names := h.status st hst
  status := by
    intro st' hst'
    have hst' : w.cloud.status = some st' := hst'
    rw [hst] at hst'
    cases hst'
    rfl

theorem Once.step {labels : List (String × String)} (h : Once cfg (view ns w.cloud))
    (hok : LookupOk ns env) (hst : w.cloud.status = some st) :
    Once cfg (view ns (ending (onPresent cfg env ns labels st w)).cloud) := by
  have hrun := safe_onPresent hok labels w (h.given hst)
  cases hw : onPresent cfg env ns labels st w with
  | ok _ w' =>
    rw [hw] at hrun
    exact hrun.once
  | error _ w' =>
    rw [hw] at hrun
    exact hrun

/-- **A namespace gets one network and one subnet**, and an execution that returns has
recorded them. -/
theorem networkSystem_once (h : Reach (networkSystem cfg ns) (fun _ a => LookupOk ns a.1) w) :
    Once cfg (view ns w.cloud) ∧
      ∀ env labels st w', LookupOk ns env → w.cloud.status = some st →
        onPresent cfg env ns labels st w = .ok () w' →
          ∀ st', w'.cloud.status = some st' → Complete cfg (view ns w'.cloud) st' := by
  have honce : Once cfg (view ns w.cloud) := by
    refine h.invariant (I := fun w => Once cfg (view ns w.cloud)) (fun _ => once_of_init) ?_
    rintro s a s' hs hok ⟨st, hst, rfl⟩
    exact hs.step hok hst
  refine ⟨honce, fun env labels st w' hok hst hw => ?_⟩
  have hrun := safe_onPresent hok labels w (honce.given hst)
  rw [hw] at hrun
  exact hrun.complete

end Runs

/-! ## A network that is not found again -/

def webNamespace : Namespace where
  name := "web".toList
  uid := "7b6a1f0e-52d4-4c57-9f0e-1d2c3b4a5968".toList
  name_slash := by decide
  uid_slash := by decide
  uid_length := by decide

def webConfig : Config where
  tags := []
  podRouter := ⟨"router", by decide⟩
  networkPolicyEnabled := true
  enforceSgRules := true

/-- An id longer than all that are used. -/
def freshId (used : List Id) : Id :=
  ⟨String.ofList ('n' :: List.replicate (used.map fun id => id.1.length).sum 'n'), by simp⟩

theorem freshId_notMem (used : List Id) : freshId used ∉ used := by
  intro hmem
  have hlen : (freshId used).1.length = (used.map fun id => id.1.length).sum + 1 := by
    rw [freshId, String.length_ofList, List.length_cons, List.length_replicate]
  have hle : (freshId used).1.length ≤ (used.map fun id => id.1.length).sum :=
    List.le_sum_of_mem (List.mem_map.mpr ⟨_, hmem, rfl⟩)
  omega

def usedIds (w : World) : List Id :=
  w.cloud.networks.map Network.id ++ w.cloud.subnets.map Subnet.networkId

/-- Calls with the given fates. -/
def webEnv (fate : Site → Fate) : Env where
  fate := fun site _ => fate site
  namespaceGone := fun _ => false
  objectGone := fun _ => false
  newNetworkId := fun w => freshId (usedIds w)
  newSubnetId := fun _ => ⟨"subnet", by decide⟩
  newCidr := fun _ => "10.0.0.0/24"
  selectors := fun _ => false
  fresh := by
    intro w
    have hfresh := freshId_notMem (usedIds w)
    exact ⟨fun h => hfresh (List.mem_append_left _ h), fun h => hfresh (List.mem_append_right _ h)⟩

theorem lookupOk_webEnv {fate : Site → Fate} (hlist : fate .listNetworks = .returns)
    (htag : fate .tagFoundNetwork = .returns) : LookupOk webNamespace (webEnv fate) := by
  intro w b _
  show fate .listNetworks ≠ _ ∧ fate .tagFoundNetwork ≠ _
  rw [hlist, htag]
  exact ⟨nofun, nofun⟩

/-- The controller stops when the network has just been created. -/
def stopsAfterCreation : Env :=
  webEnv fun site => if site = .createNetwork then .raises .other true else .returns

/-- The answer to the search cannot be decoded. -/
def garbledListing : Env :=
  webEnv fun site => if site = .listNetworks then .raises .valueError false else .returns

def untouched : World where
  cloud := { networks := [], subnets := [], attached := [], status := some {}, finalizer := true }
  clock := 0

/-- One execution of a run. -/
def executeOnce (cfg : Config) (ns : Namespace) (w : World) (a : Env × List (String × String)) :
    Option World :=
  w.cloud.status.map fun st => ending (onPresent cfg a.1 ns a.2 st w)

theorem executeOnce_step {cfg : Config} {ns : Namespace} {w w' : World}
    {a : Env × List (String × String)} (h : executeOnce cfg ns w a = some w') :
    (networkSystem cfg ns).step w a w' := by
  obtain ⟨st, hst, rfl⟩ := Option.map_eq_some_iff.mp h
  exact ⟨st, hst, rfl⟩

theorem untouched_init : (networkSystem webConfig webNamespace).init untouched := ⟨nofun, rfl⟩

/-- After the crash the network is found again. -/
theorem networkSystem_once_resumed :
    ∃ w, Reach (networkSystem webConfig webNamespace) (fun _ a => LookupOk webNamespace a.1) w ∧
      w.cloud.networks ≠ [] ∧ Once webConfig (view webNamespace w.cloud) ∧
      ∃ w' st', onPresent webConfig (webEnv fun _ => .returns) webNamespace [] {} w = .ok () w' ∧
        w'.cloud.status = some st' ∧ Complete webConfig (view webNamespace w'.cloud) st' := by
  obtain ⟨w, w', hw, hnetworks, hstatus, hw', st', hst'⟩ : ∃ w w',
      execute (executeOnce webConfig webNamespace) untouched [(stopsAfterCreation, [])] = some w ∧
      w.cloud.networks ≠ [] ∧ w.cloud.status = some {} ∧
      onPresent webConfig (webEnv fun _ => .returns) webNamespace [] {} w = .ok () w' ∧
      ∃ st', w'.cloud.status = some st' :=
    ⟨_, _, rfl, List.cons_ne_nil _ _, rfl, rfl, _, rfl⟩
  have hreach : Reach (networkSystem webConfig webNamespace)
      (fun _ a => LookupOk webNamespace a.1) w := by
    obtain ⟨v, hv, h⟩ := Option.bind_eq_some_iff.mp hw
    cases h
    exact .step (.init untouched_init) (lookupOk_webEnv rfl rfl) (executeOnce_step hv)
  obtain ⟨honce, hcomplete⟩ := networkSystem_once hreach
  exact ⟨w, hreach, hnetworks, honce, w', st', hw', hst',
    hcomplete _ [] {} w' (lookupOk_webEnv rfl rfl) hstatus hw' st' hst'⟩

/-- The second execution creates a second network. -/
theorem networkSystem_creates_twice :
    ∃ w, Reach (networkSystem webConfig webNamespace) (fun _ _ => True) w ∧
      ¬ Once webConfig (view webNamespace w.cloud) := by
  obtain ⟨w, hw, htwo⟩ : ∃ w, execute (executeOnce webConfig webNamespace) untouched
      [(stopsAfterCreation, []), (garbledListing, [])] = some w ∧
      (view webNamespace w.cloud).networks.length = 2 := by
    exact ⟨_, rfl, by decide +kernel⟩
  refine ⟨w, Reach.execute (fun _ _ _ h => ⟨trivial, executeOnce_step h⟩) (.init untouched_init) hw,
    fun honce => ?_⟩
  have hle := honce.networks
  omega

end KuryrNetwork

end KuryrKubernetes
