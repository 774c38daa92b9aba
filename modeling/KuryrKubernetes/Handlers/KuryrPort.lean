import KuryrKubernetes.K8s.Objects
import KuryrKubernetes.Lib.Text
import KuryrKubernetes.Pool.State

/-!
# Acquiring the VIFs of a pod

`KuryrPortHandler.get_vifs` (`controller/handlers/kuryrport.py`) and the drivers it
asks for additional interfaces (`controller/drivers/multi_vif.py`).

- `NpwgNetworks.requestAdditionalVifs`: the loop over the networks of the annotation. It
  may raise at any network, and then the VIFs it has obtained are nowhere.
- `getVifs`: the whole acquisition. The outcome of every request is part of its
  input (`Acquisition`); what it did with the VIFs is its `Ledger`.
- `getVifs_allOrNothing_iff`: exactly when every VIF obtained is either recorded in the
  status of the KuryrPort or has been passed to `release_vif`.
-/

namespace KuryrKubernetes

open Dicts

/-! ## Additional interfaces -/

/-- One network of the annotation. -/
structure Network where
  name : Option String
  ns : Option String
deriving DecidableEq, Repr

/-- The `openstack.org/kuryr-config` of a network attachment definition. -/
structure NadConfig where
  subnetId : Option String
  driverType : Option String
deriving DecidableEq, Repr

/-- What `NPWGMultiVIFDriver` finds: the networks of the annotation (`_get_networks` may
raise), the definitions, the configured subnets, and the outcomes of the requests, the
`n`-th for the `n`-th network. -/
structure NpwgNetworks where
  networks : Except Exc (List Network)
  ns : String
  nad : String → String → Except Exc NadConfig
  podSubnet : String
  subnetMapping : String → Option String
  getSubnet : String → Except Exc String
  /-- `vif_drv.request_vif` of the pool (`none`) or of the driver with an alias. -/
  requestVif : Nat → Option String → String → Except Exc (Option Vif)

/-- A multi-VIF driver. -/
inductive MultiVifDriver where
  | noop
  | npwg (env : NpwgNetworks)

/-- The subnet of a network (multi_vif.py:66–84). -/
def NpwgNetworks.subnetOf (env : NpwgNetworks) (config : NadConfig) : String :=
  match config.subnetId.filter (· ≠ ""), config.driverType with
  | some subnet, _ => subnet
  | none, none => env.podSubnet
  | none, some driver => (env.subnetMapping driver).getD env.podSubnet

/-- One network: its VIF, if the driver has one (multi_vif.py:51–88). The namespace is
that of the network, or the one of the network before. -/
def NpwgNetworks.requestNetwork (env : NpwgNetworks) (n : Nat) (ns : String) (network : Network) :
    Except Exc (Option Vif) :=
  match network.name with
  | none => .error .annotationInvalid
  | some name => do
    let config ← env.nad ns name
    let subnet ← env.getSubnet (env.subnetOf config)
    env.requestVif n config.driverType subnet

/-- What a driver call ends with: the VIFs it obtained, and what it returns. -/
structure Obtained where
  vifs : List Vif
  outcome : Except Exc (List Vif)

/-- The loop of `request_additional_vifs`. -/
def NpwgNetworks.loop (env : NpwgNetworks) : Nat → String → List Vif → List Network → Obtained
  | _, _, vifs, [] => ⟨vifs, .ok vifs⟩
  | n, ns, vifs, network :: rest =>
    let ns := network.ns.getD ns
    match env.requestNetwork n ns network with
    | .error e => ⟨vifs, .error e⟩
    | .ok vif => env.loop (n + 1) ns (vifs ++ vif.toList) rest

/-- `request_additional_vifs` (multi_vif.py:30–33, 42–91). -/
def MultiVifDriver.requestAdditionalVifs : MultiVifDriver → Obtained
  | .noop => ⟨[], .ok []⟩
  | .npwg env =>
    match env.networks with
    | .error e => ⟨[], .error e⟩
    | .ok networks => env.loop 0 env.ns [] networks

/-- A driver that raises nothing. -/
def MultiVifDriver.Returns (d : MultiVifDriver) : Prop :=
  ∃ vifs, d.requestAdditionalVifs.outcome = .ok vifs

/-- **A driver that returns hands over what it obtained.** -/
theorem NpwgNetworks.loop_ok {env : NpwgNetworks} {vifs' : List Vif} :
    ∀ {networks : List Network} {n : Nat} {ns : String} {vifs : List Vif},
      (env.loop n ns vifs networks).outcome = .ok vifs' → (env.loop n ns vifs networks).vifs = vifs'
  | [], n, ns, vifs, h => by
    cases h
    rfl
  | network :: rest, n, ns, vifs, h => by
    rw [NpwgNetworks.loop] at h ⊢
    cases hreq : env.requestNetwork n (network.ns.getD ns) network with
    | error e =>
      rw [hreq] at h
      cases h
    | ok vif =>
      rw [hreq] at h
      exact NpwgNetworks.loop_ok h

theorem MultiVifDriver.requestAdditionalVifs_ok {d : MultiVifDriver} {vifs : List Vif}
    (h : d.requestAdditionalVifs.outcome = .ok vifs) : d.requestAdditionalVifs.vifs = vifs := by
  cases d with
  | noop =>
    cases h
    rfl
  | npwg env =>
    unfold MultiVifDriver.requestAdditionalVifs at h ⊢
    dsimp only at h ⊢
    cases hn : env.networks with
    | error e =>
      rw [hn] at h
      cases h
    | ok networks =>
      rw [hn] at h
      exact NpwgNetworks.loop_ok h

/-! ## The acquisition -/

/-- An entry of the `vifs` of a KuryrPort. -/
structure VifEntry where
  default : Bool
  vif : Vif
deriving DecidableEq, Repr

/-- `DEFAULT_IFNAME`. -/
def defaultIfname : String := "eth0"

/-- Everything `get_vifs` is told from outside. -/
structure Acquisition where
  /-- GET of the pod, with its `uid`. -/
  podUid : Except Exc String
  /-- `spec.podUid` of the KuryrPort. -/
  wantedUid : String
  /-- DELETE of a KuryrPort whose pod is gone. -/
  deleteCrd : Except Exc Unit
  project : Except Exc String
  securityGroups : Except Exc (List String)
  subnets : Except Exc (List String)
  /-- `request_vif` of the pool. -/
  mainVif : Except Exc (Option Vif)
  drivers : List MultiVifDriver
  ifnamePrefix : String
  /-- `patch_crd` of the KuryrPort status. -/
  patch : Except Exc Unit
  /-- `add_event`, which ignores the errors of the Kubernetes client. -/
  event : Except Exc Unit
  /-- `release_vif` of the pool, for the `n`-th interface. -/
  release : Nat → Except Exc Unit

/-- What happened to the VIFs. -/
structure Ledger where
  /-- The VIFs obtained from a driver. -/
  obtained : List Vif
  /-- The VIFs passed to `release_vif`. -/
  released : List Vif
  /-- `status.vifs`. -/
  recorded : Dict String VifEntry

/-- A ledger before anything happened. -/
def Ledger.empty : Ledger := ⟨[], [], Dict.empty⟩

/-- The name of the `i`-th additional interface. -/
def Acquisition.ifname (q : Acquisition) (i : Nat) : String := q.ifnamePrefix ++ toString i

/-- The interfaces one driver adds, numbered from `index + 1` (kuryrport.py:336–339). -/
def Acquisition.addVifs (q : Acquisition) :
    Nat → List Vif → Dict String VifEntry → Nat × Dict String VifEntry
  | index, [], vifs => (index, vifs)
  | index, vif :: rest, vifs =>
    q.addVifs (index + 1) rest (vifs.set (q.ifname (index + 1)) ⟨false, vif⟩)

/-- The loop over the drivers (kuryrport.py:331–339): the interfaces or an exception, and
the VIFs obtained. -/
def Acquisition.requestAll (q : Acquisition) :
    List MultiVifDriver → Nat → Dict String VifEntry → List Vif →
      Except Exc (Dict String VifEntry) × List Vif
  | [], _, vifs, obtained => (.ok vifs, obtained)
  | d :: rest, index, vifs, obtained =>
    let r := d.requestAdditionalVifs
    match r.outcome with
    | .error e => (.error e, obtained ++ r.vifs)
    | .ok more =>
      let (index, vifs) := q.addVifs index more vifs
      q.requestAll rest index vifs (obtained ++ r.vifs)

/-- The rollback (kuryrport.py:349–350): the VIFs passed to `release_vif`. -/
def Acquisition.rollback (q : Acquisition) : Nat → List Vif → Except Exc Unit × List Vif
  | _, [] => (.ok (), [])
  | n, vif :: rest =>
    match q.release n with
    | .error e => (.error e, [vif])
    | .ok () =>
      let (r, released) := q.rollback (n + 1) rest
      (r, vif :: released)

/-- The VIFs of some interfaces, in order. -/
def vifsOf (vifs : Dict String VifEntry) : List Vif := vifs.items.map (·.2.vif)

/-- The part of `get_vifs` behind the default interface (kuryrport.py:326–356). -/
def Acquisition.finish (q : Acquisition) (main : Vif) : Except Exc Bool × Ledger :=
  match q.requestAll q.drivers 0 (Dict.empty.set defaultIfname ⟨true, main⟩) [main] with
  | (.error e, obtained) => (.error e, ⟨obtained, [], Dict.empty⟩)
  | (.ok vifs, obtained) =>
    match q.patch with
    | .ok () => (q.event.map fun _ => true, ⟨obtained, [], vifs⟩)
    | .error e =>
      if e.isK8sClient then
        let (r, released) := q.rollback 0 (vifsOf vifs)
        (r.bind fun _ => q.event.map fun _ => true, ⟨obtained, released, Dict.empty⟩)
      else (.error e, ⟨obtained, [], Dict.empty⟩)

/-- The pod of the KuryrPort; one with another `uid` counts as gone. -/
def Acquisition.pod (q : Acquisition) : Except Exc Unit :=
  q.podUid.bind fun uid => if uid = q.wantedUid then .ok () else .error .k8sNotFound

/-- The default interface (kuryrport.py:267–324); `none` when the event is ignored. -/
def Acquisition.requestMain (q : Acquisition) : Except Exc (Option Vif) :=
  match q.pod with
  | .error .k8sNotFound =>
    match q.deleteCrd with
    | .error e => if e.isK8sClient then .ok none else .error e
    | .ok () => .ok none
  | .error e => .error e
  | .ok () => do
    let _ ← q.project
    let _ ← q.securityGroups
    match q.subnets with
    | .error .osNotFound | .error .k8sNotFound => return none
    | .error e => throw e
    | .ok _ =>
      match q.mainVif with
      -- a security group is gone: retry with the current ones
      | .error .osNotFound => throw .notReady
      | r => r

/-- `get_vifs` (kuryrport.py:267–356) for a KuryrPort without VIFs. -/
def Acquisition.getVifs (q : Acquisition) : Except Exc Bool × Ledger :=
  match q.requestMain with
  | .error e => (.error e, Ledger.empty)
  | .ok none => (.ok false, Ledger.empty)
  | .ok (some main) => q.finish main

/-! ## All or nothing -/

/-- All VIFs obtained are recorded, each once, under different names (a dictionary has
no others) and one of them as the default. -/
def Ledger.AllRecorded (l : Ledger) : Prop :=
  (vifsOf l.recorded).Perm l.obtained ∧ l.recorded.items.countP (·.2.default) = 1

/-- All VIFs obtained have been passed to `release_vif`. -/
def Ledger.AllReleased (l : Ledger) : Prop := l.obtained.Subperm l.released

/-- A call of `get_vifs` records all VIFs it has obtained, or releases them all. -/
def Ledger.AllOrNothing (l : Ledger) : Prop := l.AllRecorded ∨ l.AllReleased

/-! ### Names of interfaces -/

theorem toString_injective {i j : Nat} (h : toString i = toString j) : i = j := by
  have hd : Nat.toDigits 10 i = Nat.toDigits 10 j := by
    have := congrArg String.toList h
    simpa [Nat.toString_eq_ofList_toDigits] using this
  exact Texts.toDigits_injective hd

/-- **No additional interface is called like the default one.** -/
theorem Acquisition.ifname_ne_default (q : Acquisition) (i : Nat) :
    q.ifname (i + 1) ≠ defaultIfname := by
  intro h
  have hl : q.ifnamePrefix.toList ++ Nat.toDigits 10 (i + 1) = ['e', 't', 'h', '0'] := by
    have := congrArg String.toList h
    simpa [Acquisition.ifname, defaultIfname, Nat.toString_eq_ofList_toDigits] using this
  have hdigit : ∀ ch ∈ Nat.toDigits 10 (i + 1), ch.isDigit = true := fun ch hch =>
    Nat.isDigit_of_mem_toDigits (by decide) (by decide) hch
  have hne : Nat.toDigits 10 (i + 1) ≠ [] := Nat.toDigits_ne_nil
  -- the digits are the last letters of `eth0`, and of these only `0` is a digit
  have hsuffix : Nat.toDigits 10 (i + 1) <:+ ['e', 't', 'h', '0'] := ⟨_, hl⟩
  have hzero : Nat.toDigits 10 (i + 1) = Nat.toDigits 10 0 := by
    simp only [List.suffix_cons_iff, List.suffix_nil] at hsuffix
    rcases hsuffix with h | h | h | h | h
    · exact absurd (hdigit 'e' (by rw [h]; decide)) (by decide)
    · exact absurd (hdigit 't' (by rw [h]; decide)) (by decide)
    · exact absurd (hdigit 'h' (by rw [h]; decide)) (by decide)
    · rw [h]; decide
    · exact absurd h hne
  have := Nat.ofDigitChars_ten_toDigits (n := i + 1)
  rw [hzero, Nat.ofDigitChars_ten_toDigits] at this
  cases this

theorem Acquisition.ifname_injective (q : Acquisition) {i j : Nat} (h : q.ifname i = q.ifname j) :
    i = j :=
  toString_injective (String.append_right_inj _ |>.mp h)

/-! ### The interfaces collected -/

/-- The names in use are the default one and those of the first `index` additional
interfaces. -/
def Acquisition.Numbered (q : Acquisition) (index : Nat) (vifs : Dict String VifEntry) : Prop :=
  ∀ name ∈ vifs.keys, name = defaultIfname ∨ ∃ k, k < index ∧ name = q.ifname (k + 1)

theorem Acquisition.Numbered.fresh {q : Acquisition} {index : Nat} {vifs : Dict String VifEntry}
    (h : q.Numbered index vifs) : q.ifname (index + 1) ∉ vifs.keys := by
  intro hmem
  rcases h _ hmem with heq | ⟨k, hk, heq⟩
  · exact q.ifname_ne_default index heq
  · have := q.ifname_injective heq
    omega

/-- The interfaces of one driver are added at the end. -/
theorem Acquisition.addVifs_spec (q : Acquisition) :
    ∀ (more : List Vif) (index : Nat) (vifs : Dict String VifEntry), q.Numbered index vifs →
      q.Numbered (q.addVifs index more vifs).1 (q.addVifs index more vifs).2 ∧
        vifsOf (q.addVifs index more vifs).2 = vifsOf vifs ++ more ∧
        (q.addVifs index more vifs).2.items.countP (·.2.default)
          = vifs.items.countP (·.2.default)
  | [], index, vifs, h => ⟨h, by simp [Acquisition.addVifs], rfl⟩
  | vif :: more, index, vifs, h => by
    have hitems := Dict.set_items_of_not_mem h.fresh ⟨false, vif⟩
    have hnum : q.Numbered (index + 1) (vifs.set (q.ifname (index + 1)) ⟨false, vif⟩) := by
      intro name hname
      rcases Dict.mem_keys_upsert.mp hname with rfl | hname
      · exact .inr ⟨index, by omega, rfl⟩
      · rcases h name hname with h | ⟨k, hk, h⟩
        · exact .inl h
        · exact .inr ⟨k, by omega, h⟩
    obtain ⟨hnum', hvifs, hcount⟩ := q.addVifs_spec more _ _ hnum
    refine ⟨hnum', ?_, ?_⟩
    · rw [Acquisition.addVifs, hvifs, vifsOf, hitems]
      simp [vifsOf]
    · rw [Acquisition.addVifs, hcount, hitems]
      simp

/-- **The loop over the drivers** hands over everything it obtained, unless one of them
raises. -/
theorem Acquisition.requestAll_ok (q : Acquisition) :
    ∀ (drivers : List MultiVifDriver) (index : Nat) (vifs : Dict String VifEntry)
      (obtained : List Vif), q.Numbered index vifs → vifsOf vifs = obtained →
      (∀ d ∈ drivers, d.Returns) →
      ∃ vifs', q.requestAll drivers index vifs obtained = (.ok vifs', vifsOf vifs') ∧
        vifsOf vifs' = obtained ++ drivers.flatMap (fun d => d.requestAdditionalVifs.vifs) ∧
        vifs'.items.countP (·.2.default) = vifs.items.countP (·.2.default)
  | [], index, vifs, obtained, _, hobtained, _ =>
    ⟨vifs, by rw [← hobtained]; rfl, by simpa using hobtained, rfl⟩
  | d :: rest, index, vifs, obtained, hnum, hobtained, hret => by
    obtain ⟨more, hmore⟩ := hret d List.mem_cons_self
    obtain ⟨hnum', hvifs, hcount⟩ := q.addVifs_spec more index vifs hnum
    have hnext : vifsOf (q.addVifs index more vifs).2 = obtained ++
      d.requestAdditionalVifs.vifs := by
      rw [hvifs, hobtained, MultiVifDriver.requestAdditionalVifs_ok hmore]
    obtain ⟨vifs', heq, hall, hcount'⟩ := q.requestAll_ok rest _ _ _ hnum' hnext
      fun d' hd' => hret d' (List.mem_cons_of_mem _ hd')
    refine ⟨vifs', ?_, ?_, hcount'.trans hcount⟩
    · rw [Acquisition.requestAll, hmore]
      exact heq
    · rw [hall, List.append_assoc, List.flatMap_cons]

/-- A driver that raises ends the loop; nothing obtained so far is forgotten. -/
theorem Acquisition.requestAll_error (q : Acquisition) :
    ∀ (drivers : List MultiVifDriver) (index : Nat) (vifs : Dict String VifEntry)
      (obtained : List Vif), (¬ ∀ d ∈ drivers, d.Returns) →
      ∃ e more, q.requestAll drivers index vifs obtained = (.error e, obtained ++ more)
  | [], _, _, _, h => absurd (fun _ hd => nomatch hd) h
  | d :: rest, index, vifs, obtained, h => by
    rw [Acquisition.requestAll]
    cases hout : d.requestAdditionalVifs.outcome with
    | error e => exact ⟨e, _, rfl⟩
    | ok more =>
      have hrest : ¬ ∀ d ∈ rest, d.Returns := by
        intro hall
        refine h fun d' hd' => ?_
        rcases List.mem_cons.mp hd' with rfl | hd'
        · exact ⟨more, hout⟩
        · exact hall d' hd'
      obtain ⟨e, more', heq⟩ := q.requestAll_error rest (q.addVifs index more vifs).1
        (q.addVifs index more vifs).2 (obtained ++ d.requestAdditionalVifs.vifs) hrest
      refine ⟨e, d.requestAdditionalVifs.vifs ++ more', ?_⟩
      rw [← List.append_assoc]
      exact heq

/-- The rollback reaches the `n`-th of the remaining VIFs when the releases before it
succeed. -/
theorem Acquisition.rollback_all (q : Acquisition) :
    ∀ (vifs : List Vif) (n : Nat),
      vifs.Subperm (q.rollback n vifs).2 ↔ ∀ i, i + 1 < vifs.length → q.release (n + i) = .ok ()
  | [], n => by simp [Acquisition.rollback]
  | vif :: rest, n => by
    rw [Acquisition.rollback]
    cases hrel : q.release n with
    | error e =>
      rw [List.subperm_cons, List.subperm_nil]
      constructor
      · rintro rfl i hi
        simp at hi
      · intro h
        by_contra hne
        have hpos := List.length_pos_iff.mpr hne
        have := h 0 (by simpa using hpos)
        rw [Nat.add_zero, hrel] at this
        cases this
    | ok u =>
      rw [List.subperm_cons, q.rollback_all rest (n + 1)]
      constructor
      · intro h i hi
        cases i with
        | zero => exact hrel
        | succ i =>
          have := h i (by simpa using hi)
          rwa [show n + (i + 1) = n + 1 + i by omega]
      · intro h i hi
        have := h (i + 1) (by simpa using hi)
        rwa [show n + 1 + i = n + (i + 1) by omega]

/-- The outcomes that leave nothing half done: no default VIF is obtained; or no driver
raises, and the status is patched, or else the rollback is not interrupted before its
last VIF. -/
def Acquisition.Uninterrupted (q : Acquisition) : Prop :=
  ∀ main, q.requestMain = .ok (some main) →
    (∀ d ∈ q.drivers, d.Returns) ∧
    (q.patch = .ok () ∨ ((∃ e, q.patch = .error e ∧ e.isK8sClient) ∧
      ∀ i, i < (q.drivers.flatMap fun d => d.requestAdditionalVifs.vifs).length →
        q.release i = .ok ()))

/-- A VIF that is neither recorded nor released. -/
theorem Ledger.not_allOrNothing {l : Ledger} (vif : Vif) (hobtained : vif ∈ l.obtained)
    (hreleased : l.released = []) (hrecorded : l.recorded = Dict.empty) : ¬ l.AllOrNothing := by
  rintro (⟨-, hcount⟩ | hsub)
  · rw [hrecorded] at hcount
    cases hcount
  · rw [Ledger.AllReleased, hreleased, List.subperm_nil] at hsub
    rw [hsub] at hobtained
    cases hobtained

theorem Acquisition.finish_allOrNothing_iff (q : Acquisition) (main : Vif) :
    (q.finish main).2.AllOrNothing ↔
      (∀ d ∈ q.drivers, d.Returns) ∧
      (q.patch = .ok () ∨ ((∃ e, q.patch = .error e ∧ e.isK8sClient) ∧
        ∀ i, i < (q.drivers.flatMap fun d => d.requestAdditionalVifs.vifs).length →
          q.release i = .ok ())) := by
  unfold Acquisition.finish
  by_cases hret : ∀ d ∈ q.drivers, d.Returns
  · have hnum : q.Numbered 0 (Dict.empty.set defaultIfname ⟨true, main⟩) := fun name hname => by
      rcases Dict.mem_keys_upsert.mp hname with rfl | hname
      · exact .inl rfl
      · cases hname
    obtain ⟨vifs, heq, hall, hcount⟩ := q.requestAll_ok q.drivers 0 _ [main] hnum rfl hret
    rw [heq]
    cases hpatch : q.patch with
    | ok u =>
      refine iff_of_true (.inl ⟨List.Perm.refl _, hcount⟩) ⟨hret, .inl rfl⟩
    | error e =>
      dsimp only
      split
      · next he =>
        -- the rollback: nothing is recorded
        have hrec : ¬ (Ledger.mk (vifsOf vifs)
          (q.rollback 0 (vifsOf vifs)).2 Dict.empty).AllRecorded := by
          rintro ⟨-, hcount⟩
          cases hcount
        have hlen : (vifsOf vifs).length
            = (q.drivers.flatMap fun d => d.requestAdditionalVifs.vifs).length + 1 := by
          rw [hall, List.length_append, List.length_singleton]
          omega
        have hiff := q.rollback_all (vifsOf vifs) 0
        rw [hlen] at hiff
        constructor
        · rintro (h | h)
          · exact absurd h hrec
          · refine ⟨hret, .inr ⟨⟨e, rfl, he⟩, fun i hi => ?_⟩⟩
            have := hiff.mp h i (by omega)
            rwa [Nat.zero_add] at this
        · rintro ⟨-, h | ⟨-, h⟩⟩
          · cases h
          · refine .inr (hiff.mpr fun i hi => ?_)
            rw [Nat.zero_add]
            exact h i (by omega)
      · next he =>
        refine iff_of_false (Ledger.not_allOrNothing main ?_ rfl rfl) ?_
        · rw [hall]
          exact List.mem_append_left _ List.mem_cons_self
        · rintro ⟨-, h | ⟨⟨e', h, he'⟩, -⟩⟩
          · cases h
          · cases h
            exact he he'
  · obtain ⟨e, more, heq⟩ := q.requestAll_error q.drivers 0
      (Dict.empty.set defaultIfname ⟨true, main⟩) [main] hret
    rw [heq]
    exact iff_of_false (Ledger.not_allOrNothing main (by simp) rfl rfl) fun h => hret h.1

/-- **The acquisition of VIFs is all or nothing**, exactly when it is not interrupted. -/
theorem getVifs_allOrNothing_iff (q : Acquisition) :
    q.getVifs.2.AllOrNothing ↔ q.Uninterrupted := by
  unfold Acquisition.getVifs Acquisition.Uninterrupted
  cases hmain : q.requestMain with
  | error e => exact iff_of_true (.inr List.nil_subperm) fun main h => nomatch h
  | ok main? =>
    cases main? with
    | none => exact iff_of_true (.inr List.nil_subperm) fun main h => nomatch h
    | some main =>
      refine (q.finish_allOrNothing_iff main).trans ⟨fun h main' heq => ?_, fun h => h main rfl⟩
      cases heq
      exact h

/-- A pod on a node, with one network in its annotation whose definition is missing. -/
def missingNad : Acquisition where
  podUid := .ok "uid-1"
  wantedUid := "uid-1"
  deleteCrd := .ok ()
  project := .ok "project"
  securityGroups := .ok ["default"]
  subnets := .ok ["subnet"]
  mainVif := .ok (some ⟨"port-1", "net"⟩)
  drivers := [.npwg
    { networks := .ok [⟨some "storage", none⟩]
      ns := "shop"
      nad := fun _ _ => .error .k8sNotFound
      podSubnet := "subnet"
      subnetMapping := fun _ => none
      getSubnet := .ok
      requestVif := fun _ _ _ => .ok none }]
  ifnamePrefix := "eth"
  patch := .ok ()
  event := .ok ()
  release := fun _ => .ok ()

/-- The default VIF is lost when the driver of the additional interfaces raises. -/
theorem getVifs_loses_default_vif :
    missingNad.getVifs.1 = .error .k8sNotFound ∧
      missingNad.getVifs.2.obtained = [⟨"port-1", "net"⟩] ∧ ¬ missingNad.getVifs.2.AllOrNothing :=
  ⟨rfl, rfl, Ledger.not_allOrNothing ⟨"port-1", "net"⟩ (by decide) rfl rfl⟩

end KuryrKubernetes
