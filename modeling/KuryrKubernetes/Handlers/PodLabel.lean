import KuryrKubernetes.Drivers.AffectedServices
import KuryrKubernetes.Lib.Effect
import KuryrKubernetes.Lib.Result

/-!
# Changes of pod labels

`PodLabelHandler` (`controller/handlers/pod_label.py`) keeps the labels and the address it
has last seen of a pod in two annotations of the pod. When they differ from those of the
pod, it has the rules and the port of the pod updated, and writes the annotations again.

- `getVifs`, `hasVifs`: the guard. `get_vifs` returns VIF objects by interface name, and
  the guard looks for the key `status` among the names.
- `getPodInfo`, `infoPatch`: the annotations. A key whose value is `None` is removed by
  the patch, and one missing key reads as no info at all.
- `Handler`: a program that records the calls it makes.

`hasVifs_ne_true` says that the guard never lets an event through, `relabel_calls` what the
handler does behind the guard, `readBack_iff` which info survives the annotations.
-/

namespace KuryrKubernetes

namespace PodLabelHandler

open Dicts LabelSelectors Results Effect

/-- The exceptions that are told apart. -/
inductive Raised where
  | keyError
  | attributeError
  | typeError
  | notFound
  | other
deriving DecidableEq, Repr

/-- What `jsonutils.loads` returns: `None`, a dictionary of texts, or something else. -/
inductive Json where
  | null
  | labels (d : Labels)
  | other (text : String)
deriving DecidableEq, Repr

/-- `==`, which does not look at the order of a dictionary. -/
def Json.eq : Json → Json → Bool
  | .null, .null => true
  | .labels d, .labels e => d.same e
  | .other s, .other t => s = t
  | _, _ => false

/-- The pod, as the handler reads it. -/
structure Pod where
  labels : Option Labels
  podIP : Option String
  annotations : Option (Dict String String)
  hostNetwork : Bool
deriving DecidableEq, Repr

/-- A KuryrPort: the `vif` of each interface of its status, if there is one. -/
structure KuryrPort (P : Type) where
  vifs : Option (Dict String (Option P))

/-- What surrounds the handler while it looks at one pod: serialised VIFs are `P`, VIF
objects `V`. -/
structure Env (P V : Type) where
  /-- `k8s.get` of the KuryrPort of the pod -/
  kuryrPort : Except Raised (KuryrPort P)
  objFromPrimitive : P → Except Raised V
  /-- `vif[key]` of a VIF object -/
  item : V → String → Except Raised Unit
  dumps : Labels → String
  loads : String → Except Raised Json
  updateSgRules : Except Raised (List LabelSelector)
  getProject : Except Raised String
  getSecurityGroups : String → Except Raised (List String)
  updateVifSgs : List String → Except Raised Unit
  annotate : Except Raised Unit
  enforceSgRules : Bool
  getServices : Except Raised (List Service)
  getServiceSecurityGroups : Service → String → Except Raised (List String)
  updateLbaasSg : Service → List String → Except Raised Unit

/-- A merge patch of the annotations; `none` removes a key. -/
abbrev Patch := List (String × Option String)

/-- The calls that change something. -/
inductive Call where
  | updateSgRules
  | updateVifSgs (sgs : List String)
  | annotate (patch : Patch)
  | updateLbaasSg (service : Service) (sgs : List String)
deriving DecidableEq, Repr

/-- A program that records its calls. -/
abbrev Handler := EStateM Raised (List Call)

def lift {α : Type} : Except Raised α → Handler α
  | .ok a => return a
  | .error e => throw e

/-- A call, which is made also when it fails. -/
def call {α : Type} (c : Call) (result : Except Raised α) : Handler α := do
  modify (· ++ [c])
  lift result

variable {P V : Type}

/-! ## The guard -/

/-- `get_kuryrport` (utils.py:66–73). -/
def getKuryrport (env : Env P V) : Except Raised (Option (KuryrPort P)) :=
  match env.kuryrPort with
  | .ok kp => .ok (some kp)
  | .error .notFound => .ok none
  | .error e => .error e

/-- `get_vifs` (utils.py:76–81). -/
def getVifs (env : Env P V) (kp : Option (KuryrPort P)) : Except Raised (List (String × V)) :=
  match kp.bind KuryrPort.vifs with
  -- without a KuryrPort, `kp['status']` is a `TypeError`
  | none => .ok []
  | some d =>
    let vifs : Except Raised (List (String × V)) := each (fun e => do
      match e.2 with
      | none => throw .keyError
      | some vif => return (e.1, ← env.objFromPrimitive vif)) d.items
    match vifs with
    | .ok vifs => .ok vifs
    | .error .keyError | .error .attributeError | .error .typeError => .ok []
    | .error e => .error e

/-- The first lines of `_has_vifs`, up to `cr_vifs['status']['vifs']`. -/
def statusVifs (env : Env P V) : Except Raised Unit := do
  let kp ← getKuryrport env
  let crVifs ← getVifs env kp
  match crVifs.lookup "status" with
  | none => throw .keyError
  | some vif => env.item vif "vifs"

/-- `_has_vifs` (pod_label.py:97–105). -/
def hasVifs (env : Env P V) : Except Raised Bool :=
  match statusVifs env with
  | .ok _ => .ok true
  | .error .keyError => .ok false
  | .error e => .error e

/-! ## The annotations -/

def labelKey : String := "openstack.org/kuryr-pod-label"

def ipKey : String := "openstack.org/kuryr-pod-ip"

/-- The labels and the address of a pod. -/
abbrev Info := Json × Option String

/-- `==` of two pairs. -/
def sameInfo (i j : Info) : Bool := i.1.eq j.1 && i.2 = j.2

/-- `current_pod_info`. -/
def Pod.info (pod : Pod) : Info := (pod.labels.elim .null .labels, pod.podIP)

/-- `_get_pod_info` (pod_label.py:73–81). -/
def getPodInfo (env : Env P V) (pod : Pod) : Except Raised Info :=
  match pod.annotations with
  | none => .ok (.null, none)
  | some annotations =>
    match annotations.get? labelKey, annotations.get? ipKey with
    | some podLabels, some podIp => do return (← env.loads podLabels, some podIp)
    | _, _ => .ok (.null, none)

/-- The annotations `_set_pod_info` writes (pod_label.py:83–95): for no labels, and for an
empty dictionary, the label annotation is removed. -/
def infoPatch (env : Env P V) (pod : Pod) : Patch :=
  [(labelKey, (pod.labels.filter (·.items ≠ [])).map env.dumps), (ipKey, pod.podIP)]

/-- A merge patch. -/
def mergePatch (annotations : Option (Dict String String)) (patch : Patch) : Dict String String :=
  patch.foldl (fun d e => match e.2 with
    | none => d.erase e.1
    | some v => d.set e.1 v) (annotations.getD Dict.empty)

/-- The pod after `_set_pod_info`. -/
def Pod.stored (env : Env P V) (pod : Pod) : Pod :=
  { pod with annotations := some (mergePatch pod.annotations (infoPatch env pod)) }

/-! ## The handler -/

/-- One iteration of `_update_services` (pod_label.py:107–113). -/
def updateService (env : Env P V) (crdPodSelectors : List LabelSelector) (projectId : String)
    (service : Service) : Handler PUnit := do
  if serviceMatchesAffectedPods service crdPodSelectors then
    let sgs ← lift (env.getServiceSecurityGroups service projectId)
    call (.updateLbaasSg service sgs) (env.updateLbaasSg service sgs)

/-- The end of `on_present`, once the info has been written. -/
def updateServices (env : Env P V) (crdPodSelectors : List LabelSelector) (projectId : String) :
    Handler PUnit := do
  if env.enforceSgRules then
    let services ← lift env.getServices
    services.forM (updateService env crdPodSelectors projectId)

/-- The info is written, and then the services are updated, unless the pod is gone
(pod_label.py:83–95, 64–71). -/
def storeInfo (env : Env P V) (pod : Pod) (crdPodSelectors : List LabelSelector)
    (projectId : String) : Handler PUnit := do
  modify (· ++ [.annotate (infoPatch env pod)])
  match env.annotate with
  | .error .notFound => return
  | .error e => throw e
  | .ok _ => updateServices env crdPodSelectors projectId

/-- `on_present` behind its guard (pod_label.py:56–71). -/
def relabel (env : Env P V) (pod : Pod) : Handler PUnit := do
  let previous ← lift (getPodInfo env pod)
  if sameInfo pod.info previous then return
  let crdPodSelectors ← call .updateSgRules env.updateSgRules
  let projectId ← lift env.getProject
  let securityGroups ← lift (env.getSecurityGroups projectId)
  call (.updateVifSgs securityGroups) (env.updateVifSgs securityGroups)
  storeInfo env pod crdPodSelectors projectId

/-- `on_present` (pod_label.py:50–71). -/
def onPresent (env : Env P V) (pod : Pod) : Handler PUnit := do
  if pod.hostNetwork then return
  if ← lift (hasVifs env) then relabel env pod

/-- The calls of one run, however it ends. -/
def calls (x : Handler PUnit) : List Call :=
  match x [] with
  | .ok _ cs => cs
  | .error _ cs => cs

/-! ## The guard never opens -/

/-- **The guard never opens**, since a VIF object cannot be subscripted: without an
interface named `status` there is a `KeyError`, with one a `TypeError`. -/
theorem hasVifs_ne_true (env : Env P V) (hitem : ∀ v key, env.item v key = .error .typeError) :
    hasVifs env ≠ .ok true := by
  have hstatus : ∀ u, statusVifs env ≠ .ok u := by
    intro u h
    obtain ⟨kp, -, h⟩ := bind_eq_ok.mp h
    obtain ⟨crVifs, -, h⟩ := bind_eq_ok.mp h
    cases hname : crVifs.lookup "status" with
    | none =>
      rw [hname] at h
      cases h
    | some vif =>
      rw [hname] at h
      change env.item vif "vifs" = _ at h
      rw [hitem] at h
      cases h
  intro h
  unfold hasVifs at h
  cases hs : statusVifs env with
  | ok u => exact hstatus u hs
  | error e =>
    rw [hs] at h
    cases e <;> cases h

theorem calls_onPresent (env : Env P V) (hitem : ∀ v key, env.item v key = .error .typeError)
    (pod : Pod) : calls (onPresent env pod) = [] := by
  have hguard := hasVifs_ne_true env hitem
  unfold calls onPresent
  cases pod.hostNetwork with
  | true => rfl
  | false =>
    cases hv : hasVifs env with
    | error e => rfl
    | ok b =>
      cases b with
      | true => exact absurd hv hguard
      | false => rfl

/-! ## Behind the guard -/

/-- The calls a changed pod asks for: the rules, then the port, then the info. -/
def changeCalls (env : Env P V) (pod : Pod) (sgs : List String) : List Call :=
  [.updateSgRules, .updateVifSgs sgs, .annotate (infoPatch env pod)]

/-- The program adds to the record, and takes nothing back. -/
def Adds {α : Type} (x : Handler α) : Prop :=
  ∀ l : List Call, Triple (l <+: ·) x (fun _ => (l <+: ·)) fun _ => (l <+: ·)

theorem adds_lift {α : Type} (x : Except Raised α) : Adds (lift x) := by
  intro l
  cases x with
  | ok a => exact Triple.pure fun _ hs => hs
  | error e => exact Triple.throw fun _ hs => hs

theorem adds_call {α : Type} (c : Call) (x : Except Raised α) : Adds (call c x) := fun l =>
  Triple.bind (Triple.modify fun _ hs => hs.trans (List.prefix_append _ _)) fun _ => adds_lift x l

theorem adds_updateServices (env : Env P V) (crdPodSelectors : List LabelSelector)
    (projectId : String) : Adds (updateServices env crdPodSelectors projectId) := by
  intro l
  unfold updateServices
  split
  · refine Triple.bind (adds_lift _ l) fun services =>
      Triple.forM (I := fun _ => (l <+: ·)) (fun service _ => ?_) services
    unfold updateService
    split
    · exact Triple.bind (adds_lift _ l) fun sgs => adds_call _ _ l
    · exact Triple.pure fun _ hs => hs
  · exact Triple.pure fun _ hs => hs

/-- **Behind the guard**, a changed pod gets its rules and its port updated and its info
written, in this order. -/
theorem relabel_calls {env : Env P V} {pod : Pod} {previous : Info}
    {crdPodSelectors : List LabelSelector} {projectId : String} {sgs : List String}
    (hprevious : getPodInfo env pod = .ok previous) (hchanged : sameInfo pod.info previous = false)
    (hrules : env.updateSgRules = .ok crdPodSelectors) (hproject : env.getProject = .ok projectId)
    (hsgs : env.getSecurityGroups projectId = .ok sgs) (hport : env.updateVifSgs sgs = .ok ()) :
    changeCalls env pod sgs <+: calls (relabel env pod) := by
  have hrun : relabel env pod [] =
      storeInfo env pod crdPodSelectors projectId [.updateSgRules, .updateVifSgs sgs] := by
    unfold relabel
    rw [hprevious, hrules, hproject]
    simp only [lift, call, pure_bind, bind_assoc, hchanged, hsgs, hport]
    rfl
  have hadds := adds_updateServices env crdPodSelectors projectId (changeCalls env pod sgs)
    (changeCalls env pod sgs) (List.prefix_refl _)
  unfold calls
  rw [hrun]
  unfold storeInfo
  cases env.annotate with
  | error e => cases e <;> exact List.prefix_refl _
  | ok u =>
    change changeCalls env pod sgs <+: calls fun _ =>
      updateServices env crdPodSelectors projectId (changeCalls env pod sgs)
    unfold calls
    dsimp only
    cases hend : updateServices env crdPodSelectors projectId (changeCalls env pod sgs) with
    | ok _ cs =>
      rw [hend] at hadds
      exact hadds
    | error _ cs =>
      rw [hend] at hadds
      exact hadds

/-! ## What the annotations give back -/

/-- One key of a merge patch. -/
theorem get?_mergePatch_cons (annotations : Option (Dict String String)) (patch : Patch)
    (e : String × Option String) (h : ∀ e' ∈ patch, e'.1 ≠ e.1) :
    (mergePatch annotations (e :: patch)).get? e.1 = e.2 := by
  have hrest : ∀ (patch : Patch) (d : Dict String String), (∀ e' ∈ patch, e'.1 ≠ e.1) →
      (mergePatch (some d) patch).get? e.1 = d.get? e.1 := by
    intro patch
    induction patch with
    | nil => intro d _; rfl
    | cons e' patch ih =>
      intro d hne
      have hkey : e.1 ≠ e'.1 := (hne e' List.mem_cons_self).symm
      have hd : ∀ d', (mergePatch (some d') patch).get? e.1 = d'.get? e.1 := fun d' =>
        ih d' fun x hx => hne x (List.mem_cons_of_mem _ hx)
      obtain ⟨k, v⟩ := e'
      cases v with
      | none => exact (hd _).trans (Dict.get?_erase_of_ne _ hkey)
      | some v => exact (hd _).trans (Dict.get?_upsert_of_ne _ _ hkey)
  obtain ⟨k, v⟩ := e
  cases v with
  | none => exact (hrest patch _ h).trans (Dict.get?_erase_self _ _)
  | some v => exact (hrest patch _ h).trans (Dict.get?_upsert_self _ _ _)

theorem get?_stored_label (env : Env P V) (pod : Pod) :
    (mergePatch pod.annotations (infoPatch env pod)).get? labelKey =
      (pod.labels.filter (·.items ≠ [])).map env.dumps := by
  refine get?_mergePatch_cons _ _ (labelKey, _) fun e he => ?_
  rw [List.mem_singleton.mp he]
  show ipKey ≠ labelKey
  decide

theorem get?_stored_ip (env : Env P V) (pod : Pod) :
    (mergePatch pod.annotations (infoPatch env pod)).get? ipKey = pod.podIP :=
  get?_mergePatch_cons (some (mergePatch pod.annotations ((infoPatch env pod).take 1))) []
    (ipKey, pod.podIP) fun _ he => by cases he

/-- The info a pod's annotations can hold: labels and an address, or neither. -/
def Pod.Storable (pod : Pod) : Prop :=
  ((∃ d, pod.labels = some d ∧ d.items ≠ []) ∧ pod.podIP ≠ none) ∨
    (pod.labels = none ∧ pod.podIP = none)

/-- What is written is read back. -/
def ReadBack (env : Env P V) (pod : Pod) : Prop :=
  ∃ info, getPodInfo env (pod.stored env) = .ok info ∧ sameInfo pod.info info = true

/-- **What the annotations give back**: an info that lacks one of its halves is lost. -/
theorem readBack_iff (env : Env P V) (pod : Pod)
    (hjson : ∀ d, pod.labels = some d →
      ∃ e, env.loads (env.dumps d) = .ok (.labels e) ∧ d.same e = true) :
    ReadBack env pod ↔ pod.Storable := by
  have hnone : sameInfo pod.info (.null, none) = true ↔ pod.labels = none ∧ pod.podIP = none := by
    unfold sameInfo Pod.info
    cases pod.labels <;> simp [Json.eq]
  unfold ReadBack Pod.Storable getPodInfo Pod.stored
  dsimp only
  rw [get?_stored_label, get?_stored_ip]
  cases hl : pod.labels with
  | none =>
    rw [hl] at hnone
    simpa [hl] using hnone
  | some d =>
    rw [hl] at hnone
    by_cases hd : d.items = []
    · simpa [Option.filter, hd] using hnone
    · obtain ⟨e, hload, hsame⟩ := hjson d hl
      cases hip : pod.podIP with
      | none =>
        rw [hip] at hnone
        simpa [Option.filter, hd] using hnone
      | some ip =>
        have hinfo : sameInfo pod.info (.labels e, some ip) = true := by
          simp [sameInfo, Pod.info, hl, hip, Json.eq, hsame]
        simp [Option.filter, hd, hload, bind, Except.bind, pure, Except.pure, hinfo]

/-! ## Label changes and the policies -/

/-- The info in the annotations is not that of the pod. -/
def Changed (env : Env P V) (pod : Pod) : Prop :=
  ¬ ∃ previous, getPodInfo env pod = .ok previous ∧ sameInfo pod.info previous = true

/-- Label changes reach the policies: a changed pod gets its rules and its port updated and
its new info written, which is read back, so that the event repeated does nothing. -/
structure ChangesReach (env : Env P V) (pod : Pod) : Prop where
  reaches : Changed env pod → ∃ projectId sgs, env.getProject = .ok projectId ∧
    env.getSecurityGroups projectId = .ok sgs ∧
    changeCalls env pod sgs <+: calls (onPresent env pod)
  readBack : ReadBack env pod
  quiet : calls (onPresent env (pod.stored env)) = []

/-- **When label changes reach the policies**: only when there is no change, and the info
can be stored. -/
theorem changesReach_iff (env : Env P V) (hitem : ∀ v key, env.item v key = .error .typeError)
    (pod : Pod) (hjson : ∀ d, pod.labels = some d →
      ∃ e, env.loads (env.dumps d) = .ok (.labels e) ∧ d.same e = true) :
    ChangesReach env pod ↔ ¬ Changed env pod ∧ pod.Storable := by
  constructor
  · intro h
    refine ⟨fun hchanged => ?_, (readBack_iff env pod hjson).mp h.readBack⟩
    obtain ⟨projectId, sgs, -, -, hcalls⟩ := h.reaches hchanged
    rw [calls_onPresent env hitem] at hcalls
    exact absurd (List.prefix_nil.mp hcalls) (by simp [changeCalls])
  · rintro ⟨hsame, hstorable⟩
    exact ⟨fun hchanged => absurd hchanged hsame, (readBack_iff env pod hjson).mpr hstorable,
      calls_onPresent env hitem _⟩

/-- A pod with one VIF, drivers that succeed, and the JSON text of `webLabels`. -/
def sampleEnv : Env Unit Unit where
  kuryrPort := .ok ⟨some ⟨[("eth0", some ())], by decide⟩⟩
  objFromPrimitive := fun _ => .ok ()
  item := fun _ _ => .error .typeError
  dumps := fun _ => "\x7b\"app\": \"web\"\x7d"
  loads := fun text =>
    if text = "\x7b\"app\": \"web\"\x7d" then .ok (.labels webLabels) else .error .other
  updateSgRules := .ok []
  getProject := .ok "project"
  getSecurityGroups := fun _ => .ok ["sg"]
  updateVifSgs := fun _ => .ok ()
  annotate := .ok ()
  enforceSgRules := false
  getServices := .ok []
  getServiceSecurityGroups := fun _ _ => .ok []
  updateLbaasSg := fun _ _ => .ok ()

/-- A pod the handler has not seen yet. -/
def newPod (labels : Option Labels) : Pod := ⟨labels, some "10.0.0.5", none, false⟩

theorem changesReach_unchanged_web :
    ChangesReach sampleEnv ((newPod (some webLabels)).stored sampleEnv) := by
  refine (changesReach_iff sampleEnv (fun _ _ => rfl) _ fun d hd => ?_).mpr ⟨fun hchanged => ?_, ?_⟩
  · cases hd
    exact ⟨webLabels, by decide, by decide⟩
  · exact hchanged ⟨(.labels webLabels, some "10.0.0.5"), by decide +kernel, by decide⟩
  · exact .inl ⟨⟨webLabels, rfl, by decide⟩, by decide⟩

/-- A new pod with labels and a VIF is passed over. And a pod without labels would be
handled again and again, since its address alone is not read back. -/
theorem changesReach_fails_for_new_pods :
    (getKuryrport sampleEnv >>= getVifs sampleEnv) = .ok [("eth0", ())] ∧
      ¬ ChangesReach sampleEnv (newPod (some webLabels)) ∧ ¬ ReadBack sampleEnv (newPod none) := by
  refine ⟨rfl, fun h => ?_, ?_⟩
  · have hchanged : Changed sampleEnv (newPod (some webLabels)) := by
      rintro ⟨previous, hprevious, hsame⟩
      cases hprevious
      exact absurd hsame (by decide)
    obtain ⟨projectId, sgs, -, -, hcalls⟩ := h.reaches hchanged
    rw [calls_onPresent sampleEnv fun _ _ => rfl] at hcalls
    exact absurd (List.prefix_nil.mp hcalls) (by simp [changeCalls])
  · rw [readBack_iff sampleEnv (newPod none) fun d hd => by cases hd]
    rintro (⟨⟨d, hd, -⟩, -⟩ | ⟨-, hip⟩)
    · cases hd
    · cases hip

end PodLabelHandler

end KuryrKubernetes
