import KuryrKubernetes.Handlers.KuryrNetwork

/-!
# The labels of a namespace

The labels of a namespace reach the security groups by way of its KuryrNetwork. `NamespaceHandler`
copies them to the `spec` when the `status` has others; `KuryrNetworkHandler` calls
`update_namespace_sg_rules` when `spec` and `status` differ, with the namespace as it has read it,
and copies the labels of the `spec` to the `status`. Each handler sees its object as it was when
the event was sent, and everything that changes in between sends another event. When it gets to
the next one, `Async` passes over those that others have overtaken.

- `State`, `Label`, `step`: the namespace and its KuryrNetwork, the events to come, and the two
  calls of `on_present`, one request at a time.
- `Careful`: `NamespaceHandler` compares with the `status` only. When that has the labels of the
  event, the `spec` must not have others, neither when it reads the KuryrNetwork nor when it
  writes. What is passed over must not be missed: one of the events that are kept does as well,
  or the labels of the `spec` are told without it.
- `labels_told`: in runs that are careful, the labels the security groups were last told are those
  of the namespace once all events are handled.
- `relabelled_labels_lost`: labels that are changed back before `KuryrNetworkHandler` gets to
  them, and then changed again, are never told.
- `passed_over_labels_lost`: nor are they when `KuryrNetworkHandler` reads the namespace while it
  has other labels, and the event of those is passed over.

Deletion of the namespace is left out, and so is a restart of the controller.
-/

namespace KuryrKubernetes

namespace NamespaceLabels

open KuryrNetwork Transition

/-- Labels in the order of their names, as the API server has them. -/
abbrev NsLabels := List (String × String)

/-! ## The system -/

/-- A KuryrNetwork; `nsLabels` is a field of its `spec`. -/
structure Kns where
  nsLabels : NsLabels
  status : Status
deriving DecidableEq, Repr

/-- A call of `NamespaceHandler.on_present`, for the labels of its event. -/
inductive NsCall where
  /-- Before `_get_kns_crd`. -/
  | start (labels : NsLabels)
  /-- Before the request of `_update_labels`. -/
  | patch (labels : NsLabels)
  /-- Before the request of `_add_kuryrnetwork_crd`. -/
  | post (labels : NsLabels)
deriving DecidableEq, Repr

def NsCall.labels : NsCall → NsLabels
  | .start labels => labels
  | .patch labels => labels
  | .post labels => labels

/-- The parts of `KuryrNetworkHandler.on_present`. -/
inductive Stage where
  | network | subnet | router | rules | labels
deriving DecidableEq, Repr

/-- A call of `KuryrNetworkHandler.on_present`. -/
structure KnsCall where
  event : Kns
  /-- The labels of the namespace, once `get_namespace` has returned. -/
  read : Option NsLabels
  crdCreation : Bool
  stage : Stage
deriving DecidableEq, Repr

/-- The call for an event, from its beginning. -/
def KnsCall.start (event : Kns) : KnsCall := ⟨event, none, false, .network⟩

structure State where
  labels : NsLabels
  nsEvents : List NsLabels
  nsCall : Option NsCall
  kns : Option Kns
  knsEvents : List Kns
  knsCall : Option KnsCall
  /-- The labels of the last call of `update_namespace_sg_rules`. -/
  told : Option NsLabels
deriving DecidableEq, Repr

inductive Label where
  /-- The namespace has these labels, and an event is sent. -/
  | namespace (labels : NsLabels)
  /-- `Async` passes over the first events of the namespace, and the next is taken up. -/
  | nsTake (passed : Nat)
  /-- `_get_kns_crd`, and `_handle_namespace` when there is none. -/
  | nsGet (handled : Bool)
  /-- The request that writes. -/
  | nsWrite
  /-- An exception; the event is handled again. -/
  | nsRetry
  /-- The same for the events of the KuryrNetwork. -/
  | knsTake (passed : Nat)
  /-- `get_namespace`. -/
  | knsRead
  /-- The next part of `on_present`, with the ids that Neutron gives. -/
  | knsGo (id : Id) (cidr : String)
  /-- An exception; the event is handled again. -/
  | knsRetry
  /-- The KuryrNetwork is sent again: it is listed, or other fields have changed. -/
  | knsSend
deriving DecidableEq, Repr

/-- `_update_labels` returns early. -/
def UpToDate (status : Status) (labels : NsLabels) : Prop :=
  status ≠ {} ∧ status.nsLabels.getD [] = labels

instance (status : Status) (labels : NsLabels) : Decidable (UpToDate status labels) :=
  inferInstanceAs (Decidable (_ ∧ _))

/-- A write to the KuryrNetwork; a change sends an event. -/
def State.write (s : State) (k k' : Kns) : State :=
  { s with
    kns := some k'
    knsEvents := if k' = k then s.knsEvents else s.knsEvents ++ [k'] }

/-- `_patch_kuryrnetwork_crd`. -/
def State.patchStatus (s : State) (data : Status) : State :=
  match s.kns with
  | some k => s.write k { k with status := k.status.merge data }
  | none => s

/-- `_get_kns_crd` and what follows it. -/
def nsGet (s : State) (labels : NsLabels) (handled : Bool) : State :=
  match s.kns with
  | some k =>
    if UpToDate k.status labels then { s with nsCall := none }
    else { s with nsCall := some (.patch labels) }
  | none =>
    if handled then { s with nsCall := some (.post labels) } else { s with nsCall := none }

/-- The request that patches or creates the KuryrNetwork. -/
def nsWrite (s : State) : NsCall → Option State
  | .start _ => none
  | .patch labels =>
    match s.kns with
    | some k => some { s.write k { k with nsLabels := labels } with nsCall := none }
    | none => some { s with nsCall := none }
  | .post labels =>
    match s.kns with
    -- the object is there by now, and `ResourceNotReady` is raised
    | some _ => some { s with nsCall := some (.start labels) }
    | none => some { s with
        kns := some ⟨labels, {}⟩
        knsEvents := s.knsEvents ++ [⟨labels, {}⟩]
        nsCall := none }

/-- The next part of `KuryrNetworkHandler.on_present` (60–132). -/
def knsGo (s : State) (call : KnsCall) (labels : NsLabels) (id : Id) (cidr : String) : State :=
  match call.stage with
  | .network =>
    if call.event.status.netId = none then
      { s.patchStatus { netId := some id } with
        knsCall := some { call with crdCreation := true, stage := .subnet } }
    else { s with knsCall := some { call with stage := .subnet } }
  | .subnet =>
    if call.event.status.subnetId = none ∨ call.crdCreation = true then
      { s.patchStatus { subnetId := some id, subnetCIDR := some cidr } with
        knsCall := some { call with crdCreation := true, stage := .router } }
    else { s with knsCall := some { call with stage := .router } }
  | .router =>
    if call.event.status.routerId = none ∨ call.crdCreation = true then
      { s.patchStatus { routerId := some id } with
        knsCall := some { call with crdCreation := true, stage := .rules } }
    else { s with knsCall := some { call with stage := .rules } }
  | .rules =>
    if call.crdCreation = true ∨ call.event.status.nsLabels.getD [] ≠ call.event.nsLabels then
      { s with told := some labels, knsCall := some { call with stage := .labels } }
    else { s with knsCall := none }
  | .labels => { s.patchStatus { nsLabels := some call.event.nsLabels } with knsCall := none }

def step (s : State) : Label → Option State
  | .namespace labels => some { s with labels := labels, nsEvents := s.nsEvents ++ [labels] }
  | .nsTake passed =>
    match s.nsEvents.drop passed, s.nsCall with
    | labels :: rest, none => some { s with nsEvents := rest, nsCall := some (.start labels) }
    | _, _ => none
  | .nsGet handled =>
    match s.nsCall with
    | some (.start labels) => some (nsGet s labels handled)
    | _ => none
  | .nsWrite => s.nsCall.bind (nsWrite s)
  | .nsRetry => s.nsCall.map fun call => { s with nsCall := some (.start call.labels) }
  | .knsTake passed =>
    match s.knsEvents.drop passed, s.knsCall with
    | event :: rest, none => some { s with knsEvents := rest, knsCall := some (.start event) }
    | _, _ => none
  | .knsRead =>
    s.knsCall.bind fun call =>
      if call.read = none then some { s with knsCall := some { call with read := some s.labels } }
      else none
  | .knsGo id cidr =>
    s.knsCall.bind fun call => call.read.map fun labels => knsGo s call labels id cidr
  | .knsRetry => s.knsCall.map fun call => { s with knsCall := some (.start call.event) }
  | .knsSend => s.kns.map fun k => { s with knsEvents := s.knsEvents ++ [k] }

/-- A namespace with labels, whose event is to come. -/
def State.initial (labels : NsLabels) : State where
  labels := labels
  nsEvents := [labels]
  nsCall := none
  kns := none
  knsEvents := []
  knsCall := none
  told := none

def system : System State Label where
  init s := ∃ labels, s = .initial labels
  step s a s' := step s a = some s'

/-- Some id that the parts before a stage look for is missing. -/
def Missing (status : Status) : Stage → Prop
  | .network => False
  | .subnet => status.netId = none
  | .router => status.netId = none ∨ status.subnetId = none
  | .rules | .labels =>
    (status.netId = none ∨ status.subnetId = none) ∨ status.routerId = none

/-- The event calls for `update_namespace_sg_rules`. -/
def Needs (event : Kns) : Prop :=
  Missing event.status .rules ∨ event.status.nsLabels.getD [] ≠ event.nsLabels

instance (status : Status) (stage : Stage) : Decidable (Missing status stage) := by
  cases stage <;> unfold Missing <;> infer_instance

instance (event : Kns) : Decidable (Needs event) := inferInstanceAs (Decidable (_ ∨ _))

/-- The labels that `update_namespace_sg_rules` is told by the call that runs, or was told last. -/
def State.telling (s : State) : Option NsLabels :=
  match s.knsCall with
  | some call =>
    if call.stage ≠ .labels ∧ Needs call.event then some (call.read.getD s.labels) else s.told
  | none => s.told

/-- The labels of the `spec` are told: by one of the events, or as things are. -/
def Told (s : State) (events : List Kns) : Prop :=
  (∃ event ∈ events, Needs event) ∨ ∀ k ∈ s.kns, s.telling = some k.nsLabels

instance (s : State) (events : List Kns) : Decidable (Told s events) := by
  unfold Told
  infer_instance

/-- An event with other labels than the `spec`. -/
def Differs (s : State) (events : List NsLabels) : Prop :=
  ∃ labels ∈ events, ∀ k ∈ s.kns, labels ≠ k.nsLabels

instance (s : State) (events : List NsLabels) : Decidable (Differs s events) := by
  unfold Differs
  infer_instance

/-- When the `status` has the labels of the event, the `spec` has no others. -/
def Agreed (s : State) : Prop :=
  ∀ call ∈ s.nsCall, ∀ k ∈ s.kns, UpToDate k.status call.labels → k.nsLabels = call.labels

instance (s : State) : Decidable (Agreed s) := by
  unfold Agreed
  infer_instance

/-- What a run has to observe. An event that is passed over may have been the one that changes the
`spec`, or the one that calls for `update_namespace_sg_rules`. -/
def Careful (s : State) : Label → Prop
  | .nsTake passed => Differs s (s.nsEvents.take passed) →
      Differs s (s.nsEvents.drop passed) ∨ Told s s.knsEvents
  | .knsTake passed => (∃ event ∈ s.knsEvents.take passed, Needs event) →
      Told s (s.knsEvents.drop passed)
  | .nsGet _ => Agreed s
  | .nsWrite => Agreed s
  | _ => True

instance (s : State) (a : Label) : Decidable (Careful s a) := by
  cases a <;> unfold Careful <;> infer_instance

/-! ## Writes -/

section

variable {s s' : State} {k k' : Kns} {data : Status}

theorem mem_write_knsEvents {e : Kns} (h : e ∈ s.knsEvents) : e ∈ (s.write k k').knsEvents := by
  unfold State.write
  dsimp only
  split
  · exact h
  · exact List.mem_append_left _ h

/-- What a patch of the `status` leaves alone. -/
structure Patched (s s' : State) : Prop where
  labels : s'.labels = s.labels
  nsEvents : s'.nsEvents = s.nsEvents
  nsCall : s'.nsCall = s.nsCall
  told : s'.told = s.told
  spec : s'.kns.map Kns.nsLabels = s.kns.map Kns.nsLabels
  knsEvents : s.knsEvents ⊆ s'.knsEvents

theorem Patched.refl (s : State) : Patched s s :=
  ⟨rfl, rfl, rfl, rfl, rfl, List.Subset.refl _⟩

theorem patched_patchStatus : Patched s (s.patchStatus data) := by
  unfold State.patchStatus
  split
  · next k hk =>
    refine ⟨rfl, rfl, rfl, rfl, ?_, fun _ => mem_write_knsEvents⟩
    rw [hk]
    rfl
  · exact .refl s

/-- What comes in a part of `on_present` after its writes. -/
theorem Patched.setKnsCall {call : Option KnsCall} (h : Patched s s') :
    Patched s { s' with knsCall := call } :=
  ⟨h.labels, h.nsEvents, h.nsCall, h.told, h.spec, h.knsEvents⟩

/-- The KuryrNetwork is the one of its last event, or of the call that runs, or it has the labels
in its `status`. -/
def Sent (s : State) : Prop :=
  ∀ k ∈ s.kns, s.knsEvents.getLast? = some k ∨ s.knsEvents = [] ∧
    ((∃ call ∈ s.knsCall, call.event = k) ∨ k.status.nsLabels.getD [] = k.nsLabels)

theorem Sent.write (h : Sent s) (hk : s.kns = some k) : Sent (s.write k k') := by
  intro k'' hk''
  cases hk''
  unfold State.write
  dsimp only
  split
  · next heq => exact heq ▸ h k (by simp [hk])
  · exact .inl (by simp)

theorem Sent.patchStatus (h : Sent s) : Sent (s.patchStatus data) := by
  unfold State.patchStatus
  split
  · next k hk => exact h.write hk
  · exact h

/-- The call goes on. -/
theorem Sent.setKnsCall {call call' : KnsCall} (h : Sent s) (hcall : s.knsCall = some call)
    (hevent : call'.event = call.event) : Sent { s with knsCall := some call' } := by
  intro k hk
  refine (h k hk).imp id (And.imp id (Or.imp ?_ id))
  rintro ⟨call'', hcall'', heq⟩
  rw [hcall] at hcall''
  cases hcall''
  exact ⟨call', rfl, hevent.trans heq⟩

/-- The call ends, and the labels are there. -/
theorem Sent.endKnsCall {call : KnsCall} (h : Sent s) (hcall : s.knsCall = some call)
    (hlabels : s.kns = some call.event →
      call.event.status.nsLabels.getD [] = call.event.nsLabels) :
    Sent { s with knsCall := none } := by
  intro k hk
  refine (h k hk).imp id (And.imp id fun h => .inr ?_)
  rcases h with ⟨call', hcall', rfl⟩ | h
  · rw [hcall] at hcall'
    cases hcall'
    exact hlabels hk
  · exact h

end

/-! ## What a call does -/

/-- An event for a `status` that is not up to date. -/
theorem needs_of_not_upToDate {status : Status} {labels : NsLabels}
    (h : ¬ UpToDate status labels) : Needs ⟨labels, status⟩ := by
  by_cases hempty : status = {}
  · exact .inl (.inl (.inl (by rw [hempty])))
  · exact .inr fun heq => h ⟨hempty, heq⟩

/-- `crd_creation` is as the event has it. -/
def KnsCall.Created (call : KnsCall) : Prop :=
  call.crdCreation = true ↔ Missing call.event.status call.stage

theorem created_start (event : Kns) : (KnsCall.start event).Created := by
  simp [KnsCall.Created, KnsCall.start, Missing]

section

variable {s s' : State} {call : KnsCall} {labels : NsLabels}

/-- The parts of `on_present`, as far as the labels are concerned. -/
inductive Part (s : State) (call : KnsCall) (labels : NsLabels) : State → Prop
  | goes {s₁ call'} (hs₁ : s₁ = s ∨ ∃ data, s₁ = s.patchStatus data)
      (hevent : call'.event = call.event) (hread : call'.read = call.read)
      (hstage : call.stage ≠ .labels) (hstage' : call'.stage ≠ .labels)
      (hcreated : call'.Created) : Part s call labels { s₁ with knsCall := some call' }
  | tells (hstage : call.stage = .rules) (hneeds : Needs call.event) :
      Part s call labels
        { s with told := some labels, knsCall := some { call with stage := .labels } }
  | skips (hstage : call.stage = .rules) (hneeds : ¬ Needs call.event) :
      Part s call labels { s with knsCall := none }
  | ends (hstage : call.stage = .labels) :
      Part s call labels
        { s.patchStatus { nsLabels := some call.event.nsLabels } with knsCall := none }

/-- **One part of `on_present`.** -/
theorem knsGo_part (hcreated : call.Created) (id : Id) (cidr : String) :
    Part s call labels (knsGo s call labels id cidr) := by
  obtain ⟨event, read, crdCreation, stage⟩ := call
  unfold knsGo
  cases stage with
  | network =>
    dsimp only
    split
    · next hid =>
      exact .goes (.inr ⟨_, rfl⟩) rfl rfl (by simp) (by simp) (by simp [KnsCall.Created, Missing, hid])
    · next hid =>
      refine .goes (.inl rfl) rfl rfl (by simp) (by simp) ?_
      simpa [KnsCall.Created, Missing, hid] using hcreated
  | subnet =>
    have hcreated : crdCreation = true ↔ event.status.netId = none := hcreated
    dsimp only
    split
    · next hid =>
      refine .goes (.inr ⟨_, rfl⟩) rfl rfl (by simp) (by simp) ?_
      simp only [KnsCall.Created, Missing, true_iff]
      rw [hcreated] at hid
      exact hid.symm
    · next hid =>
      refine .goes (.inl rfl) rfl rfl (by simp) (by simp) ?_
      rw [not_or, hcreated] at hid
      simpa [KnsCall.Created, Missing, hid] using hcreated
  | router =>
    have hcreated : crdCreation = true ↔
        event.status.netId = none ∨ event.status.subnetId = none := hcreated
    dsimp only
    split
    · next hid =>
      refine .goes (.inr ⟨_, rfl⟩) rfl rfl (by simp) (by simp) ?_
      simp only [KnsCall.Created, Missing, true_iff]
      rw [hcreated] at hid
      exact hid.symm
    · next hid =>
      refine .goes (.inl rfl) rfl rfl (by simp) (by simp) ?_
      rw [not_or, hcreated] at hid
      simp only [KnsCall.Created, Missing, hid, or_false]
      rw [hcreated]
      simp [hid]
  | rules =>
    have hneeds : (crdCreation = true ∨ event.status.nsLabels.getD [] ≠ event.nsLabels) ↔
        Needs event := or_congr_left hcreated
    dsimp only
    split
    · next h => exact .tells rfl (hneeds.mp h)
    · next h => exact .skips rfl fun hn => h (hneeds.mpr hn)
  | labels => exact .ends rfl

/-! ## The invariant -/

/-- The events of the namespace that are handled or to come. -/
def State.pending (s : State) : List NsLabels := s.nsCall.toList.map NsCall.labels ++ s.nsEvents

/-- The last event has the labels of the namespace; without one they are in the `spec`. -/
def Heard (s : State) : Prop :=
  s.pending.getLast? = some s.labels ∨ s.pending = [] ∧ ∀ k ∈ s.kns, k.nsLabels = s.labels

/-- Something that is to come changes the `spec`, or leads to `update_namespace_sg_rules`; or the
labels are told. -/
def Telling (s : State) : Prop :=
  s.kns = none ∨ Differs s s.pending ∨ (∃ event ∈ s.knsEvents, Needs event) ∨
    s.telling = some s.labels

/-- The invariant. -/
structure Sound (s : State) : Prop where
  heard : Heard s
  telling : Telling s
  sent : Sent s
  created : ∀ call ∈ s.knsCall, call.Created

/-- What the handler of the KuryrNetwork does has nothing to do with the events of the
namespace. -/
theorem Patched.heard (h : Patched s s') (hs : Heard s) : Heard s' := by
  have hpending : s'.pending = s.pending := by
    rw [State.pending, State.pending, h.nsCall, h.nsEvents]
  refine hs.imp (fun hlast => ?_) (And.imp (fun hnone => ?_) fun hspec k hk => ?_)
  · rw [hpending, hlast, h.labels]
  · rw [hpending, hnone]
  · have hmem : k.nsLabels ∈ s.kns.map Kns.nsLabels := by
      rw [← h.spec, Option.mem_def.mp hk]
      rfl
    obtain ⟨k', hk', heq⟩ := Option.map_eq_some_iff.mp hmem
    rw [← heq, hspec k' hk', h.labels]

/-- The labels that are told stay the same, or become those of the namespace. -/
theorem Patched.telling (h : Patched s s')
    (htelling : s.telling = some s.labels → s'.telling = some s.labels) (hs : Telling s) :
    Telling s' := by
  have hpending : s'.pending = s.pending := by
    rw [State.pending, State.pending, h.nsCall, h.nsEvents]
  refine hs.imp (fun hnone => ?_) (Or.imp ?_ (Or.imp ?_ fun htold => ?_))
  · have hspec := h.spec
    rw [hnone] at hspec
    exact Option.map_eq_none_iff.mp hspec
  · rintro ⟨labels, hmem, hne⟩
    refine ⟨labels, hpending ▸ hmem, fun k hk => ?_⟩
    have hmem' : k.nsLabels ∈ s.kns.map Kns.nsLabels := by
      rw [← h.spec, Option.mem_def.mp hk]
      rfl
    obtain ⟨k', hk', heq⟩ := Option.map_eq_some_iff.mp hmem'
    exact heq ▸ hne k' hk'
  · rintro ⟨event, hmem, hneeds⟩
    exact ⟨event, h.knsEvents hmem, hneeds⟩
  · rw [htelling htold, h.labels]

theorem knsGo_sound {netId : Id} {cidr : String} (h : Sound s) (hcall : s.knsCall = some call)
    (hread : call.read = some labels) : Sound (knsGo s call labels netId cidr) := by
  have hnow : s.telling = if call.stage ≠ .labels ∧ Needs call.event then some labels
      else s.told := by
    rw [State.telling, hcall]
    dsimp only
    rw [hread]
    rfl
  generalize hs' : knsGo s call labels netId cidr = s'
  have hpart : Part s call labels s' := hs' ▸ knsGo_part (h.created call hcall) netId cidr
  clear hs'
  cases hpart with
  | @goes s₁ call' hs₁ hevent hread' hstage hstage' hcreated =>
    have hpatched : Patched s s₁ := by
      rcases hs₁ with rfl | ⟨data, rfl⟩
      · exact .refl _
      · exact patched_patchStatus
    have hsent : Sent s₁ ∧ s₁.knsCall = some call := by
      rcases hs₁ with rfl | ⟨data, rfl⟩
      · exact ⟨h.sent, hcall⟩
      · refine ⟨h.sent.patchStatus, ?_⟩
        unfold State.patchStatus
        split <;> exact hcall
    refine ⟨hpatched.setKnsCall.heard h.heard, hpatched.setKnsCall.telling (fun htold => ?_) h.telling,
      hsent.1.setKnsCall hsent.2 hevent, fun _ hc => ?_⟩
    · rw [← htold, hnow, State.telling]
      dsimp only
      rw [hevent, hread', hread, hpatched.told]
      simp [hstage, hstage']
    · cases hc
      exact hcreated
  | tells hstage hneeds =>
    refine ⟨h.heard, ?_, h.sent.setKnsCall hcall rfl, fun _ hc => ?_⟩
    · refine h.telling.imp id (Or.imp id (Or.imp id fun htold => ?_))
      rw [hnow, if_pos ⟨by simp [hstage], hneeds⟩] at htold
      simpa [State.telling] using htold
    · cases hc
      have hcreated := h.created call hcall
      rw [KnsCall.Created, hstage] at hcreated
      exact hcreated
  | skips hstage hneeds =>
    refine ⟨h.heard, ?_, h.sent.endKnsCall hcall fun _ => ?_, fun _ hc => by cases hc⟩
    · refine h.telling.imp id (Or.imp id (Or.imp id fun htold => ?_))
      rw [hnow, if_neg fun hn => hneeds hn.2] at htold
      exact htold
    · by_contra hne
      exact hneeds (.inr hne)
  | ends hstage =>
    have hpatched : Patched s (s.patchStatus { nsLabels := some call.event.nsLabels }) :=
      patched_patchStatus
    refine ⟨hpatched.setKnsCall.heard h.heard, hpatched.setKnsCall.telling (fun htold => ?_) h.telling,
      ?_, fun _ hc => by cases hc⟩
    · rw [hnow, if_neg fun hn => hn.1 hstage] at htold
      rw [← htold]
      exact hpatched.told
    · have hcall' : (s.patchStatus { nsLabels := some call.event.nsLabels }).knsCall =
          some call := by
        unfold State.patchStatus
        split <;> exact hcall
      refine h.sent.patchStatus.endKnsCall hcall' fun hk => ?_
      unfold State.patchStatus at hk
      split at hk
      · -- the object is as in the event, after its labels have been written
        have heq := congrArg (fun k => k.status.nsLabels) (Option.some.inj hk)
        exact congrArg (Option.getD · []) heq.symm
      · next hnone =>
        rw [hnone] at hk
        cases hk

/-- The call for the namespace goes on with the same labels. -/
theorem Sound.setNsCall {call call' : NsCall} (h : Sound s) (hcall : s.nsCall = some call)
    (hlabels : call'.labels = call.labels) : Sound { s with nsCall := some call' } := by
  have hpending : State.pending { s with nsCall := some call' } = s.pending := by
    simp [State.pending, hcall, hlabels]
  refine ⟨?_, ?_, h.sent, h.created⟩
  · rw [Heard, hpending]
    exact h.heard
  · rw [Telling, hpending]
    exact h.telling

theorem pending_nsCall {call : NsCall} (hcall : s.nsCall = some call) :
    s.pending = call.labels :: s.nsEvents := by
  simp [State.pending, hcall]

/-- Where the call for the namespace ends, its labels are in the `spec`. -/
theorem heard_endNsCall {call : NsCall} (h : Heard s) (hcall : s.nsCall = some call)
    (hs' : s'.labels = s.labels ∧ s'.nsCall = none ∧ s'.nsEvents = s.nsEvents)
    (hspec : ∀ k ∈ s'.kns, k.nsLabels = call.labels) : Heard s' := by
  have hlast := h.resolve_right fun hnone => by simp [pending_nsCall hcall] at hnone
  rw [pending_nsCall hcall] at hlast
  have hpending : s'.pending = s.nsEvents := by simp [State.pending, hs']
  rw [Heard, hpending, hs'.1]
  cases hevents : s.nsEvents with
  | nil =>
    rw [hevents] at hlast
    have hlabels : call.labels = s.labels := Option.some.inj hlast
    exact .inr ⟨rfl, fun k hk => (hspec k hk).trans hlabels⟩
  | cons labels rest =>
    rw [hevents, List.getLast?_cons_cons] at hlast
    exact .inl hlast

/-- The call for the namespace ends without a write. -/
theorem Sound.endNsCall {call : NsCall} (h : Sound s) (hcall : s.nsCall = some call)
    (hspec : ∀ k ∈ s.kns, k.nsLabels = call.labels) : Sound { s with nsCall := none } := by
  refine ⟨heard_endNsCall h.heard hcall ⟨rfl, rfl, rfl⟩ hspec, ?_, h.sent, h.created⟩
  rcases h.telling with hnone | ⟨labels, hmem, hne⟩ | h
  · exact .inl hnone
  · by_cases hnone : s.kns = none
    · exact .inl hnone
    obtain ⟨k, hk⟩ := Option.ne_none_iff_exists'.mp hnone
    rw [pending_nsCall hcall] at hmem
    refine .inr (.inl ⟨labels, (List.mem_cons.mp hmem).resolve_left ?_, hne⟩)
    rintro rfl
    exact hne k hk (hspec k hk).symm
  · exact .inr (.inr h)

theorem nsGet_sound {labels : NsLabels} {handled : Bool} (h : Sound s)
    (hcall : s.nsCall = some (.start labels)) (hok : Agreed s) : Sound (nsGet s labels handled) := by
  unfold nsGet
  split
  · next k hk =>
    split
    · next hup =>
      refine h.endNsCall hcall fun k' hk' => ?_
      exact hok _ hcall k' hk' (by rw [hk] at hk'; cases hk'; exact hup)
    · exact h.setNsCall hcall rfl
  · next hnone =>
    split
    · exact h.setNsCall hcall rfl
    · exact h.endNsCall hcall fun k hk => by rw [hnone] at hk; cases hk

/-- A KuryrNetwork with other labels, or a new one, is sent. -/
theorem Sound.sendKns {call : NsCall} {k' : Kns} (h : Sound s) (hcall : s.nsCall = some call)
    (hlabels : k'.nsLabels = call.labels) (hneeds : Needs k') :
    Sound { s with kns := some k', knsEvents := s.knsEvents ++ [k'], nsCall := none } := by
  refine ⟨heard_endNsCall h.heard hcall ⟨rfl, rfl, rfl⟩ fun k hk => ?_, ?_, fun k hk => ?_, h.created⟩
  · cases hk
    exact hlabels
  · exact .inr (.inr (.inl ⟨k', by simp, hneeds⟩))
  · cases hk
    exact .inl (by simp)

theorem nsWrite_sound {call : NsCall} (h : Sound s) (hcall : s.nsCall = some call) (hok : Agreed s)
    (hs : nsWrite s call = some s') : Sound s' := by
  unfold nsWrite at hs
  cases call with
  | start labels => cases hs
  | patch labels =>
    dsimp only at hs
    split at hs
    · next k hk =>
      cases hs
      unfold State.write
      by_cases heq : k.nsLabels = labels
      · have hsame : ({ k with nsLabels := labels } : Kns) = k := by rw [← heq]
        have hstate : ({ s with kns := some k } : State) = s := by rw [← hk]
        rw [if_pos hsame, hsame]
        have hend := h.endNsCall hcall fun k' hk' => by
          rw [hk] at hk'
          cases hk'
          exact heq
        rwa [← hstate] at hend
      · rw [if_neg fun h => heq (congrArg Kns.nsLabels h).symm]
        refine h.sendKns hcall rfl (needs_of_not_upToDate fun hup => heq ?_)
        exact hok _ hcall k hk hup
    · next hnone =>
      cases hs
      exact h.endNsCall hcall fun k hk => by rw [hnone] at hk; cases hk
  | post labels =>
    dsimp only at hs
    split at hs
    · cases hs
      exact h.setNsCall hcall rfl
    · cases hs
      exact h.sendKns hcall rfl (.inl (.inl (.inl rfl)))

/-- The labels change, or are sent again. -/
theorem Sound.relabel {labels : NsLabels} (h : Sound s) :
    Sound { s with labels := labels, nsEvents := s.nsEvents ++ [labels] } := by
  have hpending : State.pending { s with labels := labels, nsEvents := s.nsEvents ++ [labels] } =
      s.pending ++ [labels] := by
    simp [State.pending]
  refine ⟨.inl (by rw [hpending]; simp), ?_, h.sent, h.created⟩
  by_cases hnone : s.kns = none
  · exact .inl hnone
  obtain ⟨k, hk⟩ := Option.ne_none_iff_exists'.mp hnone
  have hother : ∀ old ∈ s.pending ++ [labels], old ≠ k.nsLabels →
      Telling { s with labels := labels, nsEvents := s.nsEvents ++ [labels] } := by
    intro old hmem hne
    refine .inr (.inl ⟨old, hpending ▸ hmem, fun k' hk' => ?_⟩)
    rw [hk] at hk'
    cases hk'
    exact hne
  by_cases hspec : labels = k.nsLabels
  · -- with the labels of the `spec`, the ones before were others and are still to come
    by_cases hold : s.labels = k.nsLabels
    · have hsame : ({ s with labels := labels } : State) = s := by rw [hspec, ← hold]
      rcases h.telling with hnone' | ⟨old, hmem, hne⟩ | ⟨event, hmem, hneeds⟩ | htold
      · exact absurd hnone' hnone
      · exact hother old (List.mem_append_left _ hmem) (hne k hk)
      · exact .inr (.inr (.inl ⟨event, hmem, hneeds⟩))
      · refine .inr (.inr (.inr ?_))
        rw [← hsame] at htold
        exact htold
    · rcases h.heard with hlast | ⟨-, hlabels⟩
      · exact hother s.labels (List.mem_append_left _ (List.mem_of_getLast? hlast)) hold
      · exact absurd (hlabels k hk).symm hold
  · exact hother labels (by simp) hspec

/-- The last event is kept, whatever is passed over. -/
theorem getLast?_of_drop {α : Type*} {l rest : List α} {a : α} {passed : Nat}
    (h : l.drop passed = a :: rest) : (a :: rest).getLast? = l.getLast? := by
  have hlt : passed < l.length := by
    by_contra hge
    rw [List.drop_eq_nil_of_le (Nat.le_of_not_lt hge)] at h
    cases h
  rw [← h, List.getLast?_drop, if_neg (Nat.not_le_of_lt hlt)]

/-- With the labels of the `spec` told, the namespace has these, or its last event has others. -/
theorem Heard.telling (h : Heard s) (htold : ∀ k ∈ s.kns, s.telling = some k.nsLabels) :
    Telling s := by
  by_cases hnone : s.kns = none
  · exact .inl hnone
  obtain ⟨k, hk⟩ := Option.ne_none_iff_exists'.mp hnone
  by_cases hspec : s.labels = k.nsLabels
  · exact .inr (.inr (.inr (hspec ▸ htold k hk)))
  · rcases h with hlast | ⟨-, hlabels⟩
    · refine .inr (.inl ⟨s.labels, List.mem_of_getLast? hlast, fun k' hk' => ?_⟩)
      rw [hk] at hk'
      cases hk'
      exact hspec
    · exact absurd (hlabels k hk).symm hspec

/-- An event of the namespace is taken up. -/
theorem Sound.takeNs {labels : NsLabels} {rest : List NsLabels} {passed : Nat} (h : Sound s)
    (hevents : s.nsEvents.drop passed = labels :: rest) (hcall : s.nsCall = none)
    (hok : Careful s (.nsTake passed)) :
    Sound { s with nsEvents := rest, nsCall := some (.start labels) } := by
  have hpending : s.pending = s.nsEvents := by simp [State.pending, hcall]
  have hpending' : State.pending { s with nsEvents := rest, nsCall := some (.start labels) } =
      s.nsEvents.drop passed := hevents.symm
  have hheard : Heard { s with nsEvents := rest, nsCall := some (.start labels) } := by
    refine .inl ?_
    have hlast := h.heard.resolve_right fun hnone => by
      rw [hpending] at hnone
      simp [hnone.1] at hevents
    rw [hpending', hevents, getLast?_of_drop hevents, ← hpending]
    exact hlast
  refine ⟨hheard, ?_, h.sent, h.created⟩
  rcases h.telling with hnone | ⟨old, hmem, hne⟩ | hneeds | htold
  · exact .inl hnone
  · rw [hpending, ← List.take_append_drop passed s.nsEvents] at hmem
    rcases List.mem_append.mp hmem with hmem | hmem
    · -- the event that is passed over is made up for
      rcases hok ⟨old, hmem, hne⟩ with ⟨kept, hkept, hne⟩ | hneeds | htold
      · exact .inr (.inl ⟨kept, hpending' ▸ hkept, hne⟩)
      · exact .inr (.inr (.inl hneeds))
      · exact hheard.telling htold
    · exact .inr (.inl ⟨old, hpending' ▸ hmem, hne⟩)
  · exact .inr (.inr (.inl hneeds))
  · exact .inr (.inr (.inr htold))

/-- An event of the KuryrNetwork is taken up. -/
theorem Sound.takeKns {event : Kns} {rest : List Kns} {passed : Nat} (h : Sound s)
    (hevents : s.knsEvents.drop passed = event :: rest) (hcall : s.knsCall = none)
    (hok : Careful s (.knsTake passed)) :
    Sound { s with knsEvents := rest, knsCall := some (.start event) } := by
  have htelling : State.telling { s with knsEvents := rest, knsCall := some (.start event) } =
      if Needs event then some s.labels else s.told := by
    simp [State.telling, KnsCall.start]
  have hheard : Heard { s with knsEvents := rest, knsCall := some (.start event) } := h.heard
  have hkept : ∀ event' ∈ s.knsEvents.drop passed, Needs event' →
      Telling { s with knsEvents := rest, knsCall := some (.start event) } := by
    intro event' hmem hneeds
    rw [hevents] at hmem
    rcases List.mem_cons.mp hmem with rfl | hmem
    · exact .inr (.inr (.inr (by rw [htelling, if_pos hneeds])))
    · exact .inr (.inr (.inl ⟨event', hmem, hneeds⟩))
  refine ⟨hheard, ?_, fun k hk => ?_, fun call hc => ?_⟩
  · by_cases hneeds : Needs event
    · exact hkept event (hevents ▸ List.mem_cons_self) hneeds
    rw [if_neg hneeds] at htelling
    rcases h.telling with hnone | hpending | ⟨event', hmem, hneeds'⟩ | htold
    · exact .inl hnone
    · exact .inr (.inl hpending)
    · rw [← List.take_append_drop passed s.knsEvents] at hmem
      rcases List.mem_append.mp hmem with hmem | hmem
      · rcases hok ⟨event', hmem, hneeds'⟩ with ⟨kept, hmem, hneeds⟩ | htold
        · exact hkept kept hmem hneeds
        · refine hheard.telling fun k hk => ?_
          rw [htelling]
          simpa only [State.telling, hcall] using htold k hk
      · exact hkept event' hmem hneeds'
    · refine .inr (.inr (.inr ?_))
      rw [htelling]
      rwa [State.telling, hcall] at htold
  · have hlast := (h.sent k hk).resolve_right fun hnil => by simp [hnil.1] at hevents
    rw [← getLast?_of_drop hevents] at hlast
    cases rest with
    | nil =>
      cases hlast
      exact .inr ⟨rfl, .inl ⟨_, rfl, rfl⟩⟩
    | cons next rest =>
      rw [List.getLast?_cons_cons] at hlast
      exact .inl hlast
  · cases hc
    exact created_start event

/-- The call for the KuryrNetwork begins again, or reads the labels of the namespace. -/
theorem Sound.readKns {call' : KnsCall} (h : Sound s) (hcall : s.knsCall = some call)
    (hevent : call'.event = call.event) (hstage : call'.stage = .labels → call.stage = .labels)
    (hread : call'.read.getD s.labels = s.labels) (hcreated : call'.Created) :
    Sound { s with knsCall := some call' } := by
  refine ⟨h.heard, ?_, h.sent.setKnsCall hcall hevent, fun _ hc => by cases hc; exact hcreated⟩
  refine h.telling.imp (fun h => h) (Or.imp (fun h => h) (Or.imp (fun h => h) fun htold => ?_))
  rw [State.telling]
  dsimp only
  split
  · rw [hread]
  · next hnot =>
    have hnot' : ¬ (call.stage ≠ .labels ∧ Needs call.event) := fun hn =>
      hnot ⟨fun hl => hn.1 (hstage hl), hevent ▸ hn.2⟩
    rw [State.telling, hcall] at htold
    dsimp only at htold
    rwa [if_neg hnot'] at htold

/-- The KuryrNetwork is sent again. -/
theorem Sound.sendAgain {k : Kns} (h : Sound s) (hk : s.kns = some k) :
    Sound { s with knsEvents := s.knsEvents ++ [k] } := by
  refine ⟨h.heard, ?_, fun k' hk' => ?_, h.created⟩
  · refine h.telling.imp id (Or.imp id (Or.imp ?_ id))
    rintro ⟨event, hmem, hneeds⟩
    exact ⟨event, List.mem_append_left _ hmem, hneeds⟩
  · rw [hk] at hk'
    cases hk'
    exact .inl (by simp)

theorem Sound.step {a : Label} (h : Sound s) (hok : Careful s a)
    (hs : NamespaceLabels.step s a = some s') : Sound s' := by
  unfold NamespaceLabels.step at hs
  cases a with
  | «namespace» labels =>
    cases hs
    exact h.relabel
  | nsTake passed =>
    dsimp only at hs
    split at hs
    · next labels rest hevents hcall =>
      cases hs
      exact h.takeNs hevents hcall hok
    · cases hs
  | nsGet handled =>
    dsimp only at hs
    split at hs
    · next labels hcall =>
      cases hs
      exact nsGet_sound h hcall hok
    · cases hs
  | nsWrite =>
    obtain ⟨call, hcall, hs⟩ := Option.bind_eq_some_iff.mp hs
    exact nsWrite_sound h hcall hok hs
  | nsRetry =>
    obtain ⟨call, hcall, rfl⟩ := Option.map_eq_some_iff.mp hs
    exact h.setNsCall hcall rfl
  | knsTake passed =>
    dsimp only at hs
    split at hs
    · next event rest hevents hcall =>
      cases hs
      exact h.takeKns hevents hcall hok
    · cases hs
  | knsRead =>
    obtain ⟨call, hcall, hs⟩ := Option.bind_eq_some_iff.mp hs
    obtain ⟨hread, hs⟩ := Option.ite_none_right_eq_some.mp hs
    cases hs
    exact h.readKns hcall rfl (fun h => h) rfl (h.created call hcall)
  | knsGo netId cidr =>
    obtain ⟨call, hcall, hs⟩ := Option.bind_eq_some_iff.mp hs
    obtain ⟨labels, hread, rfl⟩ := Option.map_eq_some_iff.mp hs
    exact knsGo_sound h hcall hread
  | knsRetry =>
    obtain ⟨call, hcall, rfl⟩ := Option.map_eq_some_iff.mp hs
    exact h.readKns hcall rfl (fun h => by cases h) rfl (created_start call.event)
  | knsSend =>
    obtain ⟨k, hk, rfl⟩ := Option.map_eq_some_iff.mp hs
    exact h.sendAgain hk

end

/-- **Every run.** -/
theorem sound_of_reach {s : State} (h : Reach system Careful s) : Sound s := by
  refine Reach.invariant ?_ (fun _ _ _ h hok hs => h.step hok hs) h
  rintro _ ⟨labels, rfl⟩
  exact ⟨.inl rfl, .inl rfl, fun k hk => (by cases hk), fun call hc => (by cases hc)⟩

/-- Nothing is to be done. -/
structure Quiet (s : State) : Prop where
  nsEvents : s.nsEvents = []
  nsCall : s.nsCall = none
  knsEvents : s.knsEvents = []
  knsCall : s.knsCall = none

/-- **The security groups are told the labels of the namespace**, once all events are handled. -/
theorem labels_told (s : State) (k : Kns) (h : Reach system Careful s) (hquiet : Quiet s)
    (hk : s.kns = some k) :
    k.nsLabels = s.labels ∧ k.status.nsLabels.getD [] = s.labels ∧ s.told = some s.labels := by
  have hsound := sound_of_reach h
  have hpending : s.pending = [] := by simp [State.pending, hquiet.nsEvents, hquiet.nsCall]
  have hspec : k.nsLabels = s.labels := by
    rcases hsound.heard with hlast | ⟨-, hspec⟩
    · rw [hpending] at hlast
      cases hlast
    · exact hspec k hk
  refine ⟨hspec, ?_, ?_⟩
  · rcases hsound.sent k hk with hlast | ⟨-, ⟨call, hcall, -⟩ | hstatus⟩
    · rw [hquiet.knsEvents] at hlast
      cases hlast
    · rw [hquiet.knsCall] at hcall
      cases hcall
    · exact hstatus.trans hspec
  · rcases hsound.telling with hnone | ⟨labels, hmem, -⟩ | ⟨event, hmem, -⟩ | htold
    · rw [hk] at hnone
      cases hnone
    · rw [hpending] at hmem
      cases hmem
    · rw [hquiet.knsEvents] at hmem
      cases hmem
    · rwa [State.telling, hquiet.knsCall] at htold

/-! ### Runs -/

/-- One event of the namespace is handled. -/
def nsHandle : List Label := [.nsTake 0, .nsGet true, .nsWrite]

/-- The parts of `KuryrNetworkHandler.on_present`. -/
def knsParts (n : Nat) : List Label := List.replicate n (.knsGo ⟨"id", by decide⟩ "10.0.1.0/24")

/-- One event of the KuryrNetwork is handled. -/
def knsHandle : List Label := [.knsTake 0, .knsRead] ++ knsParts 5

/-- An event of the KuryrNetwork that nothing is left to do for. -/
def knsSkip (passed : Nat) : List Label := [.knsTake passed, .knsRead] ++ knsParts 4

/-- The KuryrNetwork is made. Each of its four patches sends an event, and the last one is
handled. -/
def setUp : List Label := nsHandle ++ knsHandle ++ knsSkip 3

/-- Other labels, which are handled. -/
def relabelRun : List Label :=
  setUp ++ [.namespace [("tier", "web")]] ++ nsHandle ++ knsHandle ++ knsSkip 0

/-- The end of that run. -/
def relabelled : State :=
  (execute (guarded Careful step) (.initial []) relabelRun).get (by decide +kernel)

theorem labels_told_relabelled : relabelled.told = some [("tier", "web")] := by
  have h : Reach system Careful relabelled :=
    Reach.execute (fun _ _ _ h => of_guarded h) (.init ⟨[], rfl⟩) (Option.some_get _).symm
  obtain ⟨k, hk⟩ : ∃ k, relabelled.kns = some k := ⟨_, (Option.some_get (by decide +kernel)).symm⟩
  have htold := (labels_told relabelled k h ⟨by decide +kernel, by decide +kernel,
    by decide +kernel, by decide +kernel⟩ hk).2.2
  rw [htold]
  decide +kernel

/-- Labels that are changed, and changed back before the KuryrNetwork is handled. The second event
finds the old labels in the `status` and leaves the `spec` alone. When the labels change once
more, the new ones are in the `status` already. -/
def backAndForthRun : List Label :=
  setUp ++ [.namespace [("tier", "web")]] ++ nsHandle ++ [.namespace []] ++
    [.nsTake 0, .nsGet true] ++ knsHandle ++ knsSkip 0 ++ [.namespace [("tier", "web")]] ++
    [.nsTake 0, .nsGet true]

/-- **Labels that nobody is told**: all events are handled, and the security groups know the labels
from before. -/
theorem relabelled_labels_lost : ∃ s, execute step (.initial []) backAndForthRun = some s ∧
    Quiet s ∧ s.labels = [("tier", "web")] ∧ s.told = some [] := by
  refine ⟨(execute step (.initial []) backAndForthRun).get (by decide +kernel),
    (Option.some_get _).symm, ⟨?_, ?_, ?_, ?_⟩, ?_, ?_⟩ <;> decide +kernel

/-- Labels that are changed, and changed back while the KuryrNetwork is handled, which reads the
namespace there. When its event is next, the labels have changed once more. -/
def passedOverRun : List Label :=
  setUp ++ [.namespace [("tier", "web")]] ++ nsHandle ++ [.namespace []] ++
    [.knsTake 0, .knsRead] ++ [.namespace [("tier", "web")]] ++ knsParts 5 ++ knsSkip 0

/-- **An event that is missed.** The run is careful until the event of the labels in between is
passed over. -/
theorem passed_over_labels_lost : ∃ s s',
    execute (guarded Careful step) (.initial []) passedOverRun = some s ∧
    execute step s [.nsTake 1, .nsGet true] = some s' ∧
    Quiet s' ∧ s'.labels = [("tier", "web")] ∧ s'.told = some [] := by
  refine ⟨(execute (guarded Careful step) (.initial []) passedOverRun).get (by decide +kernel), _,
    (Option.some_get _).symm, (Option.some_get (by decide +kernel)).symm, ⟨?_, ?_, ?_, ?_⟩,
    ?_, ?_⟩ <;> decide +kernel

end NamespaceLabels

end KuryrKubernetes
