import KuryrKubernetes.Lib.Transition
import KuryrKubernetes.Lib.Versions

/-!
# Adding and removing finalizers

`K8sClient.add_finalizer` and `remove_finalizer` (`k8s_client.py`) write the whole list of
finalizers, with the `resourceVersion` of the object it was made from, and read the object
again when the server answers with a conflict.

- `Object`: what the two read of an object. The object at a path is a register with versions,
  `none` while there is no object. An object that is being deleted goes, with the last of its
  finalizers, in a step of its own.
- `PatchAnswer`, `Admits`: the server accepts a patch of the latest version only, and says
  that an object is gone, or being deleted, only if it is.
- `Call`: a call with the object at hand. `State` has any number of them, and `write` is any
  other writer.
- `CallOk`, `PatchOk`: the invariant, of a call and of a patch that was accepted.
-/

namespace KuryrKubernetes

namespace Finalizers

open Transition Versions

/-! ## The server -/

structure Object where
  finalizers : List String
  deleting : Bool
deriving DecidableEq, Repr

abbrev Register := History (Option Object)

/-- What becomes of a patch. `failed` is any other answer, or none; `lost` is a patch that
was accepted and whose answer did not arrive. -/
inductive PatchAnswer where
  | accepted | lost | conflict | fieldValueForbidden | notFound | failed
deriving DecidableEq, Repr

inductive GetAnswer where
  | found | notFound | failed
deriving DecidableEq, Repr

/-- The object is being deleted, or gone. -/
def Going : Option Object → Prop
  | none => True
  | some obj => obj.deleting = true

/-- The object is there, with the finalizer. -/
def Has (finalizer : String) (o : Option Object) : Prop :=
  ∃ obj, o = some obj ∧ finalizer ∈ obj.finalizers

/-- The answers the server may give to a patch of a version. -/
def Admits (r : Register) (version : Nat) : PatchAnswer → Prop
  | .accepted | .lost => version = r.latest ∧ r.current.isSome
  | .fieldValueForbidden => ∃ obj, r.current = some obj ∧ obj.deleting = true
  | .notFound => r.current = none
  | .conflict | .failed => True

instance (r : Register) (version : Nat) (a : PatchAnswer) : Decidable (Admits r version a) :=
  match a with
  | .accepted | .lost => inferInstanceAs (Decidable (_ ∧ _))
  | .fieldValueForbidden =>
    match h : r.current with
    | none => isFalse fun ⟨obj, hobj, _⟩ => by cases h.symm.trans hobj
    | some obj =>
      if hd : obj.deleting = true then isTrue ⟨obj, h, hd⟩
      else isFalse fun ⟨obj', hobj, hd'⟩ => hd (Option.some.inj (h.symm.trans hobj) ▸ hd')
  | .notFound => inferInstanceAs (Decidable (_ = _))
  | .conflict | .failed => inferInstanceAs (Decidable True)

/-! ## The calls -/

inductive Op where
  | add | remove
deriving DecidableEq, Repr

inductive Pc where
  | patching | reading | returned (value : Bool) | raised
deriving DecidableEq, Repr

/-- A call, with the version its caller had (`taken`), the object it has now, and the number
of patches it has sent. -/
structure Call where
  op : Op
  finalizer : String
  taken : Nat
  version : Nat
  obj : Object
  patches : Nat
  pc : Pc
deriving DecidableEq, Repr

/-- The iterations of either loop. -/
def maxAttempts : Nat := 3

/-- The finalizers of the patch. -/
def Call.finalizers (c : Call) : List String :=
  match c.op with
  | .add => c.obj.finalizers ++ [c.finalizer]
  | .remove => c.obj.finalizers.erase c.finalizer

/-- Whether there is something to do for the object at hand. -/
def Call.patches? (c : Call) : Bool :=
  match c.op with
  | .add => c.finalizer ∉ c.obj.finalizers
  | .remove => c.finalizer ∈ c.obj.finalizers

def Call.start (op : Op) (finalizer : String) (version : Nat) (obj : Object) : Call :=
  let c : Call := ⟨op, finalizer, version, version, obj, 0, .patching⟩
  if c.patches? then c else { c with pc := .returned true }

/-- The response to a patch (k8s_client.py:242–252, 283–296). -/
def Call.patched (c : Call) (a : PatchAnswer) : Call :=
  { c with
    patches := c.patches + 1
    pc := match a with
      | .accepted => .returned true
      | .fieldValueForbidden | .notFound => .returned false
      | .conflict => .reading
      | .lost | .failed => .raised }

/-- The object that was read again. `add_finalizer` looks for its finalizer at once,
`remove_finalizer` in its next iteration. -/
def Call.refreshed (c : Call) (version : Nat) (obj : Object) : Call :=
  let c := { c with version := version, obj := obj }
  { c with
    pc := match c.op with
      | .add =>
        if !c.patches? then .returned true
        else if c.patches < maxAttempts then .patching else .raised
      | .remove =>
        if c.patches < maxAttempts then (if c.patches? then .patching else .returned true)
        else .raised }

/-! ## The system -/

/-- A patch that was accepted, with the finalizers of the object before and after it. -/
structure Accepted where
  op : Op
  finalizer : String
  before : List String
  after : List String
deriving DecidableEq, Repr

structure State where
  object : Register
  calls : List Call
  accepted : List Accepted

/-- `write` is another writer of the object; the number is that of a call. -/
inductive Action where
  | write (o : Option Object)
  | start (op : Op) (finalizer : String) (version : Nat) (obj : Object)
  | patch (i : Nat) (a : PatchAnswer)
  | get (i : Nat) (a : GetAnswer)
deriving DecidableEq, Repr

def PatchAnswer.takesEffect : PatchAnswer → Bool
  | .accepted | .lost => true
  | _ => false

/-- The merge patch of a call. -/
def State.apply (s : State) (c : Call) : State :=
  match s.object.current with
  | none => s
  | some obj =>
    { s with
      object := s.object.write (some { obj with finalizers := c.finalizers })
      accepted := s.accepted ++ [⟨c.op, c.finalizer, obj.finalizers, c.finalizers⟩] }

def State.setCall (s : State) (i : Nat) (c : Call) : State := { s with calls := s.calls.set i c }

def step (s : State) : Action → Option State
  | .write o => some { s with object := s.object.write o }
  | .start op finalizer version obj =>
    if s.object.Genuine ⟨version, some obj⟩ then
      some { s with calls := s.calls ++ [.start op finalizer version obj] }
    else none
  | .patch i a =>
    (s.calls[i]?).bind fun c =>
      if c.pc = .patching ∧ Admits s.object c.version a then
        some ((if a.takesEffect then s.apply c else s).setCall i (c.patched a))
      else none
  | .get i a =>
    (s.calls[i]?).bind fun c =>
      if c.pc = .reading then
        match a, s.object.current with
        | .failed, _ => some (s.setCall i { c with pc := .raised })
        | .notFound, none => some (s.setCall i { c with pc := .returned false })
        | .found, some obj => some (s.setCall i (c.refreshed s.object.latest obj))
        | _, _ => none
      else none

/-- Any object with any history, and no calls yet. -/
def finalizerSystem : System State Action where
  init s := s.calls = [] ∧ s.accepted = []
  step s a s' := step s a = some s'

/-! ## What holds in every run -/

/-- A call, over the versions of the object so far. -/
structure CallOk (r : Register) (c : Call) : Prop where
  genuine : r.Genuine ⟨c.version, some c.obj⟩
  taken : c.taken ≤ c.version
  attempts : c.patches ≤ maxAttempts
  patching : c.pc = .patching → c.patches < maxAttempts ∧ c.patches? = true
  present : c.pc = .returned true → c.op = .add → r.Since c.taken (Has c.finalizer)
  going : c.pc = .returned false → r.Since c.taken Going

/-- An accepted patch adds the finalizer, or removes it once. -/
def PatchOk (p : Accepted) : Prop :=
  match p.op with
  | .add => p.finalizer ∉ p.before ∧ p.after = p.before ++ [p.finalizer]
  | .remove => p.finalizer ∈ p.before ∧ p.after = p.before.erase p.finalizer

structure Sound (s : State) : Prop where
  calls : ∀ c ∈ s.calls, CallOk s.object c
  accepted : ∀ p ∈ s.accepted, PatchOk p

section

variable {r : Register} {c : Call} {s : State}

theorem CallOk.write (h : CallOk r c) (o : Option Object) : CallOk (r.write o) c where
  genuine := h.genuine.write o
  taken := h.taken
  attempts := h.attempts
  patching := h.patching
  present := fun hpc hop => (h.present hpc hop).write o
  going := fun hpc => (h.going hpc).write o

theorem CallOk.taken_le_latest (h : CallOk r c) : c.taken ≤ r.latest :=
  Nat.le_trans h.taken h.genuine.le_latest

/-- An object that has no use for a patch of `add_finalizer` has the finalizer. -/
theorem has_of_not_patches (hop : c.op = .add) (h : ¬ c.patches? = true) :
    Has c.finalizer (some c.obj) := by
  refine ⟨c.obj, rfl, ?_⟩
  simpa [Call.patches?, hop] using h

theorem CallOk.start {op : Op} {finalizer : String} {version : Nat} {obj : Object}
    (h : r.Genuine ⟨version, some obj⟩) : CallOk r (.start op finalizer version obj) := by
  unfold Call.start
  simp only
  split
  · next hpatches =>
    exact ⟨h, Nat.le_refl _, Nat.zero_le _, fun _ => ⟨Nat.zero_lt_succ _, hpatches⟩, nofun,
      nofun⟩
  · next hpatches =>
    exact ⟨h, Nat.le_refl _, Nat.zero_le _, nofun,
      fun _ hop => h.since (has_of_not_patches hop hpatches), nofun⟩

/-- A call after the answer to its patch, in a register in which the answer is true. -/
theorem CallOk.patched (h : CallOk r c) (hpc : c.pc = .patching) {a : PatchAnswer}
    (hpresent : a = .accepted → c.op = .add → r.Since c.taken (Has c.finalizer))
    (hgoing : a = .fieldValueForbidden ∨ a = .notFound → r.Since c.taken Going) :
    CallOk r (c.patched a) where
  genuine := h.genuine
  taken := h.taken
  attempts := (h.patching hpc).1
  patching := by cases a <;> nofun
  present := by
    intro hret hop
    cases a with
    | accepted => exact hpresent rfl hop
    | _ => cases hret
  going := by
    intro hret
    cases a with
    | fieldValueForbidden => exact hgoing (.inl rfl)
    | notFound => exact hgoing (.inr rfl)
    | _ => cases hret

theorem CallOk.ended (h : CallOk r c) {pc : Pc} (hpc : pc = .raised ∨ pc = .returned false)
    (hgoing : pc = .returned false → r.Since c.taken Going) : CallOk r { c with pc := pc } := by
  refine ⟨h.genuine, h.taken, h.attempts, fun heq => ?_, fun heq => ?_, hgoing⟩
  · rcases hpc with rfl | rfl <;> cases heq
  · rcases hpc with rfl | rfl <;> cases heq

/-- A call that has read the object again. -/
theorem CallOk.refreshed (h : CallOk r c) {obj : Object} (hcur : r.current = some obj) :
    CallOk r (c.refreshed r.latest obj) := by
  have hgenuine : r.Genuine ⟨r.latest, some obj⟩ := hcur ▸ r.genuine_snapshot
  have htaken := h.taken_le_latest
  unfold Call.refreshed
  simp only
  cases hop : c.op with
  | add =>
    simp only
    split
    · next hhas =>
      -- the finalizer is there already: the read is what shows it
      refine ⟨hgenuine, htaken, h.attempts, nofun, fun _ _ => .current htaken ?_, nofun⟩
      rw [hcur]
      exact has_of_not_patches (c := { c with op := .add, version := r.latest, obj := obj }) rfl
        (by simpa using hhas)
    · next hhas =>
      split
      · next hleft =>
        have hpatches : Call.patches? ⟨.add, c.finalizer, c.taken, r.latest, obj, c.patches, c.pc⟩ =
            true := by simpa using hhas
        exact ⟨hgenuine, htaken, h.attempts, fun _ => ⟨hleft, hpatches⟩, nofun, nofun⟩
      · exact ⟨hgenuine, htaken, h.attempts, nofun, nofun, nofun⟩
  | remove =>
    simp only
    split
    · next hleft =>
      split
      -- the finalizer is still there
      · next hhas => exact ⟨hgenuine, htaken, h.attempts, fun _ => ⟨hleft, hhas⟩, nofun, nofun⟩
      · exact ⟨hgenuine, htaken, h.attempts, nofun, (fun _ hadd => nomatch hadd), nofun⟩
    · exact ⟨hgenuine, htaken, h.attempts, nofun, nofun, nofun⟩

/-- The patch of a call with the latest version. -/
theorem CallOk.patchOk (h : CallOk r c) (hpc : c.pc = .patching) {obj : Object}
    (hversion : c.version = r.latest) (hcur : r.current = some obj) :
    PatchOk ⟨c.op, c.finalizer, obj.finalizers, c.finalizers⟩ := by
  -- the object at hand is the one in the server
  have hobj : c.obj = obj := Option.some.inj ((h.genuine.eq_current hversion).trans hcur)
  have hpatches := (h.patching hpc).2
  unfold PatchOk Call.finalizers
  unfold Call.patches? at hpatches
  rw [hobj] at hpatches ⊢
  cases hop : c.op with
  | add =>
    rw [hop] at hpatches
    exact ⟨by simpa using hpatches, rfl⟩
  | remove =>
    rw [hop] at hpatches
    exact ⟨by simpa using hpatches, rfl⟩

/-- What a call leaves for the others. -/
theorem Sound.setCall (h : Sound s) {i : Nat} (hc : CallOk s.object c) : Sound (s.setCall i c) where
  calls := by
    intro c' hc'
    rcases List.mem_or_eq_of_mem_set hc' with hold | rfl
    · exact h.calls c' hold
    · exact hc
  accepted := h.accepted

/-- The server carries out a patch. -/
theorem Sound.apply (h : Sound s) (hc : CallOk s.object c) (hpc : c.pc = .patching)
    (hversion : c.version = s.object.latest) {obj : Object} (hcur : s.object.current = some obj) :
    Sound (s.apply c) ∧
      (s.apply c).object = s.object.write (some { obj with finalizers := c.finalizers }) := by
  unfold State.apply
  rw [hcur]
  refine ⟨⟨fun c' hc' => (h.calls c' hc').write _, fun p hp => ?_⟩, rfl⟩
  rcases List.mem_append.mp hp with hold | hnew
  · exact h.accepted p hold
  · rw [List.mem_singleton.mp hnew]
    exact hc.patchOk hpc hversion hcur

theorem Sound.patch (h : Sound s) {i : Nat} {a : PatchAnswer} (hi : s.calls[i]? = some c)
    (hpc : c.pc = .patching) (ha : Admits s.object c.version a) :
    Sound ((if a.takesEffect then s.apply c else s).setCall i (c.patched a)) := by
  have hc := h.calls c (List.mem_of_getElem? hi)
  -- an answer without effect tells the object as it is
  have hnone : a.takesEffect = false → CallOk s.object (c.patched a) := by
    intro heffect
    refine hc.patched hpc (fun hacc => by rw [hacc] at heffect; cases heffect) fun hgone => ?_
    rcases hgone with rfl | rfl
    · obtain ⟨obj, hcur, hdeleting⟩ := ha
      exact .current hc.taken_le_latest (by rw [hcur]; exact hdeleting)
    · exact .current hc.taken_le_latest (by rw [show s.object.current = none from ha]; trivial)
  -- a lost answer changes the object as an accepted one does
  have heffect : a = .accepted ∨ a = .lost → Sound ((s.apply c).setCall i (c.patched a)) := by
    intro hacc
    obtain ⟨hversion, hsome⟩ : c.version = s.object.latest ∧ s.object.current.isSome := by
      rcases hacc with rfl | rfl <;> exact ha
    obtain ⟨obj, hcur⟩ := Option.isSome_iff_exists.mp hsome
    obtain ⟨hsound, hobject⟩ := h.apply hc hpc hversion hcur
    refine hsound.setCall ?_
    rw [hobject]
    refine (hc.write _).patched hpc (fun _ hop => ?_) fun hgone => ?_
    · refine .current ?_ ?_
      · rw [History.latest_write]
        exact Nat.le_succ_of_le hc.taken_le_latest
      · rw [History.current_write]
        exact ⟨_, rfl, by simp [Call.finalizers, hop]⟩
    · rcases hacc with rfl | rfl <;> rcases hgone with hgone | hgone <;> cases hgone
  cases a with
  | accepted => exact heffect (.inl rfl)
  | lost => exact heffect (.inr rfl)
  | _ => exact h.setCall (hnone rfl)

theorem Sound.get (h : Sound s) {s' : State} {i : Nat} {a : GetAnswer}
    (hstep : step s (.get i a) = some s') : Sound s' := by
  obtain ⟨c, hi, hstep⟩ := Option.bind_eq_some_iff.mp hstep
  have hc := h.calls c (List.mem_of_getElem? hi)
  split at hstep
  · cases a with
    | failed =>
      cases hstep
      exact h.setCall (hc.ended (.inl rfl) nofun)
    | notFound =>
      cases hcur : s.object.current with
      | none =>
        rw [hcur] at hstep
        cases hstep
        refine h.setCall (hc.ended (.inr rfl) fun _ => .current hc.taken_le_latest ?_)
        rw [hcur]
        trivial
      -- the server does not deny an object it has
      | some obj =>
        rw [hcur] at hstep
        cases hstep
    | found =>
      cases hcur : s.object.current with
      | none =>
        rw [hcur] at hstep
        cases hstep
      | some obj =>
        rw [hcur] at hstep
        cases hstep
        exact h.setCall (hc.refreshed hcur)
  · cases hstep

/-- **One step.** -/
theorem Sound.step {s' : State} {a : Action} (h : Sound s) (hstep : Finalizers.step s a = some s') :
    Sound s' := by
  cases a with
  | write o =>
    cases hstep
    exact ⟨fun c hc => (h.calls c hc).write o, h.accepted⟩
  | start op finalizer version obj =>
    simp only [Finalizers.step] at hstep
    split at hstep
    · next hgenuine =>
      cases hstep
      -- the new call stands behind the old ones
      refine ⟨fun c hc => ?_, h.accepted⟩
      rcases List.mem_append.mp hc with hold | hnew
      · exact h.calls c hold
      · rw [List.mem_singleton.mp hnew]
        exact .start hgenuine
    · cases hstep
  | patch i a =>
    obtain ⟨c, hi, hstep⟩ := Option.bind_eq_some_iff.mp hstep
    split at hstep
    · next hok =>
      cases hstep
      exact h.patch hi hok.1 hok.2
    · cases hstep
  | get i a => exact h.get hstep

theorem sound_of_reach (h : Reach finalizerSystem (fun _ _ => True) s) : Sound s := by
  refine h.invariant (fun s hs => ?_) fun s a s' hi _ hs => hi.step hs
  refine ⟨fun c hc => ?_, fun p hp => ?_⟩
  · rw [hs.1] at hc
    cases hc
  · rw [hs.2] at hp
    cases hp

end

/-- **Finalizer updates touch one finalizer**, and the results are true. -/
theorem finalizer_updates_exact {s : State} (h : Reach finalizerSystem (fun _ _ => True) s) :
    (∀ p ∈ s.accepted, PatchOk p) ∧
    (∀ c ∈ s.calls, c.patches ≤ 3) ∧
    (∀ c ∈ s.calls, c.op = .add → c.pc = .returned true →
      s.object.Since c.taken (Has c.finalizer)) ∧
    (∀ c ∈ s.calls, c.op = .add → c.pc = .returned false → s.object.Since c.taken Going) := by
  have hsound := sound_of_reach h
  refine ⟨hsound.accepted, fun c hc => (hsound.calls c hc).attempts,
    fun c hc hop hpc => (hsound.calls c hc).present hpc hop,
    fun c hc _ hpc => (hsound.calls c hc).going hpc⟩

/-- A Service with a finalizer of its own. -/
def service : State := ⟨⟨[some ⟨["foregroundDeletion"], false⟩], by simp⟩, [], []⟩

/-- One call adds and another removes a finalizer; the first to patch makes the other read
again. -/
def interleaved : List Action :=
  [.start .add "kuryr.openstack.org/service-finalizer" 0 ⟨["foregroundDeletion"], false⟩,
    .start .remove "foregroundDeletion" 0 ⟨["foregroundDeletion"], false⟩,
    .patch 1 .accepted, .patch 0 .conflict, .get 0 .found, .patch 0 .accepted]

theorem finalizer_updates_exact_interleaved :
    ∃ s, execute step service interleaved = some s ∧
      s.accepted =
        [⟨.remove, "foregroundDeletion", ["foregroundDeletion"], []⟩,
          ⟨.add, "kuryr.openstack.org/service-finalizer", [],
            ["kuryr.openstack.org/service-finalizer"]⟩] ∧
      ∀ p ∈ s.accepted, PatchOk p := by
  have hsome : (execute step service interleaved).isSome := by decide +kernel
  obtain ⟨s, hs⟩ := Option.isSome_iff_exists.mp hsome
  have hreach : Reach finalizerSystem (fun _ _ => True) s :=
    Reach.execute (fun _ _ _ hstep => ⟨trivial, hstep⟩) (.init ⟨rfl, rfl⟩) hs
  have haccepted : (execute step service interleaved).map State.accepted =
      some [⟨.remove, "foregroundDeletion", ["foregroundDeletion"], []⟩,
        ⟨.add, "kuryr.openstack.org/service-finalizer", [],
          ["kuryr.openstack.org/service-finalizer"]⟩] := by decide +kernel
  rw [hs] at haccepted
  exact ⟨s, hs, Option.some.inj haccepted, (finalizer_updates_exact hreach).1⟩

end Finalizers

end KuryrKubernetes
