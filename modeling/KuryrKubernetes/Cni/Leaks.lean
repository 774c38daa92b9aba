import KuryrKubernetes.Cni.Registry

/-!
# Entries that stay behind

When a pod goes, its entry is removed by whoever comes second: `on_deleted`, if a DEL has
marked it unplugged, and a DEL, if `on_deleted` has marked it deleted. Both marks are made
under the lock and never both on one entry, so every order of the two removes it, and once
(`Orderly`).

The Pod watch is not part of that. `on_finalize` takes a missing entry for "there was no
KuryrPort", also when there was one and it has been removed; the sentinel it then writes
stays. `StepOk` leaves out that step and nothing else.
-/

namespace KuryrKubernetes

namespace Cni

open Transition

/-- One incarnation of a pod: a name that is not in the registry, one KuryrPort. -/
def incarnation (cfg : Setup) : System State Action where
  init := fun s => s.registry = none ∧ s.live = true ∧ s.deleting = false ∧ s.add = .starting ∧
    s.dels = [] ∧ s.seen = false ∧ s.removals = 0 ∧ s.taken = none
  step := fun s a s' => a.recreates = false ∧ step cfg s a = some s'

/-- Once the DELETED event and a DEL are through, nothing is left under the name, what was
there was removed once, and nobody is told that the pod is gone. -/
def Clean (s : State) : Prop :=
  s.Deleted → s.Accepted → s.registry = none ∧ s.removals = 1 ∧
    ∀ podUid api, find podUid api s.registry ≠ .gone

/-- A Pod event is not processed when the entry has been there and is gone. -/
def StepOk (s : State) (a : Action) : Prop :=
  a = .onFinalize → s.seen = true → s.registry ≠ none

/-- Which marks an entry has when. -/
structure Marks (s : State) (e : Entry) : Prop where
  uid : e.kp.uid = s.kp.uid
  received : e.delReceived = true ↔ s.Deleted
  once : e.delReceived = true → e.vifUnplugged = false
  unplugged : s.Accepted → e.vifUnplugged = true

structure Orderly (s : State) : Prop where
  unseen : s.seen = false → s.removals = 0 ∧ ∀ e, s.registry ≠ some (.entry e)
  present : s.seen = true → s.removals = 0 → ∃ e, s.registry = some (.entry e)
  gone : s.removals ≠ 0 → s.removals = 1 ∧ s.registry = none ∧ s.Deleted
  pending : s.deleting = true → s.live = false ∧ s.seen = true
  entry : ∀ e, s.registry = some (.entry e) → Marks s e
  found : ∀ d ∈ s.dels, (∃ kp, d.pc = .disconnecting kp) ∨ d.pc = .finishing ∨ d.pc = .accepted →
    s.seen = true

section

variable {cfg : Setup} {s s' : State} {a : Action}

theorem Orderly.clean (h : Orderly s) : Clean s := by
  rintro hdeleted hacc
  obtain ⟨d, hd, hpc⟩ := id hacc
  have hseen := h.found d hd (.inr (.inr hpc))
  have hremovals : s.removals ≠ 0 := by
    intro hzero
    obtain ⟨e, he⟩ := h.present hseen hzero
    have hmarks := h.entry e he
    have hreceived := hmarks.received.mpr hdeleted
    have hunplugged := hmarks.unplugged hacc
    rw [hmarks.once hreceived] at hunplugged
    cases hunplugged
  obtain ⟨hone, hnone, _⟩ := h.gone hremovals
  refine ⟨hnone, hone, fun podUid api => ?_⟩
  rw [hnone]
  nofun

/-- The slot of a name whose KuryrPort has been seen. -/
theorem Orderly.entry_of_live (h : Orderly s) (hlive : ¬ s.Deleted) (hseen : s.seen = true) :
    s.removals = 0 ∧ ∃ e, s.registry = some (.entry e) := by
  have hzero : s.removals = 0 := by
    by_contra hne
    exact hlive (h.gone hne).2.2
  exact ⟨hzero, h.present hseen hzero⟩

theorem Orderly.add (h : Orderly s) (pc : AddPc) (taken : Option Nat) :
    Orderly { s with add := pc, taken := taken } where
  unseen := h.unseen
  present := h.present
  gone := h.gone
  pending := h.pending
  entry := fun e he => ⟨(h.entry e he).uid, (h.entry e he).received, (h.entry e he).once,
    (h.entry e he).unplugged⟩
  found := h.found

theorem Orderly.vif (h : Orderly s) (hlive : s.live = true) (vifs : Vifs) :
    Orderly { s with registry := onVif s.kp vifs s.registry, seen := true } := by
  have hnot : ¬ s.Deleted := fun hdel => Bool.false_ne_true (hdel.1.symm.trans hlive)
  obtain ⟨e', he', huid, hcase⟩ := onVif_entry s.kp vifs s.registry
  refine ⟨nofun, fun _ _ => ⟨e', he'⟩, fun hne => absurd (h.gone hne).2.2 hnot, ?_, ?_,
    fun _ _ _ => rfl⟩
  · exact fun hdel => ⟨(h.pending hdel).1, rfl⟩
  · intro e he
    obtain rfl : e' = e := by
      have he : onVif s.kp vifs s.registry = some (.entry e) := he
      rw [he'] at he
      cases he
      rfl
    rcases hcase with ⟨e₀, he₀, _, heq⟩ | ⟨hnone, heq⟩
    · have hmarks := h.entry e₀ he₀
      rw [heq]
      exact ⟨hmarks.uid, hmarks.received, hmarks.once, hmarks.unplugged⟩
    · -- a DEL that was accepted has found an entry of the KuryrPort, which is still there
      rw [heq]
      refine ⟨rfl, ⟨nofun, fun hdel => absurd hdel hnot⟩, nofun, fun hacc => ?_⟩
      obtain ⟨d, hd, hpc⟩ := hacc
      obtain ⟨_, e₀, he₀⟩ := h.entry_of_live hnot (h.found d hd (.inr (.inr hpc)))
      exact absurd (h.entry e₀ he₀).uid (hnone e₀ he₀)

theorem Orderly.seen_of_entry (h : Orderly s) {e : Entry} (he : s.registry = some (.entry e)) :
    s.seen = true := by
  by_contra hseen
  exact (h.unseen (Bool.eq_false_iff.mpr hseen)).2 e he

theorem Orderly.removals_of_entry (h : Orderly s) {e : Entry} (he : s.registry = some (.entry e)) :
    s.removals = 0 := by
  by_contra hne
  have hnone := (h.gone hne).2.1
  rw [he] at hnone
  cases hnone

theorem Orderly.testEntry (h : Orderly s) (hlive : s.live = true) {e : Entry}
    (he : s.registry = some (.entry e)) : Orderly { s with live := false, deleting := true } := by
  have hnot : ¬ s.Deleted := fun hdel => Bool.false_ne_true (hdel.1.symm.trans hlive)
  refine ⟨h.unseen, h.present, fun hne => absurd (h.gone hne).2.2 hnot,
    fun _ => ⟨rfl, h.seen_of_entry he⟩, fun e' he' => ?_, h.found⟩
  have hmarks := h.entry e' he'
  exact ⟨hmarks.uid, ⟨fun hdel => absurd (hmarks.received.mp hdel) hnot, nofun⟩, hmarks.once,
    hmarks.unplugged⟩

theorem Orderly.testOther (h : Orderly s) (hlive : s.live = true)
    (hnone : ∀ e, s.registry ≠ some (.entry e)) : Orderly { s with live := false } := by
  have hnot : ¬ s.Deleted := fun hdel => Bool.false_ne_true (hdel.1.symm.trans hlive)
  have hunseen : s.seen = false := by
    by_contra hseen
    rw [Bool.not_eq_false] at hseen
    obtain ⟨_, e, he⟩ := h.entry_of_live hnot hseen
    exact hnone e he
  refine ⟨h.unseen, h.present, fun hne => absurd (h.unseen hunseen).1 hne, fun hdel => ?_,
    fun e he => absurd he (hnone e), h.found⟩
  exact ⟨rfl, (h.pending hdel).2⟩

theorem Orderly.deleted (h : Orderly s) (hdel : s.deleting = true) :
    Orderly { s.write (onDeleted s.registry) with deleting := false } := by
  have hnot : ¬ s.Deleted := fun h => Bool.false_ne_true (h.2.symm.trans hdel)
  obtain ⟨hlive, hseen⟩ := h.pending hdel
  obtain ⟨hzero, e, he⟩ := h.entry_of_live hnot hseen
  have hmarks := h.entry e he
  unfold State.write
  rw [he, hzero]
  unfold onDeleted
  simp only
  split
  · refine ⟨fun hunseen => ?_, nofun, fun _ => ⟨rfl, rfl, hlive, rfl⟩, nofun, nofun, h.found⟩
    exact absurd (hunseen.symm.trans hseen) Bool.false_ne_true
  · rename_i hplug
    have hplug : e.vifUnplugged = false := Bool.eq_false_iff.mpr hplug
    refine ⟨fun hunseen => ?_, fun _ _ => ⟨_, rfl⟩, fun hne => absurd rfl hne, nofun,
      fun e' he' => ?_, h.found⟩
    · exact absurd (hunseen.symm.trans hseen) Bool.false_ne_true
    · cases he'
      refine ⟨hmarks.uid, ⟨fun _ => ⟨hlive, rfl⟩, fun _ => rfl⟩, fun _ => hplug, fun hacc => ?_⟩
      exact hmarks.unplugged hacc

theorem Orderly.finalize (h : Orderly s) (hok : s.seen = true → s.registry ≠ none) :
    Orderly { s with registry := onFinalize s.registry } := by
  cases hreg : s.registry with
  | some slot =>
    have heq : { s with registry := onFinalize (some slot) } = s := by
      show { s with registry := some slot } = s
      rw [← hreg]
    rw [heq]
    exact h
  | none =>
    have hunseen : s.seen = false := Bool.eq_false_iff.mpr fun hseen => hok hseen hreg
    refine ⟨fun _ => ⟨(h.unseen hunseen).1, nofun⟩, fun hseen => ?_,
      fun hne => absurd (h.unseen hunseen).1 hne, h.pending, nofun, h.found⟩
    exact absurd (hunseen.symm.trans hseen) Bool.false_ne_true

theorem Orderly.record (h : Orderly s) {e : Entry} (he : s.registry = some (.entry e))
    (id : ContainerId) : Orderly { s with
      registry := some (.entry { e with containerid := some id })
      add := .waiting } := by
  have hmarks := h.entry e he
  refine ⟨fun hunseen => ?_, fun _ _ => ⟨_, rfl⟩, fun hne => ?_, h.pending, fun e' he' => ?_,
    h.found⟩
  · exact absurd he ((h.unseen hunseen).2 e)
  · exact absurd (h.removals_of_entry he) hne
  · cases he'
    exact ⟨hmarks.uid, hmarks.received, hmarks.once, hmarks.unplugged⟩

theorem Orderly.arrive (h : Orderly s) (id : ContainerId) (podUid : Option String) :
    Orderly { s with dels := s.dels ++ [⟨id, podUid, .locking⟩] } := by
  refine ⟨h.unseen, h.present, h.gone, h.pending, fun e he => ?_, fun d hd hpc => ?_⟩
  · have hmarks := h.entry e he
    refine ⟨hmarks.uid, hmarks.received, hmarks.once, fun hacc => hmarks.unplugged ?_⟩
    obtain ⟨d, hd, hpc⟩ := hacc
    rcases List.mem_append.mp hd with hd | hd
    · exact ⟨d, hd, hpc⟩
    · rw [List.mem_singleton.mp hd] at hpc
      cases hpc
  · rcases List.mem_append.mp hd with hd | hd
    · exact h.found d hd hpc
    · rw [List.mem_singleton.mp hd] at hpc
      simp at hpc

/-- A DEL moves on, short of its end. -/
theorem Orderly.move (h : Orderly s) {i : Nat} {d : Del} {pc : DelPc} (hd : s.dels[i]? = some d)
    (hpc : pc ≠ .accepted)
    (hfound : (∃ kp, pc = .disconnecting kp) ∨ pc = .finishing → s.seen = true) :
    Orderly (s.setDel i pc) := by
  refine ⟨h.unseen, h.present, h.gone, h.pending, fun e he => ?_, fun d' hd' hpc' => ?_⟩
  · have hmarks := h.entry e he
    refine ⟨hmarks.uid, hmarks.received, hmarks.once, fun hacc => hmarks.unplugged ?_⟩
    obtain ⟨d', hd', hpc'⟩ := hacc
    rcases mem_setDel hd hd' with hd' | rfl
    · exact ⟨d', hd', hpc'⟩
    · exact absurd hpc' hpc
  · rcases mem_setDel hd hd' with hd' | rfl
    · exact h.found d' hd' hpc'
    · rcases hpc' with hpc' | hpc' | hpc'
      · exact hfound (.inl hpc')
      · exact hfound (.inr hpc')
      · exact absurd hpc' hpc

/-- A DEL comes to its end: the entry is marked or gone. -/
theorem Orderly.accept (h : Orderly s) {i : Nat} {d : Del} (hd : s.dels[i]? = some d)
    (hpc : d.pc = .finishing) (hplug : ∀ e, s.registry = some (.entry e) → e.vifUnplugged = true) :
    Orderly (s.setDel i .accepted) := by
  have hseen : s.seen = true := h.found d (List.mem_of_getElem? hd) (.inr (.inl hpc))
  refine ⟨h.unseen, h.present, h.gone, h.pending, fun e he => ?_, fun _ _ _ => hseen⟩
  have hmarks := h.entry e he
  exact ⟨hmarks.uid, hmarks.received, hmarks.once, fun _ => hplug e he⟩

theorem Orderly.remove (h : Orderly s) {e : Entry} (he : s.registry = some (.entry e))
    (hreceived : e.delReceived = true) : Orderly (s.write none) := by
  have hseen := h.seen_of_entry he
  have hdeleted := (h.entry e he).received.mp hreceived
  unfold State.write
  rw [he, h.removals_of_entry he]
  refine ⟨fun hunseen => ?_, nofun, fun _ => ⟨rfl, rfl, hdeleted⟩, h.pending, nofun, h.found⟩
  exact absurd (hunseen.symm.trans hseen) Bool.false_ne_true

theorem Orderly.mark (h : Orderly s) {e : Entry} (he : s.registry = some (.entry e))
    (hreceived : e.delReceived = false) :
    Orderly (s.write (some (.entry { e with vifUnplugged := true }))) := by
  have hmarks := h.entry e he
  unfold State.write
  rw [he, h.removals_of_entry he]
  refine ⟨fun hunseen => ?_, fun _ _ => ⟨_, rfl⟩, fun hne => absurd rfl hne, h.pending,
    fun e' he' => ?_, h.found⟩
  · exact absurd he ((h.unseen hunseen).2 e)
  · cases he'
    refine ⟨hmarks.uid, hmarks.received, fun hrec => ?_, fun _ => rfl⟩
    exact absurd (hreceived.symm.trans hrec) Bool.false_ne_true

/-- A sentinel is there only before the KuryrPort is seen. -/
theorem Orderly.clear (h : Orderly s) (hreg : s.registry = some .sentinel) :
    Orderly (s.write none) := by
  unfold State.write
  rw [hreg]
  refine ⟨fun hunseen => ⟨(h.unseen hunseen).1, nofun⟩, fun hseen hzero => ?_, fun hne => ?_,
    h.pending, nofun, h.found⟩
  · obtain ⟨e, he⟩ := h.present hseen hzero
    rw [hreg] at he
    cases he
  · have hnone := (h.gone hne).2.1
    rw [hreg] at hnone
    cases hnone

theorem Orderly.del (h : Orderly s) {i : Nat} {d : Del} {pc : DelPc} {r : Registry}
    (hd : s.dels[i]? = some d) (hstep : DelStep d s.registry pc r) :
    Orderly ((s.write r).setDel i pc) := by
  have hmem := List.mem_of_getElem? hd
  have hself : ∀ {q}, Orderly (s.setDel i q) → s.registry = r →
    Orderly ((s.write r).setDel i q) := by
    rintro q hq rfl
    rwa [State.write_self]
  generalize hreg : s.registry = old at hstep
  cases hstep with
  | missing => exact hself (h.move hd nofun (by simp)) hreg
  | sentinel => exact (h.clear hreg).move hd nofun (by simp)
  | read => exact hself (h.move hd nofun (by simp)) hreg
  | pass => exact hself (h.move hd nofun (by simp)) hreg
  | found => exact hself (h.move hd nofun fun _ => h.seen_of_entry hreg) hreg
  | disconnected hpc => exact hself (h.move hd nofun fun _ => h.found d hmem (.inl ⟨_, hpc⟩)) hreg
  | late hpc =>
    refine hself (h.accept hd hpc fun e he => ?_) hreg
    rw [hreg] at he
    cases he
  | remove hpc hreceived => exact (h.remove hreg hreceived).accept hd hpc nofun
  | mark hpc hreceived =>
    refine (h.mark hreg hreceived).accept hd hpc fun e he => ?_
    cases he
    rfl
  | stop hpc =>
    refine hself (h.move hd ?_ ?_) hreg
    · rcases hpc with rfl | rfl <;> nofun
    · rcases hpc with rfl | rfl <;> simp

/-- **Every step but the one left out keeps the order.** -/
theorem Orderly.step (h : Orderly s) (hok : StepOk s a) (hone : a.recreates = false)
    (hstep : Stepped cfg s a s') : Orderly s' := by
  cases hstep with
  | add pc => exact h.add pc s.taken
  | vif hlive => exact h.vif hlive _
  | testEntry hlive he => exact h.testEntry hlive he
  | testOther hlive hnone => exact h.testOther hlive hnone
  | deleted hdel => exact h.deleted hdel
  | recreate => cases hone
  | finalize => exact h.finalize (hok rfl)
  | take => exact h.add _ _
  | record he => exact h.record he _
  | arrive => exact h.arrive _ _
  | del hd _ hdel => exact h.del hd hdel

theorem orderly_of_init (h : (incarnation cfg).init s) : Orderly s := by
  obtain ⟨hreg, hlive, hdel, _, hdels, hseen, hremovals, _⟩ := h
  refine ⟨fun _ => ⟨hremovals, fun e he => ?_⟩, fun hs => ?_, fun hne => absurd hremovals hne,
    fun hd => ?_, fun e he => ?_, fun d hd => ?_⟩
  · rw [hreg] at he
    cases he
  · exact absurd (hseen.symm.trans hs) Bool.false_ne_true
  · exact absurd (hdel.symm.trans hd) Bool.false_ne_true
  · rw [hreg] at he
    cases he
  · rw [hdels] at hd
    cases hd

/-- **Nothing is left under the name of a pod that is gone.** -/
theorem incarnation_clean (h : Reach (incarnation cfg) StepOk s) : Clean s := by
  have horderly : Orderly s := h.invariant (fun _ => orderly_of_init)
    fun _ _ _ hI hok hstep => hI.step hok hstep.1 (stepped_of_step hstep.2)
  exact horderly.clean

end

instance (s : State) (a : Action) : Decidable (StepOk s a) :=
  inferInstanceAs (Decidable (_ → _ → _))

/-- A pod that is created and deleted; its Pod event comes before the entry goes. -/
def plainLife : List Action :=
  [.onVif [("eth0", true)], .addStart (some "pod-uid"), .addFind none, .addRecord, .addWait,
    .onFinalize, .delArrive webSetup.containerid none, .delLock 0, .delCheck 0, .delFind 0 none,
    .delDisconnect 0 true, .deletedTest, .delFinish 0, .deletedLock]

/-- A step of the incarnation. -/
def stepOnce (cfg : Setup) (s : State) (a : Action) : Option State :=
  if a.recreates then none else step cfg s a

theorem stepOnce_step {cfg : Setup} {s s' : State} {a : Action} (h : stepOnce cfg s a = some s') :
    (incarnation cfg).step s a s' := by
  unfold stepOnce at h
  split at h
  · cases h
  · exact ⟨Bool.eq_false_iff.mpr ‹_›, h⟩

theorem unknownPod_init : (incarnation webSetup).init unknownPod :=
  ⟨rfl, rfl, rfl, rfl, rfl, rfl, rfl, rfl⟩

theorem incarnation_clean_plainLife :
    ∃ s, Reach (incarnation webSetup) StepOk s ∧ s.Deleted ∧ s.Accepted ∧ s.registry = none ∧
      s.removals = 1 := by
  obtain ⟨s, hs, hdeleted, hacc⟩ : ∃ s,
      execute (guarded StepOk (stepOnce webSetup)) unknownPod plainLife = some s ∧ s.Deleted ∧
        s.Accepted :=
    ⟨_, rfl, ⟨rfl, rfl⟩, _, List.mem_singleton_self _, rfl⟩
  have hreach : Reach (incarnation webSetup) StepOk s :=
    Reach.execute (fun _ _ _ h => ⟨(of_guarded h).1, stepOnce_step (of_guarded h).2⟩)
      (.init unknownPod_init) hs
  obtain ⟨hnone, hone, _⟩ := incarnation_clean hreach hdeleted hacc
  exact ⟨s, hreach, hdeleted, hacc, hnone, hone⟩

/-- The Pod event comes last: the sentinel stays. -/
theorem incarnation_leaves_sentinel :
    ∃ s, Reach (incarnation webSetup) (fun _ _ => True) s ∧ s.Deleted ∧ s.Accepted ∧
      s.registry = some .sentinel ∧ ¬ Clean s := by
  obtain ⟨s, hs, hdeleted, hacc, hreg⟩ : ∃ s,
      execute (stepOnce webSetup) unknownPod (plainLife ++ [.onFinalize]) = some s ∧ s.Deleted ∧
        s.Accepted ∧ s.registry = some .sentinel :=
    ⟨_, rfl, ⟨rfl, rfl⟩, ⟨_, List.mem_singleton_self _, rfl⟩, rfl⟩
  refine ⟨s, Reach.execute (fun _ _ _ h => ⟨trivial, stepOnce_step h⟩) (.init unknownPod_init) hs,
    hdeleted, hacc, hreg, fun hclean => ?_⟩
  have hnone := (hclean hdeleted hacc).1
  rw [hreg] at hnone
  cases hnone

end Cni

end KuryrKubernetes
