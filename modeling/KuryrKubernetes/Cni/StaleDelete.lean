import KuryrKubernetes.Cni.Registry

/-!
# DELs of other containers

A DEL compares its container id with the one the ADD recorded, so as not to unplug a
container it does not know. The ADD records its id when it has connected the VIFs, the DEL
acts after it has compared, and neither holds the lock in between. There are two windows:

- a DEL that compares while the entry does not have the id of the ADD that took it goes on;
- an ADD that finds the entry while a DEL is past its comparison meets it there.

`WindowOk` says that neither is hit. Everything else may happen in any order: the KuryrPort
may be deleted and created again, and the DEL may come without a pod uid.
-/

namespace KuryrKubernetes

namespace Cni

open Transition

/-- One ADD and any number of DELs of other containers, from any contents of the slot that
the watches can have left. -/
def strangers (cfg : Setup) : System State Action where
  init := fun s => s.deleting = false ∧ s.add = .starting ∧ s.dels = [] ∧ s.taken = none ∧
    ∀ e, s.registry = some (.entry e) → e.kp.uid ≤ s.kp.uid ∧
      (e.delReceived = true → e.kp.uid = s.kp.uid → s.live = false)
  step := fun s a s' => (∀ podUid, a ≠ .delArrive cfg.containerid podUid) ∧ step cfg s a = some s'

/-- No DEL disconnects the VIFs the ADD took, or is about to mark or remove their entry. -/
def Unharmed (s : State) : Prop :=
  ∀ d ∈ s.dels, (∀ kp, d.pc = .disconnecting kp → s.taken ≠ some kp.uid) ∧
    (d.pc = .finishing → ∀ e, s.registry = some (.entry e) → s.taken ≠ some e.kp.uid)

/-- The DEL is past its comparison and will come to the entry of the KuryrPort. -/
def Del.Past (d : Del) (kp : KuryrPort) : Prop :=
  match d.pc with
  | .finding => Matches d.podUid kp
  | .disconnecting _ | .finishing => True
  | _ => False

/-- Neither window is hit. -/
def WindowOk (cfg : Setup) (s : State) : Action → Prop
  | .delCheck i => ∀ d, s.dels[i]? = some d → ∀ e, s.registry = some (.entry e) →
      s.taken = some e.kp.uid → Matches d.podUid e.kp → e.containerid = some cfg.containerid
  | .addFind _ => ∀ e, s.registry = some (.entry e) → ∀ d ∈ s.dels, ¬ d.Past e.kp
  | _ => True

/-- The slot and the watch. -/
structure Watched (s : State) : Prop where
  taken : ∀ u, s.taken = some u → u ≤ s.kp.uid
  entry : ∀ e, s.registry = some (.entry e) → e.kp.uid ≤ s.kp.uid ∧
    (e.delReceived = true → e.kp.uid = s.kp.uid → s.live = false)
  held : s.taken = some s.kp.uid → s.live = true →
    ∃ e, s.registry = some (.entry e) ∧ e.kp.uid = s.kp.uid
  pending : s.deleting = true → s.live = false

/-- The DELs and what the ADD took. -/
structure Apart (cfg : Setup) (s : State) : Prop where
  ids : ∀ d ∈ s.dels, d.containerid ≠ cfg.containerid
  disconnecting : ∀ d ∈ s.dels, ∀ kp, d.pc = .disconnecting kp → s.taken ≠ some kp.uid
  past : ∀ d ∈ s.dels, ∀ e, s.registry = some (.entry e) → d.Past e.kp → s.taken ≠ some e.kp.uid

section

variable {cfg : Setup} {s s' : State} {a : Action}

theorem Apart.unharmed (h : Apart cfg s) : Unharmed s := by
  intro d hd
  refine ⟨h.disconnecting d hd, fun hpc e he => h.past d hd e he ?_⟩
  rw [Del.Past, hpc]
  trivial

/-- A slot with the same KuryrPort, or without an entry. -/
def Kept (r r' : Registry) : Prop :=
  ∀ e', r' = some (.entry e') → ∃ e, r = some (.entry e) ∧ e'.kp = e.kp

theorem Apart.keep (h : Apart cfg s) {r : Registry} (hkept : Kept s.registry r) :
    Apart cfg { s with registry := r } where
  ids := h.ids
  disconnecting := h.disconnecting
  past := by
    intro d hd e' he' hpast
    obtain ⟨e, he, hkp⟩ := hkept e' he'
    rw [hkp] at hpast ⊢
    exact h.past d hd e he hpast

/-! ## The slot and the watch -/

/-- A write that keeps the KuryrPort and does not mark it deleted, unless it is. -/
theorem Watched.keep (h : Watched s) {r : Registry}
    (hr : ∀ e', r = some (.entry e') → ∃ e, s.registry = some (.entry e) ∧ e'.kp = e.kp ∧
      (e'.delReceived = true → e.delReceived = true ∨ s.live = false))
    (hheld : s.taken = some s.kp.uid → s.live = true → ∃ e', r = some (.entry e')) :
    Watched { s with registry := r } where
  taken := h.taken
  entry := by
    intro e' he'
    obtain ⟨e, he, hkp, hreceived⟩ := hr e' he'
    obtain ⟨hle, hdel⟩ := h.entry e he
    rw [hkp]
    refine ⟨hle, fun hrec huid => ?_⟩
    rcases hreceived hrec with hrec | hlive
    · exact hdel hrec huid
    · exact hlive
  held := by
    intro htaken hlive
    obtain ⟨e', he'⟩ := hheld htaken hlive
    obtain ⟨e, he, hkp, _⟩ := hr e' he'
    obtain ⟨e₀, he₀, huid⟩ := h.held htaken hlive
    rw [he] at he₀
    cases he₀
    exact ⟨e', he', hkp ▸ huid⟩
  pending := h.pending

/-- The fields that `Watched` reads. -/
theorem Watched.congr (h : Watched s) {t : State} (hregistry : t.registry = s.registry)
    (hkp : t.kp = s.kp) (hlive : t.live = s.live) (hdeleting : t.deleting = s.deleting)
    (htaken : t.taken = s.taken) : Watched t := by
  obtain ⟨h₁, h₂, h₃, h₄⟩ := h
  constructor
  · rwa [htaken, hkp]
  · rwa [hregistry, hkp, hlive]
  · rwa [htaken, hkp, hlive, hregistry]
  · rwa [hdeleting, hlive]

theorem Watched.vif (h : Watched s) (vifs : Vifs) :
    Watched { s with registry := onVif s.kp vifs s.registry, seen := true } := by
  obtain ⟨e', he', huid, hcase⟩ := onVif_entry s.kp vifs s.registry
  refine ⟨h.taken, fun e he => ?_, fun _ _ => ⟨e', he', huid⟩, h.pending⟩
  have he : onVif s.kp vifs s.registry = some (.entry e) := he
  rw [he'] at he
  cases he
  refine ⟨Nat.le_of_eq huid, fun hrec _ => ?_⟩
  rcases hcase with ⟨e₀, he₀, huid₀, heq⟩ | ⟨_, heq⟩
  · rw [heq] at hrec
    exact (h.entry e₀ he₀).2 hrec huid₀
  · rw [heq] at hrec
    cases hrec

theorem Watched.notLive (h : Watched s) (deleting : Bool) :
    Watched { s with live := false, deleting := deleting } :=
  ⟨h.taken, fun e he => ⟨(h.entry e he).1, fun _ _ => rfl⟩, nofun, fun _ => rfl⟩

theorem Watched.deleted (h : Watched s) (hdel : s.deleting = true) :
    Watched { s with registry := onDeleted s.registry } := by
  have hlive := h.pending hdel
  refine h.keep (fun e' he' => ?_) fun _ hlive' => ?_
  · obtain ⟨e, he, rfl⟩ := onDeleted_entry he'
    exact ⟨e, he, rfl, fun _ => .inr hlive⟩
  · exact absurd (hlive.symm.trans hlive') Bool.false_ne_true

theorem Watched.recreate (h : Watched s) (podUid : String) (podStatic : Option Bool)
    (hdel : s.deleting = false) :
    Watched { s with kp := ⟨s.kp.uid + 1, podUid, podStatic⟩, live := true } := by
  refine ⟨fun u hu => Nat.le_succ_of_le (h.taken u hu), fun e he => ?_, fun hu _ => ?_,
    fun hd => ?_⟩
  · have hle := (h.entry e he).1
    refine ⟨Nat.le_succ_of_le hle, fun _ huid => ?_⟩
    have huid : e.kp.uid = s.kp.uid + 1 := huid
    omega
  · have hle : s.kp.uid + 1 ≤ s.kp.uid := h.taken _ hu
    omega
  · exact absurd (hdel.symm.trans hd) Bool.false_ne_true

theorem Watched.finalize (h : Watched s) :
    Watched { s with registry := onFinalize s.registry } := by
  refine h.keep (fun e' he' => ?_) fun htaken hlive => ?_
  · exact ⟨e', onFinalize_entry he', rfl, .inl⟩
  · obtain ⟨e, he, _⟩ := h.held htaken hlive
    exact ⟨e, by rw [he]; rfl⟩

theorem Watched.del (h : Watched s) {d : Del} {pc : DelPc} {r : Registry}
    (hstep : DelStep d s.registry pc r) : Watched { s with registry := r } := by
  have hself : r = s.registry → Watched { s with registry := r } := by
    rintro rfl
    exact h
  generalize hreg : s.registry = old at hstep
  cases hstep with
  | missing => exact hself hreg.symm
  | sentinel =>
    refine h.keep (fun _ h => by cases h) fun htaken hlive => ?_
    obtain ⟨e, he, _⟩ := h.held htaken hlive
    rw [hreg] at he
    cases he
  | read => exact hself hreg.symm
  | pass => exact hself hreg.symm
  | found => exact hself hreg.symm
  | disconnected => exact hself hreg.symm
  | late => exact hself hreg.symm
  | remove _ hrec =>
    refine h.keep (fun _ h => by cases h) fun htaken hlive => ?_
    obtain ⟨e, he, huid⟩ := h.held htaken hlive
    have hgone : s.live = false := by
      refine (h.entry e he).2 ?_ huid
      rw [hreg] at he
      cases he
      exact hrec
    exact absurd (hgone.symm.trans hlive) Bool.false_ne_true
  | mark =>
    refine h.keep (fun e' he' => ?_) fun _ _ => ⟨_, rfl⟩
    cases he'
    exact ⟨_, hreg, rfl, .inl⟩
  | stop => exact hself hreg.symm

theorem Watched.step (h : Watched s) (hstep : Stepped cfg s a s') : Watched s' := by
  cases hstep with
  | add pc => exact h.congr rfl rfl rfl rfl rfl
  | vif => exact h.vif _
  | testEntry => exact h.notLive true
  | testOther => exact h.notLive s.deleting
  | deleted hdel =>
    have hdeleted := h.deleted hdel
    exact ⟨hdeleted.taken, hdeleted.entry, hdeleted.held, nofun⟩
  | recreate _ hdel => exact h.recreate _ _ hdel
  | finalize => exact h.finalize
  | take he =>
    refine ⟨fun u hu => ?_, h.entry, fun hu _ => ⟨_, he, ?_⟩, h.pending⟩
    · cases hu
      exact (h.entry _ he).1
    · exact Option.some.inj hu
  | record he =>
    refine Watched.congr (h.keep (fun e' he' => ?_) fun _ _ => ⟨_, rfl⟩) rfl rfl rfl rfl rfl
    cases he'
    exact ⟨_, he, rfl, .inl⟩
  | arrive => exact h.congr rfl rfl rfl rfl rfl
  | del _ _ hdel => exact (h.del hdel).congr rfl rfl rfl rfl rfl

/-! ## The DELs -/

theorem Apart.congr (h : Apart cfg s) {t : State} (hregistry : t.registry = s.registry)
    (htaken : t.taken = s.taken) (hdels : t.dels = s.dels) : Apart cfg t := by
  obtain ⟨h₁, h₂, h₃⟩ := h
  constructor
  · rwa [hdels]
  · rwa [hdels, htaken]
  · rwa [hdels, htaken, hregistry]

theorem Apart.vif (h : Apart cfg s) (hwatched : Watched s) (hlive : s.live = true) (vifs : Vifs) :
    Apart cfg { s with registry := onVif s.kp vifs s.registry, seen := true } := by
  obtain ⟨e', he', huid, hcase⟩ := onVif_entry s.kp vifs s.registry
  refine ⟨h.ids, h.disconnecting, fun d hd e he hpast htaken => ?_⟩
  have he : onVif s.kp vifs s.registry = some (.entry e) := he
  have htaken : s.taken = some e.kp.uid := htaken
  rw [he'] at he
  cases he
  rcases hcase with ⟨e₀, he₀, _, heq⟩ | ⟨hnone, _⟩
  · have hkp : e'.kp = e₀.kp := by rw [heq]
    rw [hkp] at hpast htaken
    exact h.past d hd e₀ he₀ hpast htaken
  · -- the entry of a KuryrPort that was taken is there as long as the KuryrPort is
    rw [huid] at htaken
    obtain ⟨e₀, he₀, huid₀⟩ := hwatched.held htaken hlive
    exact hnone e₀ he₀ huid₀

theorem Apart.take (h : Apart cfg s) {e : Entry} (he : s.registry = some (.entry e))
    (hok : ∀ d ∈ s.dels, ¬ d.Past e.kp) :
    Apart cfg { s with add := .connecting, taken := some e.kp.uid } := by
  refine ⟨h.ids, fun d hd kp hpc => ?_, fun d hd e' he' hpast => ?_⟩
  · refine absurd ?_ (hok d hd)
    rw [Del.Past, hpc]
    trivial
  · have he' : s.registry = some (.entry e') := he'
    rw [he] at he'
    cases he'
    exact absurd hpast (hok d hd)

theorem Apart.arrive (h : Apart cfg s) {id : ContainerId} (hid : id ≠ cfg.containerid)
    (podUid : Option String) : Apart cfg { s with dels := s.dels ++ [⟨id, podUid, .locking⟩] } := by
  refine ⟨fun d hd => ?_, fun d hd kp hpc => ?_, fun d hd e he hpast => ?_⟩
  · rcases List.mem_append.mp hd with hd | hd
    · exact h.ids d hd
    · rw [List.mem_singleton.mp hd]
      exact hid
  · rcases List.mem_append.mp hd with hd | hd
    · exact h.disconnecting d hd kp hpc
    · rw [List.mem_singleton.mp hd] at hpc
      cases hpc
  · rcases List.mem_append.mp hd with hd | hd
    · exact h.past d hd e he hpast
    · rw [List.mem_singleton.mp hd] at hpast
      cases hpast

/-- A DEL moves to a place where it is as far from the VIFs as it was. -/
theorem Apart.move (h : Apart cfg s) {i : Nat} {d : Del} {pc : DelPc} (hd : s.dels[i]? = some d)
    (hdisconnecting : ∀ kp, pc = .disconnecting kp → s.taken ≠ some kp.uid)
    (hpast : ∀ e, s.registry = some (.entry e) → { d with pc := pc }.Past e.kp →
      s.taken ≠ some e.kp.uid) : Apart cfg (s.setDel i pc) := by
  refine ⟨fun d' hd' => ?_, fun d' hd' kp hpc => ?_, fun d' hd' e he hp => ?_⟩
  · rcases mem_setDel hd hd' with hd' | rfl
    · exact h.ids d' hd'
    · exact h.ids d (List.mem_of_getElem? hd)
  · rcases mem_setDel hd hd' with hd' | rfl
    · exact h.disconnecting d' hd' kp hpc
    · exact hdisconnecting kp hpc
  · rcases mem_setDel hd hd' with hd' | rfl
    · exact h.past d' hd' e he hp
    · exact hpast e he hp

theorem Apart.del (h : Apart cfg s) {i : Nat} {d : Del} {pc : DelPc} {r : Registry}
    (hd : s.dels[i]? = some d) (hstep : DelStep d s.registry pc r)
    (hok : d.pc = .checking → ∀ e, s.registry = some (.entry e) → s.taken = some e.kp.uid →
      Matches d.podUid e.kp → e.containerid = some cfg.containerid) :
    Apart cfg ((s.write r).setDel i pc) := by
  have hmem := List.mem_of_getElem? hd
  have hself : ∀ {q}, Apart cfg (s.setDel i q) → s.registry = r →
      Apart cfg ((s.write r).setDel i q) := by
    rintro q hq rfl
    rwa [State.write_self]
  have hwrite : ∀ {r'}, Kept s.registry r' → Apart cfg (s.write r') :=
    fun hkept => (h.keep hkept).congr rfl rfl rfl
  have hempty : Apart cfg (s.write none) := hwrite fun _ h => by cases h
  generalize hreg : s.registry = old at hstep
  cases hstep with
  | missing =>
    refine hself (h.move hd (fun _ h => by cases h) fun e he => ?_) hreg
    rw [hreg] at he
    cases he
  | sentinel => exact hempty.move hd (fun _ h => by cases h) fun _ _ hpast => hpast.elim
  | read => exact hself (h.move hd (fun _ h => by cases h) fun _ _ hpast => hpast.elim) hreg
  | @pass e hpc hid =>
    refine hself (h.move hd (fun _ h => by cases h) fun e' he' hpast htaken => ?_) hreg
    rw [hreg] at he'
    cases he'
    exact h.ids d hmem (hid _ (hok hpc e hreg htaken hpast)).symm
  | @found e hpc hmatches =>
    have hnot : s.taken ≠ some e.kp.uid :=
      h.past d hmem e hreg (by rw [Del.Past, hpc]; exact hmatches)
    refine hself (h.move hd (fun kp hkp => ?_) fun e' he' _ => ?_) hreg
    · cases hkp
      exact hnot
    · rw [hreg] at he'
      cases he'
      exact hnot
  | disconnected hpc =>
    refine hself (h.move hd (fun _ h => by cases h) fun e he _ => h.past d hmem e he ?_) hreg
    rw [Del.Past, hpc]
    trivial
  | late => exact hself (h.move hd (fun _ h => by cases h) fun _ _ hpast => hpast.elim) hreg
  | remove => exact hempty.move hd (fun _ h => by cases h) fun _ _ hpast => hpast.elim
  | @mark e =>
    refine (hwrite fun e' he' => ?_).move hd (fun _ h => by cases h) fun _ _ hpast => hpast.elim
    cases he'
    exact ⟨e, hreg, rfl⟩
  | stop hpc =>
    rcases hpc with rfl | rfl
    · exact hself (h.move hd (fun _ h => by cases h) fun _ _ hpast => hpast.elim) hreg
    · exact hself (h.move hd (fun _ h => by cases h) fun _ _ hpast => hpast.elim) hreg

theorem Apart.step (h : Apart cfg s) (hwatched : Watched s) (hok : WindowOk cfg s a)
    (harrive : ∀ podUid, a ≠ .delArrive cfg.containerid podUid) (hstep : Stepped cfg s a s') :
    Apart cfg s' := by
  cases hstep with
  | add pc => exact h.congr rfl rfl rfl
  | vif hlive => exact h.vif hwatched hlive _
  | testEntry => exact h.congr rfl rfl rfl
  | testOther => exact h.congr rfl rfl rfl
  | deleted =>
    refine Apart.congr (h.keep (r := onDeleted s.registry) fun e' he' => ?_) rfl rfl rfl
    obtain ⟨e, he, rfl⟩ := onDeleted_entry he'
    exact ⟨e, he, rfl⟩
  | recreate => exact h.congr rfl rfl rfl
  | finalize => exact h.keep fun e' he' => ⟨e', onFinalize_entry he', rfl⟩
  | take he => exact h.take he (hok _ he)
  | @record e he =>
    refine Apart.congr (h.keep fun e' he' => ?_) rfl rfl rfl
    cases he'
    exact ⟨e, he, rfl⟩
  | @arrive id podUid =>
    refine h.arrive (fun hid => harrive podUid ?_) podUid
    rw [hid]
  | @del _ i d _ _ hd hcheck hdel =>
    refine h.del hd hdel fun hpc => ?_
    rw [hcheck hpc] at hok
    exact hok d hd

/-- **A DEL of another container leaves the ADD's VIFs and their entry alone**, in every run
that hits neither window. -/
theorem strangers_unharmed (h : Reach (strangers cfg) (WindowOk cfg) s) : Unharmed s := by
  have hboth : Watched s ∧ Apart cfg s := by
    refine h.invariant (I := fun s => Watched s ∧ Apart cfg s) ?_ ?_
    · rintro s ⟨hdeleting, _, hdels, htaken, hentry⟩
      refine ⟨⟨?_, hentry, ?_, ?_⟩, ⟨?_, ?_, ?_⟩⟩
      · rw [htaken]
        nofun
      · rw [htaken]
        nofun
      · rw [hdeleting]
        nofun
      · rw [hdels]
        nofun
      · rw [hdels]
        nofun
      · rw [hdels]
        nofun
    · rintro s a s' ⟨hwatched, hapart⟩ hok ⟨harrive, hstep⟩
      have hstepped := stepped_of_step hstep
      exact ⟨hwatched.step hstepped, hapart.step hwatched hok harrive hstepped⟩
  exact hboth.2.unharmed

end

instance (d : Del) (kp : KuryrPort) : Decidable (d.Past kp) := by
  unfold Del.Past
  exact match d.pc with
    | .finding => inferInstanceAs (Decidable (Matches d.podUid kp))
    | .disconnecting _ | .finishing => isTrue trivial
    | .locking | .checking | .accepted | .ignored | .failed => isFalse id

instance (cfg : Setup) (s : State) (a : Action) : Decidable (WindowOk cfg s a) :=
  match a with
  | .delCheck i => inferInstanceAs (Decidable (∀ d ∈ s.dels[i]?, ∀ e, s.registry = some (.entry e) →
      s.taken = some e.kp.uid → Matches d.podUid e.kp → e.containerid = some cfg.containerid))
  | .addFind _ => inferInstanceAs (Decidable (∀ e, s.registry = some (.entry e) →
      ∀ d ∈ s.dels, ¬ d.Past e.kp))
  | .onVif _ | .deletedTest | .deletedLock | .recreate _ _ | .onFinalize | .addStart _
  | .addConnect _ | .addRecord | .addWait | .addGiveUp | .delArrive _ _ | .delLock _ | .delFind _ _
  | .delGiveUp _ | .delDisconnect _ _ | .delFinish _ => isTrue trivial

def strangerId : ContainerId := ⟨"c0", by decide⟩

/-- A step with DELs of other containers. -/
def stepApart (cfg : Setup) (s : State) (a : Action) : Option State :=
  match a with
  | .delArrive id podUid => if id = cfg.containerid then none else step cfg s (.delArrive id podUid)
  | a => step cfg s a

theorem stepApart_step {cfg : Setup} {s s' : State} {a : Action}
    (h : stepApart cfg s a = some s') : (strangers cfg).step s a s' := by
  unfold stepApart at h
  split at h
  · split at h
    · cases h
    · rename_i hid
      refine ⟨fun podUid ha => hid ?_, h⟩
      cases ha
      rfl
  · rename_i hne
    exact ⟨fun podUid ha => hne _ _ ha, h⟩

theorem unknownPod_init_strangers : (strangers webSetup).init unknownPod :=
  ⟨rfl, rfl, rfl, rfl, nofun⟩

/-- The ADD has recorded its id when the DEL compares. -/
theorem strangers_unharmed_recorded :
    ∃ s, Reach (strangers webSetup) (WindowOk webSetup) s ∧ s.taken = some 0 ∧
      s.dels.map Del.pc = [.ignored] ∧ Unharmed s := by
  obtain ⟨s, hs, htaken, hdels⟩ : ∃ s, execute (guarded (WindowOk webSetup) (stepApart webSetup))
      unknownPod [.onVif [("eth0", true)], .addStart (some "pod-uid"), .delArrive strangerId none,
        .delLock 0, .addFind none, .addRecord, .delCheck 0] = some s ∧ s.taken = some 0 ∧
      s.dels.map Del.pc = [.ignored] :=
    ⟨_, rfl, rfl, rfl⟩
  have hreach : Reach (strangers webSetup) (WindowOk webSetup) s :=
    Reach.execute (fun _ _ _ h => ⟨(of_guarded h).1, stepApart_step (of_guarded h).2⟩)
      (.init unknownPod_init_strangers) hs
  exact ⟨s, hreach, htaken, hdels, strangers_unharmed hreach⟩

/-- The DEL compares while the ADD connects. -/
theorem strangers_disconnected :
    ∃ s, Reach (strangers webSetup) (fun _ _ => True) s ∧ ¬ Unharmed s := by
  obtain ⟨s, hs, htaken, d, hd, kp, hpc, hkp⟩ : ∃ s, execute (stepApart webSetup) unknownPod
      [.onVif [("eth0", true)], .addStart (some "pod-uid"), .addFind none,
        .delArrive strangerId none, .delLock 0, .delCheck 0, .delFind 0 none] = some s ∧
      s.taken = some 0 ∧ ∃ d ∈ s.dels, ∃ kp, d.pc = .disconnecting kp ∧ kp.uid = 0 :=
    ⟨_, rfl, rfl, _, List.mem_singleton_self _, _, rfl, rfl⟩
  refine ⟨s, Reach.execute (fun _ _ _ h => ⟨trivial, stepApart_step h⟩)
    (.init unknownPod_init_strangers) hs, fun hunharmed => ?_⟩
  exact (hunharmed d hd).1 kp hpc (htaken.trans (congrArg some hkp.symm))

end Cni

end KuryrKubernetes
