import KuryrKubernetes.Handlers.PodCustody

/-!
# Pods that run keep their ports, and runs that disturb nobody

Two more facts about the runs of `PodLifecycle`.

- `InUse`: the ports in the status of a KuryrPort whose pod runs are out. It holds in careful
  runs (`ports_in_use`), where VIFs are recorded before they can be released, and released
  when the pod has ended.
- `Undisturbed`: nobody writes a KuryrPort that has no VIFs, or that is being deleted, while
  an event of it is not done with, and nothing raises after a patch of the status. This asks
  nothing of the order in which the handlers get their events, and makes careful runs of all of
  them (`careful_of_undisturbed`): every event that is not done with is the KuryrPort as it is
  (`Tidy`).
-/

namespace KuryrKubernetes

namespace PodLifecycle

open Dicts Transition

/-! ## Ports in use -/

/-- The ports in the status of a KuryrPort whose pod runs are out. -/
def InUse (s : State) : Prop :=
  ∀ k p, s.crd = some k → s.running k.podUid = true → p ∈ portsOf k.vifs → p ∈ s.out

section InUse

variable {s s' x : State} {u : String} {c : Call}

/-- The KuryrPort has the VIFs it had, if it is there at all. -/
def SameVifs (s s' : State) : Prop :=
  ∀ k', s'.crd = some k' → ∃ k, s.crd = some k ∧ k'.podUid = k.podUid ∧ k'.vifs = k.vifs

theorem SameVifs.of_crd (h : s'.crd = s.crd) : SameVifs s s' := fun k hk =>
  ⟨k, h ▸ hk, rfl, rfl⟩

theorem sameVifs_writeCrd {k k' : StoredKuryrPort} (hk : s.crd = some k) (hpod : k'.podUid = k.podUid)
    (hvifs : k'.vifs = k.vifs) : SameVifs s (s.writeCrd k') := fun k₁ hk₁ => by
  cases hk₁
  exact ⟨k, hk, hpod, hvifs⟩

theorem sameVifs_notify (s : State) : SameVifs s s.notify := by
  cases hk : s.crd with
  | none =>
    refine .of_crd ?_
    unfold State.notify
    rw [hk]
    exact hk
  | some k =>
    rw [notify_eq hk]
    exact sameVifs_writeCrd hk rfl rfl

theorem sameVifs_deleteCrd (s : State) : SameVifs s s.deleteCrd := by
  unfold State.deleteCrd
  split
  · exact .of_crd rfl
  · next k hk =>
    split
    · exact fun k' hk' => by cases hk'
    · split
      · exact .of_crd rfl
      · exact sameVifs_writeCrd hk rfl rfl

theorem sameVifs_freeCrd (s : State) : SameVifs s s.freeCrd := by
  unfold State.freeCrd
  split
  · exact .of_crd rfl
  · next k hk =>
    split
    · exact fun k' hk' => by cases hk'
    · split
      · exact sameVifs_writeCrd hk rfl rfl
      · exact .of_crd rfl

/-- A step that changes no VIFs and takes no port back. -/
theorem InUse.of_same (h : InUse s) (hf : Filed s) (hmove : PodsMove s s') (hvifs : SameVifs s s')
    (hout : ∀ p ∈ s.out, p ∈ s'.out) : InUse s' := by
  intro k' p hk' hrun hp
  obtain ⟨k, hk, hpod, heq⟩ := hvifs k' hk'
  refine hout p (h k p hk ?_ (heq ▸ hp))
  by_contra hstopped
  have hstopped := hmove.stopped _ (hf.crd_known k hk).2 (by simpa using hstopped)
  rw [hpod, hstopped] at hrun
  cases hrun

/-- No pod of the KuryrPort runs, or it has no VIFs. -/
theorem InUse.of_none
    (h : ∀ k, s.crd = some k → s.running k.podUid = false ∨ k.vifs = Dict.empty) : InUse s := by
  intro k p hk hrun hp
  rcases h k hk with hstopped | hempty
  · rw [hstopped] at hrun
    cases hrun
  · rw [hempty] at hp
    cases hp

theorem InUse.callStep {r : Request} (h : InUse s) (hS : Sound s) (hD : PodsDone s)
    (hc : (s.groups u).call = some c) (hok : CarefulRequest s c r) (hmove : PodsMove s s')
    (hs : callStep s u c r = some s') : InUse s' := by
  have hstage := hS.stage u c hc
  have hsame : SameVifs s s' → (∀ p ∈ s.out, p ∈ s'.out) → InUse s' :=
    h.of_same hS.filed hmove
  unfold PodLifecycle.callStep at hs
  cases r with
  | patch q applied =>
    dsimp only at hs
    split at hs
    · next vifs obtained hpc =>
      have hwork : c.pc ≠ .raised := by rw [hpc]; simp
      rw [Stage, hpc] at hstage
      obtain ⟨hempty, hall, hout⟩ := hstage
      obtain ⟨k, hk, -, hvifs, -⟩ := hS.crd hc hwork
      split at hs
      · rw [hk] at hs
        cases hs
        rw [finish_eq, patchVifs_eq hk]
        intro k' p hk' _ hp
        cases hk'
        exact hout p (hall ▸ hp)
      · next e hq =>
        rcases hok with hok | ⟨rfl, ⟨e', he', hclient⟩, -⟩
        · rw [hok] at hq
          cases hq
        · cases hq.symm.trans he'
          rw [if_pos hclient] at hs
          cases hs
          rw [finish_eq]
          refine .of_none fun k' hk' => .inr ?_
          cases hk.symm.trans hk'
          exact hvifs.trans hempty
    · cases hs
  | release ok =>
    dsimp only at hs
    split at hs
    · next cleanup vif rest hpc =>
      have hwork : c.pc ≠ .raised := by rw [hpc]; simp
      have hdone := hD u c hc (by rw [hpc]; rfl)
      obtain ⟨k, hk, -, -, hpod, -⟩ := hS.crd hc hwork
      rw [if_pos (show ok = true from hok)] at hs
      cases hs
      refine .of_none fun k' hk' => .inl ?_
      cases hk.symm.trans hk'
      rw [← hpod]
      exact hdone
    · cases hs
  | activate a =>
    dsimp only at hs
    split at hs
    · next hpc =>
      have hwork : c.pc ≠ .raised := by rw [hpc]; simp
      split at hs
      · cases hs
        exact hsame (.of_crd rfl) fun _ hp => hp
      · split at hs
        · cases hs
          rw [hS.patch_own hc hwork, finish_eq] at hsame ⊢
          have hout : s.notify.out = s.out := by
            unfold State.notify
            split <;> rfl
          exact hsame (sameVifs_notify s) fun _ hp => hout.symm ▸ hp
        · cases hs
      · obtain ⟨k, hk, -⟩ := hS.crd hc hwork
        rw [hk] at hs
        cases hs
    · cases hs
  | readPod =>
    dsimp only at hs
    split at hs
    · cases hs
      exact hsame (.of_crd rfl) fun _ hp => hp
    · repeat' split at hs
      all_goals
        cases hs
        exact hsame (.of_crd rfl) fun _ hp => hp
    · cases hs
  | orphan applied =>
    dsimp only at hs
    split at hs
    · cases hs
      cases applied with
      | true =>
        have hout : s.deleteCrd.out = s.out := by
          unfold State.deleteCrd
          repeat' split
          all_goals rfl
        exact hsame (sameVifs_deleteCrd s) fun _ hp => hout.symm ▸ hp
      | false => exact hsame (.of_crd rfl) fun _ hp => hp
    · cases hs
  | request q =>
    dsimp only at hs
    split at hs
    · split at hs <;> cases hs <;>
        exact hsame (.of_crd rfl) fun _ hp => List.mem_append_left _ hp
    · cases hs
  | freePod applied =>
    dsimp only at hs
    split at hs
    · cases hs
      have hedit : ∀ f, (s.editPod f).crd = s.crd ∧ (s.editPod f).out = s.out := fun f => by
        unfold State.editPod
        split <;> exact ⟨rfl, rfl⟩
      split at hsame
      · next hif =>
        rw [if_pos hif]
        exact hsame (.of_crd (hedit _).1) fun _ hp => (hedit _).2.symm ▸ hp
      · next hif =>
        rw [if_neg hif]
        exact hsame (.of_crd rfl) fun _ hp => hp
    · cases hs
  | freeCrd applied =>
    dsimp only at hs
    split at hs
    · cases hs
      cases applied with
      | true =>
        have hout : s.freeCrd.out = s.out := by
          unfold State.freeCrd
          repeat' split
          all_goals rfl
        exact hsame (sameVifs_freeCrd s) fun _ hp => hout.symm ▸ hp
      | false => exact hsame (.of_crd rfl) fun _ hp => hp
    · cases hs
  | raise | again | giveUp =>
    dsimp only at hs
    split at hs <;> cases hs
    exact hsame (.of_crd rfl) fun _ hp => hp

theorem InUse.vifEffect {v : VifCall} {uid : String} (h : InUse s) (hf : Filed s)
    (hpod : v.pod.uid ∈ s.podUids) (hx : VifEffect s v uid x) : InUse x := by
  have hmove := (hf.vifEffect hpod hx).2
  have hsame : SameVifs s x → x.out = s.out → InUse x := fun hvifs hout =>
    h.of_same hf hmove hvifs fun _ hp => hout.symm ▸ hp
  cases hx with
  | none => exact h
  | pod => exact hsame (.of_crd rfl) rfl
  | touch =>
    refine hsame (sameVifs_notify s) ?_
    unfold State.notify
    split <;> rfl
  | delete =>
    refine hsame (sameVifs_deleteCrd s) ?_
    unfold State.deleteCrd
    repeat' split
    all_goals rfl
  | create =>
    refine .of_none fun k hk => .inr ?_
    cases hk
    rfl

theorem InUse.step {a : Act} (h : InUse s) (hS : Sound s) (hD : PodsDone s) (hok : Careful s a)
    (hs : PodLifecycle.step s a = some s') : InUse s' := by
  have hmove := (hS.filed.step hs).2
  have hsame : SameVifs s s' → s'.out = s.out → InUse s' := fun hvifs hout =>
    h.of_same hS.filed hmove hvifs fun _ hp => hout.symm ▸ hp
  cases a with
  | createPod uid hostNetwork =>
    simp only [PodLifecycle.step] at hs
    split at hs <;> cases hs
    exact hsame (.of_crd rfl) rfl
  | schedulePod | completePod | deletePod =>
    cases hs
    unfold State.editPod at hsame ⊢
    cases hpod : s.pod with
    | none => exact h
    | some pod =>
      rw [hpod] at hsame
      exact hsame (.of_crd rfl) rfl
  | losePod =>
    cases hs
    exact hsame (.of_crd rfl) rfl
  | deleteCrd =>
    cases hs
    refine hsame (sameVifs_deleteCrd s) ?_
    unfold State.deleteCrd
    repeat' split
    all_goals rfl
  | touchCrd =>
    cases hs
    refine hsame (sameVifs_notify s) ?_
    unfold State.notify
    split <;> rfl
  | vifEvent pod =>
    simp only [PodLifecycle.step] at hs
    split at hs
    · obtain ⟨c, -, rfl⟩ := Option.map_eq_some_iff.mp hs
      exact hsame (.of_crd rfl) rfl
    · cases hs
  | vifStep i uid =>
    obtain ⟨v, hv, hs⟩ := Option.bind_eq_some_iff.mp hs
    obtain ⟨x, calls, hx, rfl, -⟩ := vifStep_spec hs
    exact h.vifEffect (x := x) hS.filed (hS.filed.vif_known v (List.mem_of_getElem? hv)) hx
  | vifEnd i =>
    simp only [PodLifecycle.step] at hs
    split at hs <;> cases hs
    exact hsame (.of_crd rfl) rfl
  | take u n =>
    obtain ⟨-, k, rest, -, rfl⟩ := take_eq hs
    exact hsame (.of_crd rfl) rfl
  | call u r =>
    obtain ⟨c, hc, hs⟩ := Option.bind_eq_some_iff.mp hs
    exact h.callStep hS hD hc (hok c hc) hmove hs

theorem inUse_of_reach (h : Reach system Careful s) : InUse s := by
  refine (h.invariant (I := fun s => Sound s ∧ PodsDone s ∧ InUse s) (fun s hs => ?_) ?_).2.2
  · rw [show s = State.empty from hs]
    exact ⟨sound_empty, fun u c hc => (by cases hc), fun k p hk => by cases hk⟩
  · exact fun s a s' hI hok hs =>
      ⟨hI.1.step hok hs, hI.2.1.step hI.1.filed hs, hI.2.2.step hI.1 hI.2.1 hok hs⟩

/-- **A pod that runs keeps its ports**, in a run of careful steps: none of the ports in the
status of its KuryrPort has been handed back. -/
theorem ports_in_use (h : Reach system Careful s) :
    ∀ k p, s.crd = some k → s.running k.podUid = true → p ∈ portsOf k.vifs → p ∈ s.out :=
  inUse_of_reach h

end InUse

theorem ports_in_use_recorded :
    (after (binding ++ [.call "crd-1" (.patch oneVif false)])).running "pod-1" = true ∧
      "port-1" ∈ (after (binding ++ [.call "crd-1" (.patch oneVif false)])).out := by
  have hreach : Reach system Careful (after (binding ++ [.call "crd-1" (.patch oneVif false)])) :=
    careful_binding.step (a := .call "crd-1" (.patch oneVif false))
      (fun c hc => by cases hc; exact .inl rfl) rfl
  exact ⟨rfl, ports_in_use hreach _ "port-1" rfl rfl (by decide)⟩

/-! ## Undisturbed runs -/

/-- No event of the KuryrPort is waiting or being handled. -/
def State.Idle (s : State) : Prop := ∀ k, s.crd = some k → ∀ e, ¬ s.Pending k.uid e

/-- The KuryrPort may be written: it is idle, or it has its VIFs and is not being deleted. -/
def State.Calm (s : State) : Prop :=
  ∀ k, s.crd = some k → (k.vifs ≠ Dict.empty ∧ k.deleting = false) ∨ ∀ e, ¬ s.Pending k.uid e

def UndisturbedRequest (c : Call) : Request → Prop
  | .request q => ∀ e obtained, requestVifs q c.crd.podUid = (.error e, obtained) → obtained = []
  | .patch q applied => (q.patch = .ok () ∧ q.event = .ok ()) ∨
      (applied = false ∧ (∃ e, q.patch = .error e ∧ e.isK8sClient = true) ∧
        ∀ i, q.release i = .ok ())
  | .release ok => ok = true
  | .raise => ∀ vifs obtained, c.pc ≠ .patching vifs obtained
  | _ => True

/-- Nobody writes a KuryrPort that has no VIFs, or is being deleted, while an event of it is not
done with, and nobody deletes one then. Requests are careful, and the event that is added once the
status has been patched does not fail: with an exception there, the call would be retried for the
KuryrPort as it was. -/
def Undisturbed (s : State) : Act → Prop
  | .deleteCrd => s.Idle
  | .touchCrd => s.Calm
  | .vifStep i _ => ∀ c, s.vifCalls[i]? = some c →
      (c.pc = .delete → s.Idle) ∧ (c.pc = .annotate → s.Calm)
  | .call u r => ∀ c, (s.groups u).call = some c → UndisturbedRequest c r
  | _ => True

def Group.count (g : Group) : Nat := g.queue.length + g.call.toList.length

/-- Every event that is not done with is the KuryrPort as it is. There is at most one of them
until the VIFs are recorded, and when it is being deleted. -/
structure Tidy (s : State) : Prop where
  same : ∀ u e, s.Pending u e → s.crd = some e
  alone : ∀ k, s.crd = some k → k.vifs = Dict.empty ∨ k.deleting = true →
    (s.groups k.uid).count ≤ 1
  active : ∀ u c, (s.groups u).call = some c → c.pc = .activating →
    c.crd.vifs ≠ Dict.empty ∧ c.crd.deleting = false

section Tidy

variable {s s' x : State} {u v uid : String} {c : Call} {k k' e : StoredKuryrPort}

theorem queue_setCall (s : State) (u v : String) (call : Option Call) :
    ((s.setCall u call).groups v).queue = (s.groups v).queue := by
  unfold State.setCall
  by_cases hv : v = u
  · subst hv
    simp
  · simp [hv]

theorem queue_writeCrd (s : State) (k : StoredKuryrPort) (v : String) :
    ((s.writeCrd k).groups v).queue
      = if v = k.uid then (s.groups v).queue ++ [k] else (s.groups v).queue := by
  unfold State.writeCrd State.notify
  by_cases hv : v = k.uid
  · subst hv
    simp
  · simp [hv]

theorem Tidy.current (h : Tidy s) (he : s.Pending u e) : s.Current e :=
  ⟨e, h.same u e he, rfl, rfl⟩

theorem Tidy.of_store (h : Tidy s) (hcrd : s'.crd = s.crd) (hgroups : s'.groups = s.groups) :
    Tidy s' where
  same u e he := by
    unfold State.Pending at he
    rw [hgroups] at he
    exact hcrd ▸ h.same u e he
  alone k hk := by
    rw [hgroups]
    exact h.alone k (hcrd ▸ hk)
  active u c hc := h.active u c (hgroups ▸ hc)

theorem count_eq_zero (h : ∀ e, ¬ s.Pending u e) : (s.groups u).count = 0 := by
  have hqueue : (s.groups u).queue = [] :=
    List.eq_nil_iff_forall_not_mem.mpr fun e he => h e (.inl he)
  have hcall : (s.groups u).call = none := by
    cases hc : (s.groups u).call with
    | none => rfl
    | some c => exact absurd (.inr ⟨c, hc, rfl⟩) (h c.crd)
  simp [Group.count, hqueue, hcall]

/-- A write of the KuryrPort, when the events not done with are what it writes. -/
theorem Tidy.write (h : Tidy s) (hpending : ∀ u e, s.Pending u e → e = k')
    (hcount : k'.vifs = Dict.empty ∨ k'.deleting = true → (s.groups k'.uid).count = 0) :
    Tidy (s.writeCrd k') where
  same u e he := by
    rcases pending_writeCrd he with he | ⟨-, rfl⟩
    · rw [hpending u e he]
      rfl
    · rfl
  alone k₁ hk₁ hnot := by
    cases hk₁
    have hzero := hcount hnot
    unfold Group.count at hzero ⊢
    rw [queue_writeCrd, writeCrd_call, if_pos rfl, List.length_append, List.length_singleton]
    omega
  active u c hc := by
    rw [writeCrd_call] at hc
    exact h.active u c hc

/-- A write that changes nothing the handlers look at. -/
theorem Tidy.notify (h : Tidy s) (hcalm : s.Calm) : Tidy s.notify := by
  cases hk : s.crd with
  | none =>
    refine h.of_store ?_ ?_
    all_goals
      unfold State.notify
      rw [hk]
    exact hk
  | some k =>
    rw [notify_eq hk]
    refine h.write (fun u e he => Option.some.inj ((h.same u e he).symm.trans hk)) fun hnot => ?_
    rcases hcalm k hk with ⟨hvifs, hdel⟩ | hidle
    · rcases hnot with hempty | hdel'
      · exact absurd hempty hvifs
      · cases hdel.symm.trans hdel'
    · exact count_eq_zero hidle

/-- Nothing is pending where there is no KuryrPort. -/
theorem Tidy.of_gone (hpending : ∀ u e, ¬ s.Pending u e) (hcrd : s.crd = none) : Tidy s where
  same u e he := absurd he (hpending u e)
  alone k hk := by cases hcrd.symm.trans hk
  active u c hc := absurd (.inr ⟨c, hc, rfl⟩) (hpending u c.crd)

/-- The events are those of the KuryrPort. -/
theorem Tidy.pending_uid (h : Tidy s) (hf : Filed s) (hk : s.crd = some k)
    (he : s.Pending u e) : u = k.uid := by
  cases hk.symm.trans (h.same u e he)
  exact (hf.filed u _ he).1.symm

theorem Tidy.deleteCrd (h : Tidy s) (hf : Filed s) (hidle : s.Idle) : Tidy s.deleteCrd := by
  unfold State.deleteCrd
  cases hk : s.crd with
  | none => exact h
  | some k =>
    have hnone : ∀ u e, ¬ s.Pending u e := fun u e he =>
      hidle k hk e (h.pending_uid hf hk he ▸ he)
    dsimp only
    split
    · exact .of_gone hnone rfl
    · split
      · exact h
      · exact h.write (fun u e he => absurd he (hnone u e)) fun _ => count_eq_zero (hidle k hk)

/-- A call goes on with its event, or ends. -/
theorem Tidy.setCall {call : Option Call} (h : Tidy s) (hc : (s.groups u).call = some c)
    (hcall : ∀ c', call = some c' → c'.crd = c.crd ∧ (c'.pc = .activating →
      c'.crd.vifs ≠ Dict.empty ∧ c'.crd.deleting = false)) : Tidy (s.setCall u call) where
  same v e he := by
    rcases pending_setCall he with he | ⟨rfl, c', hc', rfl⟩
    · exact h.same v e he
    · rw [(hcall c' hc').1]
      exact h.same v c.crd (.inr ⟨c, hc, rfl⟩)
  alone k hk hnot := by
    have hone := h.alone k hk hnot
    have hlen : call.toList.length ≤ 1 := by cases call <;> simp
    unfold Group.count at hone ⊢
    rw [queue_setCall, setCall_call]
    split
    · next hv =>
      rw [hv, hc] at hone
      simp only [Option.toList_some, List.length_singleton] at hone
      rw [hv]
      omega
    · exact hone
  active v c' hc' := by
    rw [setCall_call] at hc'
    split at hc'
    · exact (hcall c' hc').2
    · exact h.active v c' hc'

/-- The call is the only event of a KuryrPort without VIFs, and of one being deleted. -/
theorem Tidy.queue_eq_nil (h : Tidy s) (hf : Filed s) (hc : (s.groups u).call = some c)
    (hnot : c.crd.vifs = Dict.empty ∨ c.crd.deleting = true) : (s.groups u).queue = [] := by
  have hpending : s.Pending u c.crd := .inr ⟨c, hc, rfl⟩
  have hk := h.same u _ hpending
  have hone := h.alone _ hk hnot
  rw [(hf.filed u _ hpending).1, Group.count, hc] at hone
  simp only [Option.toList_some, List.length_singleton] at hone
  exact List.length_eq_zero_iff.mp (by omega)

end Tidy

section TidySteps

variable {s s' : State} {u uid : String} {c : Call}

theorem UndisturbedRequest.careful {r : Request} (hs : Tidy s) (hc : (s.groups u).call = some c)
    (h : UndisturbedRequest c r) : CarefulRequest s c r := by
  cases r with
  | patch q applied => exact h.imp_left And.left
  | again => exact hs.current (.inr ⟨c, hc, rfl⟩)
  | request | release | raise => exact h
  | readPod | orphan | activate | freePod | freeCrd | giveUp => trivial

/-- **Undisturbed runs are careful.** -/
theorem Tidy.careful {a : Act} (h : Tidy s) (hok : Undisturbed s a) : Careful s a := by
  cases a with
  | take u n =>
    intro k rest hqueue
    exact h.current (u := u) (.inl (List.mem_of_mem_drop (hqueue ▸ List.mem_cons_self)))
  | call u r => exact fun c hc => (hok c hc).careful h hc
  | createPod | schedulePod | completePod | deletePod | losePod | deleteCrd | touchCrd | vifEvent
  | vifStep | vifEnd => trivial

theorem start_active (k : StoredKuryrPort) (h : (Call.start k).pc = .activating) :
    k.vifs ≠ Dict.empty ∧ k.deleting = false := by
  unfold Call.start at h
  split at h
  · cases h
  · next hdel =>
    split at h
    · cases h
    · next hvifs =>
      refine ⟨fun hempty => hvifs ?_, by simpa using hdel⟩
      rw [hempty]
      rfl

/-- When the last event is done with, the KuryrPort has none but that of the write. -/
theorem Tidy.write_end {k k' : StoredKuryrPort} {call : Option Call} (h : Tidy s) (hf : Filed s)
    (hc : (s.groups u).call = some c) (hk : s.crd = some k) (hqueue : (s.groups u).queue = [])
    (huid : k'.uid = u) (hcall : call = none) : Tidy ((s.writeCrd k').setCall u call) := by
  subst hcall
  have hu : u = k.uid := h.pending_uid hf hk (.inr ⟨c, hc, rfl⟩)
  have hgroup : ∀ v e, ((s.writeCrd k').setCall u none).Pending v e → e = k' := by
    rintro v e (he | ⟨c', hc', rfl⟩)
    · rw [queue_setCall, queue_writeCrd] at he
      split at he
      · next hv =>
        rw [hv, huid, hqueue] at he
        exact List.mem_singleton.mp he
      · next hv =>
        exact absurd (h.pending_uid hf hk (.inl he)) fun heq => hv (heq.trans (huid.trans hu).symm)
    · rw [setCall_call] at hc'
      split at hc'
      · cases hc'
      · next hv =>
        rw [writeCrd_call] at hc'
        exact absurd (h.pending_uid hf hk (.inr ⟨c', hc', rfl⟩)) fun heq => hv (heq.trans hu.symm)
  refine ⟨fun v e he => ?_, fun k₁ hk₁ _ => ?_, fun v c' hc' hpc => ?_⟩
  · rw [hgroup v e he]
    rfl
  · cases hk₁
    rw [Group.count, queue_setCall, queue_writeCrd, setCall_call, huid, if_pos rfl, if_pos rfl,
      hqueue]
    simp
  · rw [setCall_call] at hc'
    split at hc'
    · cases hc'
    · rw [writeCrd_call] at hc'
      exact h.active v c' hc' hpc

/-- Nothing is left of a KuryrPort whose last event ends with it. -/
theorem Tidy.gone_end (h : Tidy s) (hf : Filed s) (hc : (s.groups u).call = some c)
    (hqueue : (s.groups u).queue = []) :
    Tidy (({ s with crd := none } : State).setCall u none) := by
  have hk := h.same u c.crd (.inr ⟨c, hc, rfl⟩)
  have hu : u = c.crd.uid := h.pending_uid hf hk (.inr ⟨c, hc, rfl⟩)
  refine .of_gone ?_ rfl
  rintro v e (he | ⟨c', hc', rfl⟩)
  · rw [queue_setCall] at he
    rw [(h.pending_uid hf hk (.inl he)).trans hu.symm, hqueue] at he
    cases he
  · rw [setCall_call] at hc'
    split at hc'
    · cases hc'
    · next hv => exact hv ((h.pending_uid hf hk (.inr ⟨c', hc', rfl⟩)).trans hu.symm)

theorem Tidy.finish {raises : Bool} (h : Tidy s) (hc : (s.groups u).call = some c) :
    Tidy (s.finish u c raises) := by
  rw [finish_eq]
  refine h.setCall hc fun c' hc' => ?_
  split at hc' <;> cases hc'
  exact ⟨rfl, fun hpc => by cases hpc⟩

theorem Tidy.withOut {out : List PortId} (h : Tidy s) : Tidy { s with out := out } :=
  h.of_store rfl rfl

theorem Tidy.editPod {f : StoredPod → StoredPod} (h : Tidy s) : Tidy (s.editPod f) := by
  unfold State.editPod
  split
  · exact h.of_store rfl rfl
  · exact h

theorem Tidy.callStep {r : Request} (h : Tidy s) (hS : Sound s)
    (hc : (s.groups u).call = some c) (hok : UndisturbedRequest c r)
    (hs : callStep s u c r = some s') : Tidy s' := by
  have hf := hS.filed
  have hpending : s.Pending u c.crd := .inr ⟨c, hc, rfl⟩
  have hk := h.same u _ hpending
  have hstage := hS.stage u c hc
  have hgo : ∀ (out : List PortId) (pc : Pc), pc ≠ .activating →
      Tidy ({ s with out := out }.setPc u c pc) := fun out pc hpc => by
    have hout : Tidy { s with out := out } := h.withOut
    refine hout.setCall hc fun c' hc' => ?_
    cases hc'
    exact ⟨rfl, fun heq => absurd heq hpc⟩
  have hstop : ∀ (out : List PortId), Tidy ({ s with out := out }.setCall u none) := fun out => by
    have hout : Tidy { s with out := out } := h.withOut
    exact hout.setCall hc fun c' hc' => by cases hc'
  unfold PodLifecycle.callStep at hs
  cases r with
  | readPod =>
    dsimp only at hs
    split at hs
    · cases hs
      exact hgo s.out _ (by split <;> simp)
    · split at hs
      · cases hs
        exact hstop s.out
      · split at hs
        · cases hs
          exact hgo s.out _ (by simp)
        · split at hs <;> cases hs <;> exact hgo s.out _ (by simp)
    · cases hs
  | orphan applied =>
    dsimp only at hs
    split at hs
    · next hpc =>
      rw [Stage, hpc] at hstage
      have hqueue := h.queue_eq_nil hf hc (.inl hstage)
      cases hs
      cases applied with
      | true =>
        rw [if_pos rfl]
        unfold State.deleteCrd
        rw [hk]
        dsimp only
        split
        · exact h.gone_end hf hc hqueue
        · split
          · exact hstop s.out
          · exact h.write_end hf hc hk hqueue (hf.filed u _ hpending).1 rfl
      | false => exact hstop s.out
    · cases hs
  | request q =>
    dsimp only at hs
    split at hs
    · split at hs <;> cases hs
      · exact hgo _ _ (by simp)
      · exact hstop _
      · exact hgo _ _ (by simp)
    · cases hs
  | patch q applied =>
    dsimp only at hs
    split at hs
    · next vifs obtained hpc =>
      rw [Stage, hpc] at hstage
      have hqueue := h.queue_eq_nil hf hc (.inl hstage.1)
      rcases hok with ⟨hpatch, hevent⟩ | ⟨rfl, ⟨e, hpatch, hclient⟩, -⟩
      · rw [hpatch, hk, hevent] at hs
        cases hs
        rw [finish_eq, patchVifs_eq hk]
        exact h.write_end hf hc hk hqueue (hf.filed u _ hpending).1 rfl
      · rw [hpatch] at hs
        dsimp only at hs
        rw [if_pos hclient] at hs
        cases hs
        exact Tidy.finish h.withOut hc
    · cases hs
  | activate a =>
    dsimp only at hs
    split at hs
    · next hpc =>
      have hwork : c.pc ≠ .raised := by rw [hpc]; simp
      obtain ⟨hvifs, hdel⟩ := h.active u c hc hpc
      split at hs
      · cases hs
        exact h.finish hc
      · split at hs
        · cases hs
          rw [hS.patch_own hc hwork]
          refine Tidy.finish (h.notify fun k hk' => .inl ?_) ?_
          · cases hk.symm.trans hk'
            exact ⟨hvifs, hdel⟩
          · rw [(notify_crdStep s).call]
            exact hc
        · cases hs
      · rw [hk] at hs
        cases hs
    · cases hs
  | release ok =>
    dsimp only at hs
    split at hs
    · split at hs
      · cases hs
        exact hgo _ _ (by simp)
      · split at hs <;> cases hs
        exact hgo s.out _ (by simp)
    · cases hs
  | freePod applied =>
    dsimp only at hs
    split at hs
    · cases hs
      have hgo' : ∀ x : State, Tidy x → (x.groups u).call = some c →
          Tidy (x.setPc u c .crdFinalizer) := fun x hx hcx => hx.setCall hcx fun c' hc' => by
        cases hc'
        exact ⟨rfl, fun hpc => by cases hpc⟩
      split
      · exact hgo' _ h.editPod (by rw [editPod_groups]; exact hc)
      · exact hgo' _ h hc
    · cases hs
  | freeCrd applied =>
    dsimp only at hs
    split at hs
    · next hpc =>
      rw [Stage, hpc] at hstage
      have hqueue := h.queue_eq_nil hf hc (.inr hstage.1)
      cases hs
      cases applied with
      | true =>
        rw [if_pos rfl]
        unfold State.freeCrd
        rw [hk]
        dsimp only
        rw [if_pos hstage.1]
        exact h.gone_end hf hc hqueue
      | false => exact hstop s.out
    · cases hs
  | raise =>
    dsimp only at hs
    split at hs <;> cases hs
    exact hgo s.out _ (by simp)
  | again =>
    dsimp only at hs
    split at hs
    · cases hs
      refine h.setCall hc fun c' hc' => ?_
      cases hc'
      exact ⟨rfl, start_active c.crd⟩
    · cases hs
  | giveUp =>
    dsimp only at hs
    split at hs <;> cases hs
    exact hstop s.out

theorem Tidy.step {a : Act} (h : Tidy s) (hS : Sound s) (hok : Undisturbed s a)
    (hs : PodLifecycle.step s a = some s') : Tidy s' := by
  have hf := hS.filed
  cases a with
  | createPod uid hostNetwork =>
    simp only [PodLifecycle.step] at hs
    split at hs <;> cases hs
    exact h.of_store rfl rfl
  | schedulePod | completePod | deletePod =>
    cases hs
    exact h.editPod
  | losePod =>
    cases hs
    exact h.of_store rfl rfl
  | deleteCrd =>
    cases hs
    exact h.deleteCrd hf hok
  | touchCrd =>
    cases hs
    exact h.notify hok
  | vifEvent pod =>
    simp only [PodLifecycle.step] at hs
    split at hs
    · obtain ⟨c, -, rfl⟩ := Option.map_eq_some_iff.mp hs
      exact h.of_store rfl rfl
    · cases hs
  | vifStep i uid =>
    obtain ⟨v, hv, hs⟩ := Option.bind_eq_some_iff.mp hs
    obtain ⟨x, calls, hx, rfl, -⟩ := vifStep_spec hs
    obtain ⟨hdelete, htouch⟩ := hok v hv
    suffices hx' : Tidy x from hx'.of_store rfl rfl
    cases hx with
    | none => exact h
    | pod => exact h.of_store rfl rfl
    | touch hpc => exact h.notify (htouch hpc)
    | delete hpc => exact h.deleteCrd hf (hdelete hpc)
    | create hcrd =>
      have hnone : ∀ u e, ¬ s.Pending u e := fun u e he => by
        cases hcrd.symm.trans (h.same u e he)
      have hnone' : Tidy { s with crdUids := s.crdUids ++ [uid] } := h.of_store rfl rfl
      exact hnone'.write (fun u e he => absurd he (hnone u e)) fun _ => count_eq_zero (hnone _)
  | vifEnd i =>
    simp only [PodLifecycle.step] at hs
    split at hs <;> cases hs
    exact h.of_store rfl rfl
  | take u n =>
    have hpending := fun v e (he : s'.Pending v e) => pending_take hs he
    obtain ⟨hidle, k, rest, hqueue, rfl⟩ := take_eq hs
    refine ⟨fun v e he => h.same v e (hpending v e he), fun k₁ hk₁ hnot => ?_, fun v c hc hpc => ?_⟩
    · have hone := h.alone k₁ hk₁ hnot
      dsimp only
      by_cases hu : k₁.uid = u
      · have hlen : (k :: rest).length ≤ (s.groups u).queue.length :=
          hqueue ▸ (List.drop_sublist n _).length_le
        rw [hu, Group.count, hidle] at hone
        rw [hu, Function.update_self, Group.count]
        simp only [Option.toList_none, Option.toList_some, List.length_nil,
          List.length_cons] at hone hlen ⊢
        omega
      · rw [Function.update_of_ne hu]
        exact hone
    · dsimp only at hc
      by_cases hv : v = u
      · rw [hv, Function.update_self] at hc
        cases hc
        exact start_active k hpc
      · rw [Function.update_of_ne hv] at hc
        exact h.active v c hc hpc
  | call u r =>
    obtain ⟨c, hc, hs⟩ := Option.bind_eq_some_iff.mp hs
    exact h.callStep hS hc (hok c hc) hs

theorem tidy_empty : Tidy State.empty := by
  refine .of_gone ?_ rfl
  rintro u e (he | ⟨c, hc, -⟩)
  · cases he
  · cases hc

theorem soundTidy_empty {s : State} (hs : system.init s) : Sound s ∧ Tidy s := by
  rw [show s = State.empty from hs]
  exact ⟨sound_empty, tidy_empty⟩

theorem soundTidy_step {a : Act} (hI : Sound s ∧ Tidy s) (hok : Undisturbed s a)
    (hs : system.step s a s') : Sound s' ∧ Tidy s' :=
  ⟨hI.1.step (hI.2.careful hok) hs, hI.2.step hI.1 hok hs⟩

theorem careful_of_undisturbed (h : Reach system Undisturbed s) : Reach system Careful s :=
  h.regard (fun _ => soundTidy_empty) (fun _ _ _ => soundTidy_step) fun _ _ _ hI hok _ =>
    hI.2.careful hok

theorem tidy_of_undisturbed (h : Reach system Undisturbed s) : Tidy s :=
  (h.invariant (fun _ => soundTidy_empty) fun _ _ _ => soundTidy_step).2

/-- **Undisturbed, the handlers lose no port and take none from a pod that runs**, and no event
that waits or is handled is out of date. -/
theorem ports_undisturbed (h : Reach system Undisturbed s) :
    (∀ u e, s.Pending u e → s.crd = some e) ∧ (∀ p ∈ s.out, s.InHand p ∨ s.Recorded p) ∧
      ∀ k p, s.crd = some k → s.running k.podUid = true → p ∈ portsOf k.vifs → p ∈ s.out :=
  ⟨(tidy_of_undisturbed h).same, kept_abs_iff.mp (kept_of_reach (careful_of_undisturbed h)),
    inUse_of_reach (careful_of_undisturbed h)⟩

end TidySteps

theorem undisturbed_binding : Reach system Undisturbed (after binding) := by
  refine reach_after ⟨trivial, _, rfl, trivial, _, rfl, trivial, _, rfl, fun c hc => ?_, _, rfl,
    fun c hc => ?_, _, rfl, fun c hc => ?_, _, rfl, trivial, _, rfl, fun c hc => ?_, _, rfl,
    fun c hc => ?_, _, rfl, trivial⟩
  · cases hc
    exact ⟨fun h => (by cases h), fun h => (by cases h)⟩
  · cases hc
    exact ⟨fun h => (by cases h), fun h => (by cases h)⟩
  · cases hc
    exact ⟨fun h => (by cases h), fun h => (by cases h)⟩
  · trivial
  · intro e obtained hreq
    cases hc
    cases hreq

theorem ports_undisturbed_recorded :
    (after (binding ++ [.call "crd-1" (.patch oneVif false)])).out = ["port-1"] ∧
      (∀ u e, (after (binding ++ [.call "crd-1" (.patch oneVif false)])).Pending u e →
        (after (binding ++ [.call "crd-1" (.patch oneVif false)])).crd = some e) ∧
      (∀ p ∈ (after (binding ++ [.call "crd-1" (.patch oneVif false)])).out,
        (after (binding ++ [.call "crd-1" (.patch oneVif false)])).InHand p ∨
          (after (binding ++ [.call "crd-1" (.patch oneVif false)])).Recorded p) :=
  have h := ports_undisturbed (undisturbed_binding.step (a := .call "crd-1" (.patch oneVif false))
    (fun c hc => by cases hc; exact .inl ⟨rfl, rfl⟩) rfl)
  ⟨rfl, h.1, h.2.1⟩

end PodLifecycle

end KuryrKubernetes
