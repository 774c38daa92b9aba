import KuryrKubernetes.Handlers.PodLifecycle
import KuryrKubernetes.Lib.Custody

/-!
# No port of a pod is lost

The two handlers of `PodLifecycle` keep custody of the ports they obtain: a port that is out is
in the hands of a call of `get_vifs`, or a KuryrPort has it in its status. They do so in the
runs whose steps are `Careful`.

- `Current`: the KuryrPort is there, with the VIFs of the event. `Async` hands an event to the
  handler without looking whether it is; an event of a KuryrPort that has got its VIFs since is
  handled as if it had none, and its VIFs are lost with it (`stale_event_loses_port`).
- `Sound`: the invariant. Only one call is at work at a time.
- `abs`: the state as a ledger of custody; each step is a few of its allowed moves
  (`Sound.simulates`).
-/

namespace KuryrKubernetes

namespace PodLifecycle

open Dicts Transition

/-! ## Careful steps -/

/-- The KuryrPort of the event is there, and has the VIFs of the event. -/
def State.Current (s : State) (e : StoredKuryrPort) : Prop :=
  ∃ k, s.crd = some k ∧ k.uid = e.uid ∧ k.vifs = e.vifs

/-- What is asked of the request of a call: whoever raises has nothing in hand, a patch that
fails has no effect, and VIFs can be released. -/
def CarefulRequest (s : State) (c : Call) : Request → Prop
  | .request q => ∀ e obtained, requestVifs q c.crd.podUid = (.error e, obtained) → obtained = []
  | .patch q applied => q.patch = .ok () ∨
      (applied = false ∧ (∃ e, q.patch = .error e ∧ e.isK8sClient = true) ∧
        ∀ i, q.release i = .ok ())
  | .release ok => ok = true
  | .raise => ∀ vifs obtained, c.pc ≠ .patching vifs obtained
  | .again => s.Current c.crd
  | _ => True

/-- Events are handled while they are current, and requests are careful. -/
def Careful (s : State) : Act → Prop
  | .take u n => ∀ k rest, (s.groups u).queue.drop n = k :: rest → s.Current k
  | .call u r => ∀ c, (s.groups u).call = some c → CarefulRequest s c r
  | _ => True

/-! ## The invariant -/

/-- What a call knows. -/
def Stage (out : List PortId) (c : Call) : Prop :=
  match c.pc with
  | .getVifs | .orphaned | .requesting => c.crd.vifs = Dict.empty
  | .patching vifs obtained => c.crd.vifs = Dict.empty ∧ vifsOf vifs = obtained ∧
      ∀ p ∈ obtained.map Vif.id, p ∈ out
  | .finalizing => c.crd.deleting = true
  | .releasing _ rest => c.crd.deleting = true ∧
      ∀ p ∈ portsOf c.crd.vifs, p ∈ out → p ∈ rest.map Vif.id
  | .crdFinalizer => c.crd.deleting = true ∧ ∀ p ∈ portsOf c.crd.vifs, p ∉ out
  | .activating | .raised => True

structure Sound (s : State) : Prop where
  filed : Filed s
  finalizer : ∀ k, s.crd = some k → k.finalizer = true
  current : ∀ u c, (s.groups u).call = some c → c.pc ≠ .raised → s.Current c.crd
  stage : ∀ u c, (s.groups u).call = some c → Stage s.out c

section Sound

variable {s s' : State} {u v : String} {c : Call} {k k' : StoredKuryrPort}

theorem Stage.start (out : List PortId) (k : StoredKuryrPort) : Stage out (.start k) := by
  unfold Call.start
  split
  · next hdel => exact hdel
  · split
    · next hvifs => exact Dict.ext hvifs
    · trivial

theorem Stage.raised (out : List PortId) (h : c.pc = .raised) : Stage out c := by
  unfold Stage
  rw [h]
  trivial

/-- The KuryrPort of a call at work. -/
theorem Sound.crd (h : Sound s) (hc : (s.groups u).call = some c) (hpc : c.pc ≠ .raised) :
    ∃ k, s.crd = some k ∧ k.uid = u ∧ k.vifs = c.crd.vifs ∧ c.crd.podUid = k.podUid ∧
      (c.crd.deleting = true → k.deleting = true) := by
  obtain ⟨k, hk, huid, hvifs⟩ := h.current u c hc hpc
  have hpending : s.Pending u c.crd := .inr ⟨c, hc, rfl⟩
  have hu : k.uid = u := huid.trans (h.filed.filed u _ hpending).1
  exact ⟨k, hk, hu, hvifs, h.filed.same u _ k hpending hk hu⟩

/-- **Only one call is at work.** -/
theorem Sound.others_raised (h : Sound s) (hc : (s.groups u).call = some c) (hpc : c.pc ≠ .raised)
    {c' : Call} (hc' : (s.groups v).call = some c') (hv : v ≠ u) : c'.pc = .raised := by
  by_contra hpc'
  obtain ⟨k, hk, hu, -⟩ := h.crd hc hpc
  obtain ⟨k', hk', hv', -⟩ := h.crd hc' hpc'
  cases hk.symm.trans hk'
  exact hv (hv'.symm.trans hu)

/-- Nothing has changed but pods and calls of `VIFHandler`. -/
theorem Sound.of_store (h : Sound s) (hf : Filed s') (hcrd : s'.crd = s.crd)
    (hgroups : s'.groups = s.groups) (hout : s'.out = s.out) : Sound s' where
  filed := hf
  finalizer k hk := h.finalizer k (hcrd ▸ hk)
  current u c hc hpc := by
    unfold State.Current
    rw [hcrd]
    exact h.current u c (hgroups ▸ hc) hpc
  stage u c hc := by
    rw [hout]
    exact h.stage u c (hgroups ▸ hc)

/-- A write of the KuryrPort that is none of its VIFs. -/
theorem Sound.touch (h : Sound s) (hf : Filed (s.writeCrd k')) (hk : s.crd = some k)
    (huid : k'.uid = k.uid) (hvifs : k'.vifs = k.vifs) (hfin : k'.finalizer = true) :
    Sound (s.writeCrd k') where
  filed := hf
  finalizer k₁ hk₁ := by
    cases hk₁
    exact hfin
  current u c hc hpc := by
    rw [writeCrd_call] at hc
    obtain ⟨k₁, hk₁, hu, hv⟩ := h.current u c hc hpc
    cases hk.symm.trans hk₁
    exact ⟨k', rfl, huid.trans hu, hvifs.trans hv⟩
  stage u c hc := by
    rw [writeCrd_call] at hc
    exact h.stage u c hc

/-- No call is at work. -/
theorem Sound.of_raised (hf : Filed s) (hfin : ∀ k, s.crd = some k → k.finalizer = true)
    (hraised : ∀ u c, (s.groups u).call = some c → c.pc = .raised) : Sound s where
  filed := hf
  finalizer := hfin
  current u c hc hpc := absurd (hraised u c hc) hpc
  stage u c hc := .raised _ (hraised u c hc)

/-- A call goes on; the ports that are out may have changed. -/
theorem Sound.advance {out : List PortId} {call : Option Call} (h : Sound s)
    (hf : Filed ({ s with out := out }.setCall u call))
    (hothers : out = s.out ∨ ∃ c, (s.groups u).call = some c ∧ c.pc ≠ .raised)
    (hcall : ∀ c', call = some c' → (c'.pc ≠ .raised → s.Current c'.crd) ∧ Stage out c') :
    Sound ({ s with out := out }.setCall u call) where
  filed := hf
  finalizer := h.finalizer
  current v c' hc' hpc' := by
    rw [setCall_call] at hc'
    split at hc'
    · exact (hcall c' hc').1 hpc'
    · exact h.current v c' hc' hpc'
  stage v c' hc' := by
    rw [setCall_call] at hc'
    split at hc'
    · exact (hcall c' hc').2
    · next hv =>
      rcases hothers with heq | ⟨c, hc, hpc⟩
      · rw [heq]
        exact h.stage v c' hc'
      · exact .raised _ (h.others_raised hc hpc hc' hv)

/-- The end of a call; the ports that are out may have changed. -/
theorem Sound.finish {out : List PortId} {raises : Bool} (h : Sound s)
    (hf : Filed ({ s with out := out }.finish u c raises))
    (hothers : out = s.out ∨ ∃ c, (s.groups u).call = some c ∧ c.pc ≠ .raised) :
    Sound ({ s with out := out }.finish u c raises) := by
  cases raises with
  | true =>
    refine h.advance hf hothers fun c' hc' => ?_
    cases hc'
    exact ⟨fun hne => absurd rfl hne, trivial⟩
  | false => exact h.advance hf hothers fun c' hc' => by cases hc'

theorem Sound.deleteCrd (h : Sound s) : Sound s.deleteCrd := by
  have hf : Filed s.deleteCrd := h.filed.crdStep (deleteCrd_crdStep s)
  unfold State.deleteCrd at hf ⊢
  cases hk : s.crd with
  | none => exact h
  | some k =>
    have hfin : ¬ ¬ k.finalizer = true := not_not_intro (h.finalizer k hk)
    rw [hk] at hf
    dsimp only at hf ⊢
    rw [if_neg hfin] at hf ⊢
    split
    · exact h
    · next hdel =>
      rw [if_neg hdel] at hf
      exact h.touch hf hk rfl rfl (h.finalizer k hk)

theorem Sound.notify (h : Sound s) : Sound s.notify := by
  have hf : Filed s.notify := h.filed.crdStep (notify_crdStep s)
  cases hk : s.crd with
  | none =>
    have heq : s.notify = s := by
      unfold State.notify
      rw [hk]
    rw [heq]
    exact h
  | some k =>
    rw [notify_eq hk] at hf ⊢
    exact h.touch hf hk rfl rfl (h.finalizer k hk)

end Sound

/-! ### What the requests to the drivers give -/

theorem requestVifs_some {q : Acquisition} {uid : String} {vifs : Dict String VifEntry}
    {obtained : List Vif} (h : requestVifs q uid = (.ok (some vifs), obtained)) :
    vifsOf vifs = obtained := by
  unfold requestVifs at h
  split at h
  · cases h
  · cases h
  · next main _ =>
    by_cases hret : ∀ d ∈ q.drivers, d.Returns
    · have hnum : q.Numbered 0 (Dict.empty.set defaultIfname ⟨true, main⟩) := fun name hname =>
        (Dict.mem_keys_upsert.mp hname).imp_right fun hname => by cases hname
      obtain ⟨vifs', heq, -⟩ := q.requestAll_ok q.drivers 0 _ [main] hnum rfl hret
      rw [heq] at h
      cases h
      rfl
    · obtain ⟨e, more, heq⟩ := q.requestAll_error q.drivers 0
        (Dict.empty.set defaultIfname ⟨true, main⟩) [main] hret
      rw [heq] at h
      cases h

theorem requestVifs_none {q : Acquisition} {uid : String} {obtained : List Vif}
    (h : requestVifs q uid = (.ok none, obtained)) : obtained = [] := by
  unfold requestVifs at h
  split at h
  · cases h
  · cases h
    rfl
  · next main _ =>
    cases hr : (q.requestAll q.drivers 0 (Dict.empty.set defaultIfname ⟨true, main⟩) [main]).1 with
    | error e =>
      simp only [hr, Except.map] at h
      cases h
    | ok vifs =>
      simp only [hr, Except.map] at h
      cases h

theorem rollback_ok {q : Acquisition} (h : ∀ i, q.release i = .ok ()) :
    ∀ (n : Nat) (vifs : List Vif), q.rollback n vifs = (.ok (), vifs)
  | _, [] => rfl
  | n, vif :: rest => by
    rw [Acquisition.rollback, h n, rollback_ok h (n + 1) rest]

theorem rolledBack_ok {q : Acquisition} (h : ∀ i, q.release i = .ok ())
    (vifs : Dict String VifEntry) : rolledBack q vifs = vifsOf vifs := by
  rw [rolledBack, rollback_ok h]

/-! ### Its steps -/

section Steps

variable {s s' : State} {u : String} {c : Call} {k : StoredKuryrPort}

theorem patchVifs_eq (hk : s.crd = some k) (vifs : Dict String VifEntry) :
    s.patchVifs vifs = s.writeCrd { k with vifs := vifs } := by
  unfold State.patchVifs
  rw [hk]

/-- An activated VIF is the VIF that was there. -/
theorem Sound.patch_own (h : Sound s) (hc : (s.groups u).call = some c) (hpc : c.pc ≠ .raised) :
    s.patchVifs c.crd.vifs = s.notify := by
  obtain ⟨k, hk, -, hvifs, -⟩ := h.crd hc hpc
  rw [patchVifs_eq hk, notify_eq hk, ← hvifs]

/-- When the only call at work ends, none is. -/
theorem Sound.all_raised (h : Sound s) (hc : (s.groups u).call = some c) (hpc : c.pc ≠ .raised)
    {x : State} (hx : ∀ v, (x.groups v).call = (s.groups v).call) {call : Option Call}
    (hcall : ∀ c', call = some c' → c'.pc = .raised) (v : String) (c' : Call)
    (hc' : ((x.setCall u call).groups v).call = some c') : c'.pc = .raised := by
  rw [setCall_call] at hc'
  split at hc'
  · exact hcall c' hc'
  · next hv => exact h.others_raised hc hpc (hx v ▸ hc') hv

theorem finish_eq (s : State) (u : String) (c : Call) (raises : Bool) :
    s.finish u c raises = s.setCall u (if raises then some { c with pc := .raised } else none) := by
  cases raises <;> rfl

/-- **The steps of a call.** -/
theorem Sound.callStep {r : Request} (h : Sound s) (hc : (s.groups u).call = some c)
    (hok : CarefulRequest s c r) (hf : Filed s') (hs : callStep s u c r = some s') : Sound s' := by
  have hstage := h.stage u c hc
  have hcur := h.current u c hc
  unfold PodLifecycle.callStep at hs
  cases r with
  | readPod =>
    dsimp only at hs
    split at hs
    · next hpc =>
      cases hs
      rw [Stage, hpc] at hstage
      refine h.advance hf (.inl rfl) fun c' hc' => ?_
      cases hc'
      refine ⟨fun _ => hcur (by rw [hpc]; simp), ?_⟩
      split <;> exact hstage
    · next hpc =>
      rw [Stage, hpc] at hstage
      have hcur := hcur (by rw [hpc]; simp)
      split at hs
      · cases hs
        exact h.advance hf (.inl rfl) fun c' hc' => by cases hc'
      · split at hs
        · cases hs
          refine h.advance hf (.inl rfl) fun c' hc' => ?_
          cases hc'
          exact ⟨fun _ => hcur, hstage, fun p hp _ => hp⟩
        · split at hs
          · next hvifs =>
            cases hs
            refine h.advance hf (.inl rfl) fun c' hc' => ?_
            cases hc'
            refine ⟨fun _ => hcur, hstage, fun p hp => ?_⟩
            simp [portsOf, vifsOf, hvifs] at hp
          · cases hs
            refine h.advance hf (.inl rfl) fun c' hc' => ?_
            cases hc'
            exact ⟨fun _ => hcur, hstage, fun p hp _ => hp⟩
    · cases hs
  | orphan applied =>
    dsimp only at hs
    split at hs
    · cases hs
      cases applied with
      | true => exact h.deleteCrd.advance hf (.inl rfl) fun c' hc' => by cases hc'
      | false => exact h.advance hf (.inl rfl) fun c' hc' => by cases hc'
    · cases hs
  | request q =>
    dsimp only at hs
    split at hs
    · next hpc =>
      have hwork : c.pc ≠ .raised := by rw [hpc]; simp
      rw [Stage, hpc] at hstage
      have hothers : ∀ out, out = s.out ∨ ∃ c, (s.groups u).call = some c ∧ c.pc ≠ .raised :=
        fun _ => .inr ⟨c, hc, hwork⟩
      split at hs <;> cases hs
      · refine h.advance hf (hothers _) fun c' hc' => ?_
        cases hc'
        exact ⟨fun hne => absurd rfl hne, trivial⟩
      · exact h.advance hf (hothers _) fun c' hc' => by cases hc'
      · next vifs obtained hreq =>
        refine h.advance hf (hothers _) fun c' hc' => ?_
        cases hc'
        refine ⟨fun _ => hcur hwork, hstage, requestVifs_some hreq, fun p hp => ?_⟩
        exact List.mem_append_right _ hp
    · cases hs
  | patch q applied =>
    dsimp only at hs
    split at hs
    · next vifs obtained hpc =>
      have hwork : c.pc ≠ .raised := by rw [hpc]; simp
      split at hs
      · obtain ⟨k, hk, -⟩ := h.crd hc hwork
        rw [hk] at hs
        simp only [Option.isSome_some, if_true] at hs
        cases hs
        rw [finish_eq] at hf ⊢
        refine .of_raised hf (fun k' hk' => ?_)
          (h.all_raised hc hwork (fun v => (patchVifs_crdStep s vifs).call v) fun c' hc' => ?_)
        · rw [patchVifs_eq hk] at hk'
          cases hk'
          exact h.finalizer k hk
        · split at hc' <;> cases hc'
          rfl
      · next e hq =>
        rcases hok with hok | ⟨rfl, ⟨e', he', hclient⟩, hrel⟩
        · rw [hok] at hq
          cases hq
        · cases hq.symm.trans he'
          rw [if_pos hclient] at hs
          cases hs
          exact h.finish hf (.inr ⟨c, hc, hwork⟩)
    · cases hs
  | activate a =>
    dsimp only at hs
    split at hs
    · next hpc =>
      have hwork : c.pc ≠ .raised := by rw [hpc]; simp
      split at hs
      · cases hs
        exact h.finish hf (.inl rfl)
      · split at hs
        · cases hs
          rw [h.patch_own hc hwork] at hf ⊢
          exact h.notify.finish hf (.inl rfl)
        · cases hs
      · obtain ⟨k, hk, -⟩ := h.crd hc hwork
        rw [hk] at hs
        cases hs
    · cases hs
  | release ok =>
    cases (show ok = true from hok)
    dsimp only at hs
    split at hs
    · next cleanup vif rest hpc =>
      have hwork : c.pc ≠ .raised := by rw [hpc]; simp
      rw [Stage, hpc] at hstage
      obtain ⟨hdel, hports⟩ := hstage
      rw [if_pos rfl] at hs
      cases hs
      refine h.advance hf (.inr ⟨c, hc, hwork⟩) fun c' hc' => ?_
      cases hc'
      refine ⟨fun _ => hcur hwork, hdel, fun p hp hout => ?_⟩
      obtain ⟨hout, hne⟩ := List.mem_filter.mp hout
      rcases List.mem_cons.mp (hports p hp hout) with rfl | hrest
      · simp at hne
      · exact hrest
    · cases hs
  | freePod applied =>
    dsimp only at hs
    split at hs
    · next cleanup hpc =>
      have hwork : c.pc ≠ .raised := by rw [hpc]; simp
      rw [Stage, hpc] at hstage
      obtain ⟨hdel, hports⟩ := hstage
      have hstage' : Stage s.out { c with pc := .crdFinalizer } :=
        ⟨hdel, fun p hp hout => by cases hports p hp hout⟩
      have hcur := hcur hwork
      cases hs
      split at hf
      · next hif =>
        rw [if_pos hif]
        unfold State.editPod at hf ⊢
        cases hpod : s.pod with
        | none =>
          rw [hpod] at hf
          refine h.advance hf (.inl rfl) fun c' hc' => ?_
          cases hc'
          exact ⟨fun _ => hcur, hstage'⟩
        | some pod =>
          rw [hpod] at hf
          have hw : Sound (s.writePod { pod with finalizer := false }) :=
            h.of_store h.filed.writePod rfl rfl rfl
          refine hw.advance hf (.inl rfl) fun c' hc' => ?_
          cases hc'
          exact ⟨fun _ => hcur, hstage'⟩
      · next hif =>
        rw [if_neg hif]
        refine h.advance hf (.inl rfl) fun c' hc' => ?_
        cases hc'
        exact ⟨fun _ => hcur, hstage'⟩
    · cases hs
  | freeCrd applied =>
    dsimp only at hs
    split at hs
    · next hpc =>
      have hwork : c.pc ≠ .raised := by rw [hpc]; simp
      rw [Stage, hpc] at hstage
      cases hs
      cases applied with
      | true =>
        obtain ⟨k, hk, -, -, -, hdel⟩ := h.crd hc hwork
        have hfree : s.freeCrd = { s with crd := none } := by
          unfold State.freeCrd
          rw [hk]
          exact if_pos (hdel hstage.1)
        rw [if_pos rfl, hfree] at hf ⊢
        exact .of_raised hf (fun k hk => by cases hk)
          (h.all_raised hc hwork (fun v => rfl) fun c' hc' => by cases hc')
      | false => exact h.advance hf (.inl rfl) fun c' hc' => by cases hc'
    · cases hs
  | raise =>
    dsimp only at hs
    split at hs
    · cases hs
    · cases hs
      refine h.advance hf (.inl rfl) fun c' hc' => ?_
      cases hc'
      exact ⟨fun hne => absurd rfl hne, trivial⟩
  | again =>
    dsimp only at hs
    split at hs
    · cases hs
      refine h.advance hf (.inl rfl) fun c' hc' => ?_
      cases hc'
      exact ⟨fun _ => hok, Stage.start _ _⟩
    · cases hs
  | giveUp =>
    dsimp only at hs
    split at hs
    · cases hs
      exact h.advance hf (.inl rfl) fun c' hc' => by cases hc'
    · cases hs

end Steps

section Runs

variable {s s' : State} {u uid : String}

theorem Sound.vifEffect {c : VifCall} {x : State} (h : Sound s) (hf : Filed x)
    (hx : VifEffect s c uid x) : Sound x := by
  cases hx with
  | none => exact h
  | pod => exact h.of_store hf rfl rfl rfl
  | touch => exact h.notify
  | delete => exact h.deleteCrd
  | create hcrd huid =>
    refine .of_raised hf (fun k hk => ?_) fun v c' hc' => ?_
    · cases hk
      rfl
    · rw [writeCrd_call] at hc'
      by_contra hpc
      obtain ⟨k, hk, -⟩ := h.crd hc' hpc
      cases hcrd.symm.trans hk

/-- **One step.** -/
theorem Sound.step {a : Act} (h : Sound s) (hok : Careful s a)
    (hs : PodLifecycle.step s a = some s') : Sound s' := by
  have hf : Filed s' := (h.filed.step hs).1
  cases a with
  | createPod uid hostNetwork =>
    simp only [PodLifecycle.step] at hs
    split at hs <;> cases hs
    exact h.of_store hf rfl rfl rfl
  | schedulePod | completePod | deletePod =>
    cases hs
    unfold State.editPod at hf ⊢
    cases hpod : s.pod with
    | none => exact h
    | some pod =>
      rw [hpod] at hf
      exact h.of_store hf rfl rfl rfl
  | losePod =>
    cases hs
    exact h.of_store hf rfl rfl rfl
  | deleteCrd =>
    cases hs
    exact h.deleteCrd
  | touchCrd =>
    cases hs
    exact h.notify
  | vifEvent pod =>
    simp only [PodLifecycle.step] at hs
    split at hs
    · obtain ⟨c, -, rfl⟩ := Option.map_eq_some_iff.mp hs
      exact h.of_store hf rfl rfl rfl
    · cases hs
  | vifStep i uid =>
    obtain ⟨c, hc, hs⟩ := Option.bind_eq_some_iff.mp hs
    obtain ⟨x, calls, hx, rfl, -⟩ := vifStep_spec hs
    have hpod := h.filed.vif_known c (List.mem_of_getElem? hc)
    exact (h.vifEffect (h.filed.vifEffect hpod hx).1 hx).of_store hf rfl rfl rfl
  | vifEnd i =>
    simp only [PodLifecycle.step] at hs
    split at hs <;> cases hs
    exact h.of_store hf rfl rfl rfl
  | take u n =>
    obtain ⟨hidle, k, rest, hqueue, rfl⟩ := take_eq hs
    have hcall : ∀ v c, (Function.update s.groups u ⟨rest, some (.start k)⟩ v).call = some c →
        c = .start k ∨ (s.groups v).call = some c := by
      intro v c hc
      by_cases hv : v = u
      · subst hv
        rw [Function.update_self] at hc
        cases hc
        exact .inl rfl
      · rw [Function.update_of_ne hv] at hc
        exact .inr hc
    refine ⟨hf, h.finalizer, fun v c hc hpc => ?_, fun v c hc => ?_⟩
    · rcases hcall v c hc with rfl | hc
      · exact hok k rest hqueue
      · exact h.current v c hc hpc
    · rcases hcall v c hc with rfl | hc
      · exact Stage.start _ _
      · exact h.stage v c hc
  | call u r =>
    obtain ⟨c, hc, hs⟩ := Option.bind_eq_some_iff.mp hs
    exact h.callStep hc (hok c hc) hf hs

theorem sound_empty : Sound State.empty :=
  .of_raised filed_empty (fun k hk => by cases hk) fun u c hc => by cases hc

theorem sound_of_reach (h : Reach system Careful s) : Sound s :=
  h.invariant (fun s hs => by rw [show s = State.empty from hs]; exact sound_empty)
    fun _ _ _ hI hok hs => hI.step hok hs

end Runs

/-! ## Custody -/

/-- The ports a call has obtained and not recorded. -/
def Pc.hand : Pc → List PortId
  | .patching _ obtained => obtained.map Vif.id
  | _ => []

def Group.hand (g : Group) : List PortId :=
  match g.call with
  | some c => c.pc.hand
  | none => []

def State.InHand (s : State) (p : PortId) : Prop := ∃ u, p ∈ (s.groups u).hand

/-- The KuryrPort has the port in its status. -/
def State.Recorded (s : State) (p : PortId) : Prop := ∃ k, s.crd = some k ∧ p ∈ portsOf k.vifs

/-- The ports in the status of the KuryrPort with the uid `u`. -/
def State.recordedIn (s : State) (u : String) : Set PortId :=
  {p | ∃ k, s.crd = some k ∧ k.uid = u ∧ p ∈ portsOf k.vifs}

/-- The state as a ledger of custody. -/
def State.abs (s : State) : Custody.Ledger PortId String where
  out := {p | p ∈ s.out}
  hand := {p | s.InHand p}
  recorded := s.recordedIn

theorem kept_abs_iff {s : State} :
    s.abs.Kept ↔ ∀ p ∈ s.out, s.InHand p ∨ s.Recorded p := by
  have hrec : ∀ p, s.abs.Recorded p ↔ s.Recorded p := fun p =>
    ⟨fun ⟨_, k, hk, _, hp⟩ => ⟨k, hk, hp⟩, fun ⟨k, hk, hp⟩ => ⟨k.uid, k, hk, rfl, hp⟩⟩
  constructor
  · exact fun h p hp => (h p hp).imp_right (hrec p).mp
  · exact fun h p hp => (h p hp).imp_right (hrec p).mpr

section Hands

variable {s s' x : State} {u v : String} {c : Call} {call : Option Call} {p : PortId}

/-- The hand of a call, if there is one. -/
def callHand (call : Option Call) : List PortId := (call.map fun c => c.pc.hand).getD []

theorem Group.hand_eq (g : Group) : g.hand = callHand g.call := by
  unfold Group.hand callHand
  cases g.call <;> rfl

theorem setCall_hand (s : State) (u v : String) (call : Option Call) :
    ((s.setCall u call).groups v).hand = if v = u then callHand call else (s.groups v).hand := by
  rw [Group.hand_eq, Group.hand_eq, setCall_call]
  split <;> rfl

theorem start_hand (k : StoredKuryrPort) : (Call.start k).pc.hand = [] := by
  unfold Call.start
  split
  · rfl
  · split <;> rfl

/-- The call at work has everything that is in hand. -/
theorem Sound.inHand (h : Sound s) (hc : (s.groups u).call = some c) (hpc : c.pc ≠ .raised) :
    s.InHand p ↔ p ∈ c.pc.hand := by
  constructor
  · rintro ⟨v, hp⟩
    rw [Group.hand_eq] at hp
    cases hc' : (s.groups v).call with
    | none =>
      rw [hc'] at hp
      cases hp
    | some c' =>
      rw [hc'] at hp
      by_cases hv : v = u
      · subst hv
        cases hc.symm.trans hc'
        exact hp
      · have hp : p ∈ c'.pc.hand := hp
        rw [h.others_raised hc hpc hc' hv] at hp
        cases hp
  · intro hp
    refine ⟨u, ?_⟩
    rw [Group.hand_eq, hc]
    exact hp

/-- When it goes on, the others still have nothing. -/
theorem Sound.inHand_setCall (h : Sound s) (hc : (s.groups u).call = some c) (hpc : c.pc ≠ .raised)
    (hx : ∀ v, (x.groups v).call = (s.groups v).call) :
    (x.setCall u call).InHand p ↔ p ∈ callHand call := by
  constructor
  · rintro ⟨v, hp⟩
    rw [setCall_hand] at hp
    split at hp
    · exact hp
    · next hv =>
      rw [Group.hand_eq, hx] at hp
      cases hc' : (s.groups v).call with
      | none =>
        rw [hc'] at hp
        cases hp
      | some c' =>
        rw [hc'] at hp
        have hp : p ∈ c'.pc.hand := hp
        rw [h.others_raised hc hpc hc' hv] at hp
        cases hp
  · intro hp
    refine ⟨u, ?_⟩
    rw [setCall_hand, if_pos rfl]
    exact hp

theorem finish_hand (c : Call) (raises : Bool) :
    callHand (if raises then some { c with pc := .raised } else none) = [] := by
  cases raises <;> rfl

/-- What the ledger reads has not changed. -/
theorem abs_eq (hout : s'.out = s.out) (hhand : ∀ v, (s'.groups v).hand = (s.groups v).hand)
    (hrec : s'.recordedIn = s.recordedIn) : s'.abs = s.abs := by
  have hin : ∀ p, s'.InHand p ↔ s.InHand p := fun p => exists_congr fun v => by rw [hhand v]
  ext p
  · show p ∈ s'.out ↔ p ∈ s.out
    rw [hout]
  · exact hin p
  · next q =>
    show q ∈ s'.recordedIn p ↔ q ∈ s.recordedIn p
    rw [hrec]

theorem recordedIn_of_crd (h : s'.crd = s.crd) : s'.recordedIn = s.recordedIn := by
  unfold State.recordedIn
  rw [h]

theorem recordedIn_writeCrd {k k' : StoredKuryrPort} (hk : s.crd = some k) (huid : k'.uid = k.uid)
    (hvifs : k'.vifs = k.vifs) : (s.writeCrd k').recordedIn = s.recordedIn := by
  funext v
  ext p
  constructor
  · rintro ⟨k₁, hk₁, hu, hp⟩
    cases hk₁
    exact ⟨k, hk, huid ▸ hu, hvifs ▸ hp⟩
  · rintro ⟨k₁, hk₁, hu, hp⟩
    cases hk.symm.trans hk₁
    exact ⟨k', rfl, huid.trans hu, hvifs.symm ▸ hp⟩

theorem abs_touch {k k' : StoredKuryrPort} (hk : s.crd = some k) (huid : k'.uid = k.uid)
    (hvifs : k'.vifs = k.vifs) : (s.writeCrd k').abs = s.abs :=
  abs_eq rfl (fun v => by rw [Group.hand_eq, Group.hand_eq, writeCrd_call])
    (recordedIn_writeCrd hk huid hvifs)

theorem abs_notify (s : State) : s.notify.abs = s.abs := by
  cases hk : s.crd with
  | none =>
    unfold State.notify
    rw [hk]
  | some k =>
    rw [notify_eq hk]
    exact abs_touch hk rfl rfl

theorem Sound.abs_deleteCrd (h : Sound s) : s.deleteCrd.abs = s.abs := by
  unfold State.deleteCrd
  cases hk : s.crd with
  | none => rfl
  | some k =>
    dsimp only
    rw [if_neg (not_not_intro (h.finalizer k hk))]
    split
    · rfl
    · exact abs_touch hk rfl rfl

/-- A call with nothing in hand goes on with nothing in hand. -/
theorem abs_setCall (hc : (s.groups u).call = some c) (hhand : c.pc.hand = [])
    (hcall : callHand call = []) : (s.setCall u call).abs = s.abs := by
  refine abs_eq rfl (fun v => ?_) rfl
  rw [setCall_hand]
  split
  · next hv =>
    rw [hv, hcall, Group.hand_eq, hc]
    exact hhand.symm
  · rfl

end Hands

/-! ### The simulation -/

section Simulation

variable {s s' : State} {u : String} {c : Call}

/-- The moves of custody that are allowed, from where one is. -/
abbrev Custodial (l : Custody.Ledger PortId String) : Prop :=
  Reach (Custody.system PortId String) Custody.Ledger.Allowed l

/-- **The requests to the drivers** obtain ports. -/
theorem Sound.abs_request (h : Sound s) (hc : (s.groups u).call = some c)
    (hpc : c.pc = .requesting) (vifs : Dict String VifEntry) (obtained : List Vif) :
    ((s.obtain obtained).setPc u c (.patching vifs obtained)).abs
      = s.abs.move (.obtain {p | p ∈ obtained.map Vif.id}) := by
  have hwork : c.pc ≠ .raised := by rw [hpc]; simp
  ext p
  · exact List.mem_append
  · show ((s.obtain obtained).setCall u (some ⟨c.crd, .patching vifs obtained⟩)).InHand p ↔ _
    rw [h.inHand_setCall (x := s.obtain obtained) hc hwork fun v => rfl]
    constructor
    · exact .inr
    · rintro (hp | hp)
      · have hp := (h.inHand hc hwork).mp hp
        rw [hpc] at hp
        cases hp
      · exact hp
  · exact Iff.rfl

/-- **The patch of the status**: the KuryrPort has the VIFs that were in hand. -/
theorem Sound.abs_patch (h : Sound s) {vifs : Dict String VifEntry} {obtained : List Vif}
    {raises : Bool} (hc : (s.groups u).call = some c) (hpc : c.pc = .patching vifs obtained) :
    ((s.patchVifs vifs).finish u c raises).abs
      = (s.abs.move (.record u {p | p ∈ obtained.map Vif.id})).move
          (.drop {p | p ∈ obtained.map Vif.id}) := by
  have hwork : c.pc ≠ .raised := by rw [hpc]; simp
  have hstage := h.stage u c hc
  rw [Stage, hpc] at hstage
  obtain ⟨hempty, hall, -⟩ := hstage
  obtain ⟨k, hk, huid, hvifs, -⟩ := h.crd hc hwork
  have hpatch := patchVifs_eq hk vifs
  rw [finish_eq]
  ext p
  · show p ∈ (s.patchVifs vifs).out ↔ p ∈ s.out
    rw [hpatch]
    rfl
  · show ((s.patchVifs vifs).setCall u _).InHand p ↔ s.InHand p ∧ ¬ p ∈ obtained.map Vif.id
    rw [h.inHand_setCall hc hwork (patchVifs_crdStep s vifs).call, finish_hand, h.inHand hc hwork,
      hpc]
    exact ⟨fun hp => (by cases hp), fun hp => absurd hp.1 hp.2⟩
  · next q =>
    show (∃ k', (s.patchVifs vifs).crd = some k' ∧ k'.uid = p ∧ q ∈ portsOf k'.vifs) ↔
      q ∈ Function.update s.recordedIn u (s.recordedIn u ∪ {p | p ∈ obtained.map Vif.id}) p
    have hports : portsOf vifs = obtained.map Vif.id := by rw [portsOf, hall]
    have hnone : ∀ v, q ∉ s.recordedIn v := by
      rintro v ⟨k', hk', -, hq⟩
      cases hk.symm.trans hk'
      rw [hvifs, hempty] at hq
      cases hq
    rw [hpatch]
    by_cases hp : p = u
    · subst hp
      rw [Function.update_self]
      constructor
      · rintro ⟨k', hk', -, hq⟩
        cases hk'
        exact .inr (hports ▸ hq)
      · rintro (hq | hq)
        · exact absurd hq (hnone p)
        · exact ⟨_, rfl, huid, hports.symm ▸ hq⟩
    · rw [Function.update_of_ne hp]
      constructor
      · rintro ⟨k', hk', hu, -⟩
        cases hk'
        exact absurd (hu.symm.trans huid) hp
      · exact fun hq => absurd hq (hnone p)

theorem mem_release {vifs : List Vif} {p : PortId} :
    p ∈ (s.release vifs).out ↔ p ∈ s.out ∧ ¬ p ∈ vifs.map Vif.id := by
  simp [State.release]

/-- **The rollback** gives back what is in hand. -/
theorem Sound.abs_rollback (h : Sound s) {vifs : Dict String VifEntry} {obtained : List Vif}
    {raises : Bool} (hc : (s.groups u).call = some c) (hpc : c.pc = .patching vifs obtained) :
    ((s.release obtained).finish u c raises).abs
      = (s.abs.move (.giveBack {p | p ∈ obtained.map Vif.id})).move
          (.drop {p | p ∈ obtained.map Vif.id}) := by
  have hwork : c.pc ≠ .raised := by rw [hpc]; simp
  rw [finish_eq]
  ext p
  · exact mem_release
  · show ((s.release obtained).setCall u _).InHand p ↔ s.InHand p ∧ ¬ p ∈ obtained.map Vif.id
    rw [h.inHand_setCall (x := s.release obtained) hc hwork fun v => rfl, finish_hand,
      h.inHand hc hwork, hpc]
    exact ⟨fun hp => (by cases hp), fun hp => absurd hp.1 hp.2⟩
  · exact Iff.rfl

/-- **A release** by `on_finalize`. -/
theorem abs_release {vif : Vif} {pc : Pc} (hc : (s.groups u).call = some c)
    (hhand : c.pc.hand = []) (hpc : pc.hand = []) :
    ((s.release [vif]).setPc u c pc).abs = s.abs.move (.giveBack {vif.id}) := by
  have hsame : ((s.release [vif]).setPc u c pc).abs = (s.release [vif]).abs :=
    abs_setCall hc hhand hpc
  rw [hsame]
  ext p
  · show p ∈ (s.release [vif]).out ↔ p ∈ s.out ∧ ¬ p = vif.id
    rw [mem_release]
    simp
  · exact Iff.rfl
  · exact Iff.rfl

/-- **The end of a KuryrPort.** -/
theorem Sound.abs_freeCrd (h : Sound s) (hc : (s.groups u).call = some c)
    (hpc : c.pc = .crdFinalizer) :
    (s.freeCrd.setCall u none).abs = s.abs.move (.forget u) := by
  have hwork : c.pc ≠ .raised := by rw [hpc]; simp
  have hstage := h.stage u c hc
  rw [Stage, hpc] at hstage
  obtain ⟨k, hk, huid, -, -, hdel⟩ := h.crd hc hwork
  have hfree : s.freeCrd = { s with crd := none } := by
    unfold State.freeCrd
    rw [hk]
    exact if_pos (hdel hstage.1)
  rw [hfree]
  ext p
  · exact Iff.rfl
  · show (({ s with crd := none } : State).setCall u none).InHand p ↔ s.InHand p
    rw [h.inHand_setCall (x := { s with crd := none }) hc hwork fun v => rfl, h.inHand hc hwork,
      hpc]
    exact Iff.rfl
  · next q =>
    show (∃ k' : StoredKuryrPort, none = some k' ∧ k'.uid = p ∧ q ∈ portsOf k'.vifs) ↔
      q ∈ Function.update s.recordedIn u ∅ p
    by_cases hp : p = u
    · subst hp
      rw [Function.update_self]
      exact ⟨fun ⟨k', hk', _⟩ => (by cases hk'), fun hq => hq.elim⟩
    · rw [Function.update_of_ne hp]
      constructor
      · rintro ⟨k', hk', -⟩
        cases hk'
      · rintro ⟨k', hk', hu, -⟩
        cases hk.symm.trans hk'
        exact absurd (hu.symm.trans huid) hp

/-- **The steps of a call are allowed moves.** -/
theorem Sound.simulates_call {r : Request} (h : Sound s) (hc : (s.groups u).call = some c)
    (hok : CarefulRequest s c r) (hs : PodLifecycle.callStep s u c r = some s')
    (hr : Custodial s.abs) :
    Custodial s'.abs := by
  have hsame : ∀ {pc : Pc}, c.pc.hand = [] → pc.hand = [] → (s.setPc u c pc).abs = s.abs :=
    fun hhand hpc => abs_setCall hc hhand hpc
  have hend : c.pc.hand = [] → (s.setCall u none).abs = s.abs :=
    fun hhand => abs_setCall hc hhand rfl
  unfold PodLifecycle.callStep at hs
  cases r with
  | readPod =>
    dsimp only at hs
    split at hs
    · next hpc =>
      have hhand : c.pc.hand = [] := by rw [hpc]; rfl
      cases hs
      rw [hsame hhand (by split <;> rfl)]
      exact hr
    · next hpc =>
      have hhand : c.pc.hand = [] := by rw [hpc]; rfl
      split at hs
      · cases hs
        rw [hend hhand]
        exact hr
      · split at hs
        · cases hs
          rw [hsame hhand rfl]
          exact hr
        · split at hs <;> cases hs <;> rw [hsame hhand rfl] <;> exact hr
    · cases hs
  | orphan applied =>
    dsimp only at hs
    split at hs
    · next hpc =>
      have hhand : c.pc.hand = [] := by rw [hpc]; rfl
      cases hs
      cases applied with
      | true =>
        have hc' : (s.deleteCrd.groups u).call = some c := by
          rw [(deleteCrd_crdStep s).call]
          exact hc
        rw [if_pos rfl, abs_setCall hc' hhand rfl, h.abs_deleteCrd]
        exact hr
      | false =>
        rw [if_neg (by simp), hend hhand]
        exact hr
    · cases hs
  | request q =>
    dsimp only at hs
    split at hs
    · next hpc =>
      have hhand : c.pc.hand = [] := by rw [hpc]; rfl
      have hnone : s.obtain [] = s := by simp [State.obtain]
      split at hs <;> cases hs
      · next e obtained hreq =>
        rw [hok e obtained hreq, hnone, hsame hhand rfl]
        exact hr
      · next obtained hreq =>
        rw [requestVifs_none hreq, hnone, hend hhand]
        exact hr
      · next vifs obtained hreq =>
        rw [h.abs_request hc hpc]
        exact Custody.reach_move hr trivial
    · cases hs
  | patch q applied =>
    dsimp only at hs
    split at hs
    · next vifs obtained hpc =>
      have hwork : c.pc ≠ .raised := by rw [hpc]; simp
      have hstage := h.stage u c hc
      rw [Stage, hpc] at hstage
      split at hs
      · obtain ⟨k, hk, -⟩ := h.crd hc hwork
        rw [hk] at hs
        cases hs
        rw [h.abs_patch hc hpc]
        refine Custody.reach_move (Custody.reach_move hr trivial) fun p hp _ => ⟨u, ?_⟩
        simp only [Custody.Ledger.move, Function.update_self]
        exact .inr hp
      · next e hq =>
        rcases hok with hok | ⟨rfl, ⟨e', he', hclient⟩, hrel⟩
        · rw [hok] at hq
          cases hq
        · cases hq.symm.trans he'
          rw [if_pos hclient, rolledBack_ok hrel, hstage.2.1] at hs
          cases hs
          rw [if_neg (by simp), h.abs_rollback hc hpc]
          exact Custody.reach_move (Custody.reach_move hr trivial) fun p hp hout => absurd hp hout.2
    · cases hs
  | activate a =>
    dsimp only at hs
    split at hs
    · next hpc =>
      have hwork : c.pc ≠ .raised := by rw [hpc]; simp
      have hhand : c.pc.hand = [] := by rw [hpc]; rfl
      split at hs
      · cases hs
        rw [finish_eq, abs_setCall hc hhand (finish_hand c false)]
        exact hr
      · next raises =>
        split at hs
        · cases hs
          have hc' : (s.notify.groups u).call = some c := by
            rw [(notify_crdStep s).call]
            exact hc
          rw [h.patch_own hc hwork, finish_eq, abs_setCall hc' hhand (finish_hand c raises),
            abs_notify]
          exact hr
        · cases hs
      · obtain ⟨k, hk, -⟩ := h.crd hc hwork
        rw [hk] at hs
        cases hs
    · cases hs
  | release ok =>
    cases (show ok = true from hok)
    dsimp only at hs
    split at hs
    · next cleanup vif rest hpc =>
      rw [if_pos rfl] at hs
      cases hs
      rw [abs_release hc (by rw [hpc]; rfl) rfl]
      exact Custody.reach_move hr trivial
    · cases hs
  | freePod applied =>
    dsimp only at hs
    split at hs
    · next hpc =>
      have hhand : c.pc.hand = [] := by rw [hpc]; rfl
      cases hs
      split
      · have hedit : ∀ f, ((s.editPod f).setPc u c .crdFinalizer).abs = s.abs := fun f => by
          unfold State.editPod
          cases s.pod with
          | none => exact hsame hhand rfl
          | some pod => exact abs_setCall (s := s.writePod (f pod)) hc hhand rfl
        rw [hedit]
        exact hr
      · rw [hsame hhand rfl]
        exact hr
    · cases hs
  | freeCrd applied =>
    dsimp only at hs
    split at hs
    · next hpc =>
      cases hs
      cases applied with
      | true =>
        rw [if_pos rfl, h.abs_freeCrd hc hpc]
        refine Custody.reach_move hr fun p hp hout => ?_
        have hwork : c.pc ≠ .raised := by rw [hpc]; simp
        have hstage := h.stage u c hc
        rw [Stage, hpc] at hstage
        obtain ⟨k, hk, -, hvifs, -⟩ := h.crd hc hwork
        obtain ⟨k', hk', -, hp⟩ := hp
        cases hk.symm.trans hk'
        exact absurd hout (hstage.2 p (hvifs ▸ hp))
      | false =>
        rw [if_neg (by simp), hend (by rw [hpc]; rfl)]
        exact hr
    · cases hs
  | raise =>
    dsimp only at hs
    split at hs
    · cases hs
    · cases hs
      have hhand : c.pc.hand = [] := by
        cases hpc : c.pc with
        | patching vifs obtained => exact absurd hpc (hok vifs obtained)
        | _ => rfl
      rw [hsame hhand rfl]
      exact hr
  | again =>
    dsimp only at hs
    split at hs
    · next hpc =>
      cases hs
      have hsame : (s.setCall u (some (.start c.crd))).abs = s.abs :=
        abs_setCall hc (by rw [hpc]; rfl) (start_hand c.crd)
      rw [hsame]
      exact hr
    · cases hs
  | giveUp =>
    dsimp only at hs
    split at hs
    · next hpc =>
      cases hs
      rw [hend (by rw [hpc]; rfl)]
      exact hr
    · cases hs

/-- Pods and calls of `VIFHandler` are none of the ledger's business. -/
theorem abs_of_store (hcrd : s'.crd = s.crd) (hgroups : s'.groups = s.groups)
    (hout : s'.out = s.out) : s'.abs = s.abs :=
  abs_eq hout (fun v => by rw [hgroups]) (recordedIn_of_crd hcrd)

theorem abs_editPod (s : State) (f : StoredPod → StoredPod) : (s.editPod f).abs = s.abs := by
  unfold State.editPod
  split
  · exact abs_of_store rfl rfl rfl
  · rfl

theorem Sound.abs_vifEffect {c : VifCall} {uid : String} {x : State} (h : Sound s)
    (hx : VifEffect s c uid x) : x.abs = s.abs := by
  cases hx with
  | none => rfl
  | pod => exact abs_of_store rfl rfl rfl
  | touch => exact abs_notify s
  | delete => exact h.abs_deleteCrd
  | create hcrd huid =>
    refine abs_eq rfl (fun v => by rw [Group.hand_eq, Group.hand_eq, writeCrd_call]) ?_
    funext v
    ext p
    constructor
    · rintro ⟨k, hk, -, hp⟩
      cases hk
      cases hp
    · rintro ⟨k, hk, -⟩
      cases hcrd.symm.trans hk

/-- **The simulation**: a careful step of the handlers is a few allowed moves of custody. -/
theorem Sound.simulates {a : Act} (h : Sound s) (hok : Careful s a)
    (hs : PodLifecycle.step s a = some s') (hr : Custodial s.abs) : Custodial s'.abs := by
  have hstore : s'.abs = s.abs → Custodial s'.abs := fun heq => heq ▸ hr
  cases a with
  | createPod uid hostNetwork =>
    simp only [PodLifecycle.step] at hs
    split at hs <;> cases hs
    exact hstore (abs_of_store rfl rfl rfl)
  | schedulePod | completePod | deletePod =>
    cases hs
    exact hstore (abs_editPod s _)
  | losePod =>
    cases hs
    exact hstore (abs_of_store rfl rfl rfl)
  | deleteCrd =>
    cases hs
    exact hstore h.abs_deleteCrd
  | touchCrd =>
    cases hs
    exact hstore (abs_notify s)
  | vifEvent pod =>
    simp only [PodLifecycle.step] at hs
    split at hs
    · obtain ⟨c, -, rfl⟩ := Option.map_eq_some_iff.mp hs
      exact hstore (abs_of_store rfl rfl rfl)
    · cases hs
  | vifStep i uid =>
    obtain ⟨c, -, hs⟩ := Option.bind_eq_some_iff.mp hs
    obtain ⟨x, calls, hx, rfl, -⟩ := vifStep_spec hs
    exact hstore ((abs_of_store (s := x) rfl rfl rfl).trans (h.abs_vifEffect hx))
  | vifEnd i =>
    simp only [PodLifecycle.step] at hs
    split at hs <;> cases hs
    exact hstore (abs_of_store rfl rfl rfl)
  | take u n =>
    obtain ⟨hidle, k, rest, -, rfl⟩ := take_eq hs
    refine hstore (abs_eq rfl (fun v => ?_) rfl)
    rw [Group.hand_eq, Group.hand_eq]
    dsimp only
    by_cases hv : v = u
    · rw [hv, Function.update_self, hidle]
      exact start_hand k
    · rw [Function.update_of_ne hv]
  | call u r =>
    obtain ⟨c, hc, hs⟩ := Option.bind_eq_some_iff.mp hs
    exact h.simulates_call hc (hok c hc) hs hr

/-- Careful runs are runs of custody. -/
theorem kept_of_reach (h : Reach system Careful s) : s.abs.Kept := by
  refine Custody.kept_of_reach (Reach.simulate (I := Sound) State.abs (fun s hs => ?_)
    (fun s a s' hI hok hs => ⟨hI.step hok hs, hI.simulates hok hs⟩) h).2
  rw [show s = State.empty from hs]
  refine ⟨sound_empty, ?_⟩
  exact Set.eq_empty_of_forall_notMem fun p hp => by cases hp

/-- **No port is lost** in a run of careful steps: a port that is out is in hand, or the
KuryrPort has it in its status. -/
theorem ports_in_custody (h : Reach system Careful s) :
    ∀ p ∈ s.out, s.InHand p ∨ s.Recorded p :=
  kept_abs_iff.mp (kept_of_reach h)

end Simulation

/-! ### A port that is in hand, and a port that is lost -/

/-- Hands are those of KuryrPorts there have been. -/
theorem Filed.inHand {s : State} {p : PortId} (h : Filed s) (hp : s.InHand p) :
    ∃ u ∈ s.crdUids, p ∈ (s.groups u).hand := by
  obtain ⟨u, hp⟩ := hp
  refine ⟨u, ?_, hp⟩
  rw [Group.hand_eq] at hp
  cases hc : (s.groups u).call with
  | none =>
    rw [hc] at hp
    cases hp
  | some c => exact (h.filed u c.crd (.inr ⟨c, hc, rfl⟩)).2.1

theorem careful_binding : Reach system Careful (after binding) := by
  refine reach_after ⟨trivial, _, rfl, trivial, _, rfl, trivial, _, rfl, trivial, _, rfl, trivial, _,
    rfl, trivial, _, rfl, fun k rest hk => ?_, _, rfl, fun c hc => ?_, _, rfl, fun c hc => ?_, _, rfl,
    trivial⟩
  · cases hk
    exact ⟨_, rfl, rfl, rfl⟩
  · trivial
  · intro e obtained hreq
    cases hc
    cases hreq

theorem ports_in_custody_binding : (after binding).out = ["port-1"] ∧
    ∀ p ∈ (after binding).out, (after binding).InHand p ∨ (after binding).Recorded p :=
  ⟨rfl, ports_in_custody careful_binding⟩

/-- The pod is deleted while its VIF is being obtained; the event of the deletion, which has no
VIFs, is handled after they have been recorded. -/
def overtaken : List Act :=
  [.deletePod, .vifEvent ⟨"pod-1", false, true, false, true, true⟩, .vifStep 0 "", .vifStep 0 "",
    .call "crd-1" (.patch oneVif false), .take "crd-1" 0, .call "crd-1" .readPod,
    .call "crd-1" (.freePod true), .call "crd-1" (.freeCrd true)]

/-- **A stale event loses a port**: the KuryrPort goes, and its VIF has not been released. -/
theorem stale_event_loses_port :
    Reach system (fun _ _ => True) (after (binding ++ overtaken)) ∧
      (after (binding ++ overtaken)).out = ["port-1"] ∧
      ¬ ((after (binding ++ overtaken)).InHand "port-1" ∨
        (after (binding ++ overtaken)).Recorded "port-1") := by
  have hreach : Reach system (fun _ _ => True) (after (binding ++ overtaken)) :=
    reach_after ⟨trivial, _, rfl, trivial, _, rfl, trivial, _, rfl, trivial, _, rfl, trivial, _, rfl,
      trivial, _, rfl, trivial, _, rfl, trivial, _, rfl, trivial, _, rfl, trivial, _, rfl,
      trivial, _, rfl, trivial, _, rfl, trivial, _, rfl, trivial, _, rfl, trivial, _, rfl,
      trivial, _, rfl, trivial, _, rfl, trivial, _, rfl, trivial⟩
  refine ⟨hreach, rfl, ?_⟩
  rintro (hp | ⟨k, hk, -⟩)
  · obtain ⟨u, hu, hp⟩ := (filed_of_reach hreach).inHand hp
    cases List.mem_singleton.mp hu
    cases hp
  · cases hk

end PodLifecycle

end KuryrKubernetes
