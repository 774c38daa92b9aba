import Mathlib.Order.WellFounded

/-!
# Releasing a load balancer

`release_loadbalancer` (`controller/drivers/lbaasv2.py`) deletes a load balancer and waits
until it is gone. Where Octavia refuses the deletion it waits for the load balancer to be
provisioned, and where that ends in ERROR it releases the load balancer, with new timers.

- `Octavia`: the answers to the calls, by their number, and the time each of them takes.
- `Phase`: the loop that runs, with the end of its timer. `State.depth` counts the calls of
  `release_loadbalancer` that wait for a nested one to return.
- `step`: one iteration of the loop that runs, which makes one call at most.
- `Escalates`: answers on which a call of `_release` gets to the next nested release.
- `release_terminates_iff`: a release ends unless the answers escalate for ever.

The limit the interpreter sets on nested calls is not part of the model.
-/

namespace KuryrKubernetes

namespace LoadBalancerRelease

/-- The answer to a deletion; `refused` are Conflict and BadRequest. -/
inductive DeleteReply where
  | done | refused | notFound | raised
deriving DecidableEq, Repr

/-- The answer to `get_load_balancer`, with the provisioning status. -/
inductive GetReply where
  | active | error | deleted | pending
  | notFound | raised
deriving DecidableEq, Repr

/-- The answers to the calls. `cleaned` when `clean_lb_crd_status` goes through, and
`elapsed` is the time from a call to the next look at the timer. -/
structure Octavia where
  delete : Nat → DeleteReply
  get : Nat → GetReply
  cleaned : Nat → Bool
  elapsed : Nat → Nat
  elapsed_pos : ∀ n, 0 < elapsed n

/-- The calls made so far, and the time. -/
structure Clock where
  calls : Nat
  now : Nat
deriving DecidableEq, Repr

def Octavia.tick (o : Octavia) (c : Clock) : Clock := ⟨c.calls + 1, c.now + o.elapsed c.calls⟩

/-- The loops. `_wait_for_provisioning` has a timer of its own within that of `_release`. -/
inductive Phase where
  | release (deadline : Nat)
  | waitForProvisioning (deadline limit : Nat)
  | waitForDeletion (deadline : Nat)
deriving DecidableEq, Repr

structure State where
  depth : Nat
  phase : Phase
  clock : Clock
deriving DecidableEq, Repr

inductive End where
  | returned | raised
deriving DecidableEq, Repr

inductive Next where
  | go (s : State)
  | stop (e : End)
deriving DecidableEq, Repr

section Driver

variable (o : Octavia) (timeout : Nat)

/-- `_release` has returned: `release_loadbalancer` goes on with `_wait_for_deletion`. -/
def released (depth : Nat) (c : Clock) : Next :=
  .go ⟨depth, .waitForDeletion (c.now + timeout), c⟩

/-- `release_loadbalancer` has returned, to a `_wait_for_provisioning` that cleans the status
and returns `None`, on which the `_release` that called it returns. -/
def returned (depth : Nat) (c : Clock) : Next :=
  match depth with
  | 0 => .stop .returned
  | depth + 1 => if o.cleaned c.calls then released timeout depth c else .stop .raised

/-- An iteration of `_release`. -/
def releaseStep (depth deadline : Nat) (c : Clock) : Next :=
  if c.now < deadline then
    match o.delete c.calls with
    | .done | .notFound => released timeout depth (o.tick c)
    | .raised => .stop .raised
    | .refused =>
      let remaining := deadline - c.now
      .go ⟨depth, .waitForProvisioning deadline ((o.tick c).now + remaining), o.tick c⟩
  else .stop .raised

/-- An iteration of `_wait_for_provisioning`. -/
def waitForProvisioningStep (depth deadline limit : Nat) (c : Clock) : Next :=
  if c.now < limit then
    match o.get c.calls with
    | .active => .go ⟨depth, .release deadline, o.tick c⟩
    | .error => .go ⟨depth + 1, .release ((o.tick c).now + timeout), o.tick c⟩
    | .deleted | .notFound =>
      if o.cleaned (o.tick c).calls then released timeout depth (o.tick c) else .stop .raised
    | .pending => .go ⟨depth, .waitForProvisioning deadline limit, o.tick c⟩
    | .raised => .stop .raised
  else .stop .raised

/-- An iteration of `_wait_for_deletion`. -/
def waitForDeletionStep (depth deadline : Nat) (c : Clock) : Next :=
  if c.now < deadline then
    match o.get c.calls with
    | .notFound => returned o timeout depth (o.tick c)
    | .raised => .stop .raised
    | _ => .go ⟨depth, .waitForDeletion deadline, o.tick c⟩
  else .stop .raised

def step (s : State) : Next :=
  match s.phase with
  | .release deadline => releaseStep o timeout s.depth deadline s.clock
  | .waitForProvisioning deadline limit =>
    waitForProvisioningStep o timeout s.depth deadline limit s.clock
  | .waitForDeletion deadline => waitForDeletionStep o timeout s.depth deadline s.clock

/-- At most `k` iterations. -/
def run : Nat → State → Next
  | 0, s => .go s
  | k + 1, s =>
    match step o timeout s with
    | .go s' => run k s'
    | .stop e => .stop e

/-- `release_loadbalancer`, called at this time. -/
def releaseLoadbalancer (depth : Nat) (c : Clock) : State := ⟨depth, .release (c.now + timeout), c⟩

/-- The run ends after finitely many calls. -/
def Terminates (s : State) : Prop := ∃ k e, run o timeout k s = .stop e

/-- An iteration after which the run ends. -/
def Next.Terminates : Next → Prop
  | .go s => LoadBalancerRelease.Terminates o timeout s
  | .stop _ => True

end Driver

/-! ## Escalation -/

/-- The answers, from the call at hand in a loop, refuse every deletion and end with ERROR:
`c'` is the clock after it. -/
inductive Escalates (o : Octavia) : Phase → Clock → Clock → Prop where
  | refused {deadline : Nat} {c c' : Clock} : c.now < deadline → o.delete c.calls = .refused →
      Escalates o (.waitForProvisioning deadline ((o.tick c).now + (deadline - c.now))) (o.tick c)
        c' → Escalates o (.release deadline) c c'
  | pending {deadline limit : Nat} {c c' : Clock} : c.now < limit → o.get c.calls = .pending →
      Escalates o (.waitForProvisioning deadline limit) (o.tick c) c' →
      Escalates o (.waitForProvisioning deadline limit) c c'
  | active {deadline limit : Nat} {c c' : Clock} : c.now < limit → o.get c.calls = .active →
      Escalates o (.release deadline) (o.tick c) c' →
      Escalates o (.waitForProvisioning deadline limit) c c'
  | error {deadline limit : Nat} {c : Clock} : c.now < limit → o.get c.calls = .error →
      Escalates o (.waitForProvisioning deadline limit) c (o.tick c)

/-- One release escalates to the next. -/
def Block (o : Octavia) (timeout : Nat) (c c' : Clock) : Prop :=
  Escalates o (.release (c.now + timeout)) c c'

/-- The answers escalate for ever. -/
def EscalatesForever (o : Octavia) (timeout : Nat) (c : Clock) : Prop :=
  ∃ f : Nat → Clock, f 0 = c ∧ ∀ i, Block o timeout (f i) (f (i + 1))

section Runs

variable {o : Octavia} {timeout : Nat}

theorem lt_tick (o : Octavia) (c : Clock) : c.now < (o.tick c).now :=
  Nat.lt_add_of_pos_right (o.elapsed_pos c.calls)

theorem terminates_of_step {s : State} (h : (step o timeout s).Terminates o timeout) :
    Terminates o timeout s := by
  cases hstep : step o timeout s with
  | stop e =>
    refine ⟨1, e, ?_⟩
    rw [run, hstep]
  | go s' =>
    rw [hstep] at h
    obtain ⟨k, e, hrun⟩ := h
    refine ⟨k + 1, e, ?_⟩
    rw [run, hstep]
    exact hrun

theorem terminates_of_go {s s' : State} (h : step o timeout s = .go s')
    (h' : Terminates o timeout s') : Terminates o timeout s := by
  refine terminates_of_step ?_
  rw [h]
  exact h'

/-- A run that ends goes through the next state, in fewer iterations. -/
theorem run_of_go {s s' : State} {k : Nat} {e : End} (h : step o timeout s = .go s')
    (hrun : run o timeout k s = .stop e) : ∃ k' < k, run o timeout k' s' = .stop e := by
  cases k with
  | zero => cases hrun
  | succ k =>
    rw [run, h] at hrun
    exact ⟨k, Nat.lt_succ_self k, hrun⟩

/-! ### The loops -/

theorem step_refused {depth deadline : Nat} {c : Clock} (hnow : c.now < deadline)
    (h : o.delete c.calls = .refused) :
    step o timeout ⟨depth, .release deadline, c⟩ =
      .go ⟨depth, .waitForProvisioning deadline ((o.tick c).now + (deadline - c.now)),
        o.tick c⟩ := by
  simp only [step, releaseStep, if_pos hnow, h]

theorem step_pending {depth deadline limit : Nat} {c : Clock} (hnow : c.now < limit)
    (h : o.get c.calls = .pending) :
    step o timeout ⟨depth, .waitForProvisioning deadline limit, c⟩ =
      .go ⟨depth, .waitForProvisioning deadline limit, o.tick c⟩ := by
  simp only [step, waitForProvisioningStep, if_pos hnow, h]

theorem step_active {depth deadline limit : Nat} {c : Clock} (hnow : c.now < limit)
    (h : o.get c.calls = .active) :
    step o timeout ⟨depth, .waitForProvisioning deadline limit, c⟩ =
      .go ⟨depth, .release deadline, o.tick c⟩ := by
  simp only [step, waitForProvisioningStep, if_pos hnow, h]

theorem step_error {depth deadline limit : Nat} {c : Clock} (hnow : c.now < limit)
    (h : o.get c.calls = .error) :
    step o timeout ⟨depth, .waitForProvisioning deadline limit, c⟩ =
      .go (releaseLoadbalancer timeout (depth + 1) (o.tick c)) := by
  simp only [step, waitForProvisioningStep, if_pos hnow, h]
  rfl

/-- A run on answers that escalate goes through the nested release. -/
theorem Escalates.run {p : Phase} {c c' : Clock} (h : Escalates o p c c') {depth k : Nat} {e : End}
    (hrun : LoadBalancerRelease.run o timeout k ⟨depth, p, c⟩ = .stop e) :
    ∃ k' < k, LoadBalancerRelease.run o timeout k'
      (releaseLoadbalancer timeout (depth + 1) c') = .stop e := by
  induction h generalizing k with
  | refused hnow hdelete _ ih =>
    obtain ⟨k', hk', hrun⟩ := run_of_go (step_refused hnow hdelete) hrun
    obtain ⟨k'', hk'', hrun⟩ := ih hrun
    exact ⟨k'', hk''.trans hk', hrun⟩
  | pending hnow hget _ ih =>
    obtain ⟨k', hk', hrun⟩ := run_of_go (step_pending hnow hget) hrun
    obtain ⟨k'', hk'', hrun⟩ := ih hrun
    exact ⟨k'', hk''.trans hk', hrun⟩
  | active hnow hget _ ih =>
    obtain ⟨k', hk', hrun⟩ := run_of_go (step_active hnow hget) hrun
    obtain ⟨k'', hk'', hrun⟩ := ih hrun
    exact ⟨k'', hk''.trans hk', hrun⟩
  | error hnow hget => exact run_of_go (step_error hnow hget) hrun

/-- And it ends if the nested release does. -/
theorem Escalates.terminates {p : Phase} {c c' : Clock} (h : Escalates o p c c') {depth : Nat}
    (hnested : Terminates o timeout (releaseLoadbalancer timeout (depth + 1) c')) :
    Terminates o timeout ⟨depth, p, c⟩ := by
  induction h with
  | refused hnow hdelete _ ih => exact terminates_of_go (step_refused hnow hdelete) (ih hnested)
  | pending hnow hget _ ih => exact terminates_of_go (step_pending hnow hget) (ih hnested)
  | active hnow hget _ ih => exact terminates_of_go (step_active hnow hget) (ih hnested)
  | error hnow hget => exact terminates_of_go (step_error hnow hget) hnested

/-- The loop of `_wait_for_deletion` ends where its caller does. -/
theorem waitForDeletion_terminates_of {depth : Nat}
    (hreturned : ∀ c, (returned o timeout depth c).Terminates o timeout) (deadline : Nat)
    (n : Nat) :
    ∀ c : Clock, deadline - c.now ≤ n →
      Terminates o timeout ⟨depth, .waitForDeletion deadline, c⟩ := by
  induction n with
  | zero =>
    intro c hc
    refine terminates_of_step ?_
    simp only [step, waitForDeletionStep, if_neg (show ¬ c.now < deadline by omega)]
    trivial
  | succ n ih =>
    intro c hc
    refine terminates_of_step ?_
    have hlater : Terminates o timeout ⟨depth, .waitForDeletion deadline, o.tick c⟩ := by
      refine ih (o.tick c) ?_
      have := lt_tick o c
      omega
    simp only [step, waitForDeletionStep]
    split
    · split
      · exact hreturned _
      · trivial
      · exact hlater
    · trivial

/-- **Waiting for the deletion ends**, and so do all releases that wait for it to return. -/
theorem waitForDeletion_terminates (depth : Nat) (deadline : Nat) (c : Clock) :
    Terminates o timeout ⟨depth, .waitForDeletion deadline, c⟩ := by
  induction depth generalizing deadline c with
  | zero =>
    have hreturned : ∀ c, (returned o timeout 0 c).Terminates o timeout := fun _ => trivial
    exact waitForDeletion_terminates_of hreturned deadline _ c (Nat.le_refl _)
  | succ depth ih =>
    refine waitForDeletion_terminates_of (fun c => ?_) deadline _ c (Nat.le_refl _)
    simp only [returned]
    split
    · exact ih _ c
    · trivial

theorem released_terminates (depth : Nat) (c : Clock) :
    (released timeout depth c).Terminates o timeout := waitForDeletion_terminates depth _ c

/-- An iteration of `_release` that is not refused ends the loop. -/
theorem release_terminates_of {depth deadline : Nat} {c : Clock}
    (h : c.now < deadline → o.delete c.calls = .refused →
      Terminates o timeout
        ⟨depth, .waitForProvisioning deadline ((o.tick c).now + (deadline - c.now)), o.tick c⟩) :
    Terminates o timeout ⟨depth, .release deadline, c⟩ := by
  refine terminates_of_step ?_
  simp only [step, releaseStep]
  split
  · next hnow =>
    split
    · exact released_terminates depth _
    · exact released_terminates depth _
    · trivial
    · next hdelete => exact h hnow hdelete
  · trivial

/-- **Waiting for provisioning ends** unless it escalates, if `_release` does after it. -/
theorem waitForProvisioning_terminates_of {depth deadline : Nat} (limit n : Nat) :
    ∀ c : Clock, limit - c.now ≤ n →
      (∀ c' : Clock, c.now < c'.now → (¬ ∃ c'', Escalates o (.release deadline) c' c'') →
        Terminates o timeout ⟨depth, .release deadline, c'⟩) →
      (¬ ∃ c', Escalates o (.waitForProvisioning deadline limit) c c') →
      Terminates o timeout ⟨depth, .waitForProvisioning deadline limit, c⟩ := by
  induction n with
  | zero =>
    intro c hc _ _
    refine terminates_of_step ?_
    simp only [step, waitForProvisioningStep, if_neg (show ¬ c.now < limit by omega)]
    trivial
  | succ n ih =>
    intro c hc hrelease hno
    refine terminates_of_step ?_
    have htick := lt_tick o c
    simp only [step, waitForProvisioningStep]
    split
    · next hnow =>
      split
      · next hget =>
        refine hrelease (o.tick c) htick ?_
        rintro ⟨c', hescalates⟩
        exact hno ⟨c', .active hnow hget hescalates⟩
      · next hget => exact absurd ⟨_, .error hnow hget⟩ hno
      · split
        · exact released_terminates depth _
        · trivial
      · split
        · exact released_terminates depth _
        · trivial
      · next hget =>
        refine ih (o.tick c) (by omega) (fun c' hc' => hrelease c' (htick.trans hc')) ?_
        rintro ⟨c', hescalates⟩
        exact hno ⟨c', .pending hnow hget hescalates⟩
      · trivial
    · trivial

/-- **A release that does not escalate ends.** -/
theorem release_terminates_of_not {depth deadline : Nat} (n : Nat) :
    ∀ c : Clock, deadline - c.now ≤ n → (¬ ∃ c', Escalates o (.release deadline) c c') →
      Terminates o timeout ⟨depth, .release deadline, c⟩ := by
  induction n with
  | zero =>
    intro c hc _
    exact release_terminates_of fun hnow => absurd hnow (by omega)
  | succ n ih =>
    intro c hc hno
    refine release_terminates_of fun hnow hdelete => ?_
    have htick := lt_tick o c
    refine waitForProvisioning_terminates_of _ _ (o.tick c) (Nat.le_refl _) (fun c' hc' => ?_) ?_
    · exact ih c' (by omega)
    · rintro ⟨c', hescalates⟩
      exact hno ⟨c', .refused hnow hdelete hescalates⟩

/-! ## The recursion -/

/-- A release that ends does not escalate for ever: every nested release has fewer iterations
left. -/
theorem not_escalatesForever {k : Nat} : ∀ {depth : Nat} {c : Clock} {e : End},
    run o timeout k (releaseLoadbalancer timeout depth c) = .stop e →
      ¬ EscalatesForever o timeout c := by
  induction k using Nat.strong_induction_on with
  | h k ih =>
    rintro depth c e hrun ⟨f, rfl, hf⟩
    obtain ⟨k', hk', hrun'⟩ := Escalates.run (hf 0) hrun
    exact ih k' hk' hrun' ⟨fun i => f (i + 1), rfl, fun i => hf (i + 1)⟩

/-- **Releasing a load balancer ends** exactly where the answers do not escalate for ever. -/
theorem release_terminates_iff (o : Octavia) (timeout : Nat) :
    Terminates o timeout (releaseLoadbalancer timeout 0 ⟨0, 0⟩) ↔
      ¬ EscalatesForever o timeout ⟨0, 0⟩ := by
  constructor
  · rintro ⟨k, e, hrun⟩
    exact not_escalatesForever hrun
  · intro hno
    -- a chain of escalations is well-founded, and a release ends if the next one does
    have hacc : Acc (fun c' c => Block o timeout c c') (⟨0, 0⟩ : Clock) := by
      refine not_not.mp fun hnot => hno ?_
      exact not_acc_iff_exists_descending_chain.mp hnot
    have hall : ∀ c, Acc (fun c' c => Block o timeout c c') c →
        ∀ depth, Terminates o timeout (releaseLoadbalancer timeout depth c) := by
      intro c hc
      induction hc with
      | intro c _ ih =>
        intro depth
        by_cases hblock : ∃ c', Block o timeout c c'
        · obtain ⟨c', hblock⟩ := hblock
          exact Escalates.terminates hblock (ih c' hblock (depth + 1))
        · exact release_terminates_of_not _ c (Nat.le_refl _) hblock
    exact hall _ hacc 0

end Runs

/-! ## Answers -/

/-- Octavia refuses every deletion, and the load balancer is in ERROR. -/
def stubborn : Octavia where
  delete := fun _ => .refused
  get := fun _ => .error
  cleaned := fun _ => true
  elapsed := fun _ => 1
  elapsed_pos := fun _ => Nat.one_pos

theorem stubborn_escalates (i : Nat) :
    Block stubborn 300 ⟨2 * i, 2 * i⟩ ⟨2 * (i + 1), 2 * (i + 1)⟩ := by
  have hrelease : 2 * i < 2 * i + 300 := by omega
  have hwait : 2 * i + 1 < 2 * i + 1 + (2 * i + 300 - 2 * i) := by omega
  exact .refused hrelease rfl (.error hwait rfl)

/-- The driver releases the load balancer again and again. -/
theorem stubborn_never_ends :
    ¬ Terminates stubborn 300 (releaseLoadbalancer 300 0 ⟨0, 0⟩) := by
  rintro ⟨k, e, hrun⟩
  exact not_escalatesForever hrun ⟨fun i => ⟨2 * i, 2 * i⟩, rfl, stubborn_escalates⟩

end LoadBalancerRelease

end KuryrKubernetes
