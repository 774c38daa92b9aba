import Mathlib.Algebra.Order.Floor.Semiring
import Mathlib.Data.Rat.Floor
import KuryrKubernetes.K8s.Objects
import KuryrKubernetes.Lib.Loop

/-!
# Retrying a handler

`Retry` (`handlers/retry.py`) calls a handler again while it raises what is worth another
attempt and time is left, and sleeps in between (`exponential_sleep`, `utils.py`).

- `exponentialSleep_pos_iff`, `interval_le_exponentialSleep`: the sleep is nothing when no
  time is left, and else at least the interval, whatever the caps and the jitter.
- `Retry.step`: one attempt. What the Kubernetes API and the handler answer, the jitter and
  the clock are inputs of the run.
- `Retry.Reports`: the loop ends, within a number of calls that time and interval bound,
  and it ends the way the last call did.
- `Retry.reports_iff`: exactly when it does.
-/

namespace KuryrKubernetes

/-! ## Sleeping -/

/-- `MAX_BACKOFF`, in seconds. -/
def maxBackoff : ℚ := 60

/-- `MAX_ATTEMPTS`. -/
def maxAttempts : Nat := 10

/-- `DEFAULT_JITTER`. -/
def defaultJitter : Nat := 3

/-- `exponential_backoff` (utils.py:238–260); `jitter` is what `randint` gave. -/
def exponentialBackoff (attempt : Nat) (interval : ℚ) (jitter : Nat) : ℚ :=
  let attempt := if attempt ≥ maxAttempts then maxAttempts else attempt
  let backoff := 2 ^ attempt * interval
  let backoff := if backoff > maxBackoff then maxBackoff else backoff
  backoff + jitter

/-- `exponential_sleep` (utils.py:208–235): the time slept. -/
def exponentialSleep (deadline now : ℚ) (attempt : Nat) (interval : ℚ) (jitter : Nat) : ℚ :=
  let secondsLeft := deadline - now
  if secondsLeft ≤ 0 then 0
  else
    let toSleep := exponentialBackoff attempt interval jitter
    let toSleep := if toSleep > secondsLeft then secondsLeft else toSleep
    if toSleep < interval then interval else toSleep

section

variable {deadline now interval : ℚ} {attempt jitter : Nat}

theorem exponentialSleep_eq_zero (h : deadline ≤ now) :
    exponentialSleep deadline now attempt interval jitter = 0 :=
  if_pos (sub_nonpos.mpr h)

/-- **While time is left, the sleep is at least the interval**, whatever caps it. -/
theorem interval_le_exponentialSleep (h : now < deadline) :
    interval ≤ exponentialSleep deadline now attempt interval jitter := by
  have hleft : ¬ deadline - now ≤ 0 := not_le.mpr (sub_pos.mpr h)
  have hraise : ∀ t : ℚ, interval ≤ if t < interval then interval else t := by
    intro t
    split
    · exact le_rfl
    · next hnot => exact not_lt.mp hnot
  rw [exponentialSleep]
  dsimp only
  rw [if_neg hleft]
  exact hraise _

theorem exponentialSleep_pos_iff (hi : 0 < interval) :
    exponentialSleep deadline now attempt interval jitter ≠ 0 ↔ now < deadline := by
  constructor
  · intro h
    by_contra hnot
    exact h (exponentialSleep_eq_zero (not_lt.mp hnot))
  · intro h
    exact (hi.trans_le (interval_le_exponentialSleep h)).ne'

end

namespace Retry

/-! ## What a handler raises -/

/-- What is under `NeutronError` in a response. -/
inductive NeutronError where
  | mapping (type : Option String)
  | other
deriving DecidableEq, Repr

/-- The response of an SDK exception: one whose `json()` raises `ValueError` or
`AttributeError`, a value that counts as false, a dictionary, or another value. -/
inductive Body where
  | unreadable | empty
  | mapping (neutronError : Option NeutronError)
  | other
deriving DecidableEq, Repr

/-- `get_neutron_error_type` (clients.py:73–84). What is no dictionary cannot be
subscripted by a text. -/
def getNeutronErrorType : Body → Except Exc (Option String)
  | .unreadable => .ok none
  | .empty => .ok none
  | .mapping none => .ok none
  | .mapping (some (.mapping type)) => .ok type
  | .mapping (some .other) => .error .typeError
  | .other => .error .typeError

/-- The classes `Retry` tells apart, each with its subclasses. -/
inductive Kind where
  | loadBalancerNotReady | portNotReady | kuryrLoadBalancerNotCreated
  | conflict (response : Body)
  /-- Any other class; whether it is an `Exception`. -/
  | other (isException : Bool)
deriving DecidableEq, Repr

/-- An exception of the handler. -/
structure HandlerExc where
  className : String
  kind : Kind
  /-- An instance of one of the configured `exceptions`. -/
  configured : Bool
deriving DecidableEq, Repr

/-- The failures counted by the exporter. -/
inductive Metric where
  | lbFailure | portFailure
deriving DecidableEq, Repr

/-- `cls_map` (retry.py:89–90). -/
def clsMap (className : String) : Option Metric :=
  if className = "LoadBalancerNotReady" then some .lbFailure
  else if className = "PortNotReady" then some .portFailure
  else none

/-! ## The loop -/

/-- What the Kubernetes API answers about the object. A client error is one that `Retry`
expects, `requests.ConnectionError` among them. -/
inductive GetAnswer where
  | found | notFound | clientError | raised
deriving DecidableEq, Repr

/-- An attempt: the answer about the object, if it is asked for, and what the handler
raises, if it does. -/
structure Attempt where
  get : GetAnswer
  call : Option HandlerExc
deriving DecidableEq, Repr

/-- An event: its type, and the link of its object, if it has one of a known kind. -/
structure Event where
  type : Option String
  link : Option String
deriving DecidableEq, Repr

/-- Everything a call of `Retry` is told from outside. `now k` is the time read when the
failure of attempt `k` is handled; between two such times lies at least what was slept. -/
structure Run where
  event : Event
  timeout : ℚ
  interval : ℚ
  timeout_nonneg : 0 ≤ timeout
  interval_pos : 0 < interval
  attempts : Nat → Attempt
  jitter : Nat → Nat
  jitter_le : ∀ k, jitter k ≤ defaultJitter
  start : ℚ
  now : Nat → ℚ
  start_le : start ≤ now 0
  advances : ∀ k, now k +
    exponentialSleep (start + timeout) (now k) (k + 1) interval (jitter k) ≤ now (k + 1)

/-- What leaves `Retry`: an exception of the handler, one of the lookup, or one that
comes up while an exception of the handler is looked at. -/
inductive Raised where
  | handler (k : Nat) (e : HandlerExc)
  | lookup (k : Nat)
  | keyError (k : Nat)
  | typeError (k : Nat)
deriving DecidableEq, Repr

inductive Outcome where
  | returned
  | raised (r : Raised)
deriving DecidableEq, Repr

/-- What `Retry` does. -/
inductive Act where
  | foundGone (k : Nat)
  | called (k : Nat) (result : Option HandlerExc)
  | slept (seconds : ℚ)
  | recorded (m : Metric)
  | setLiveness (alive : Bool)
deriving DecidableEq, Repr

namespace Run

variable (R : Run)

def deadline : ℚ := R.start + R.timeout

/-- The answer about the object before attempt `k` (retry.py:61–81). -/
def lookup (k : Nat) : GetAnswer :=
  if R.event.type = some "MODIFIED" ∨ R.event.type = some "ADDED" then
    match R.event.link with
    | some _ => (R.attempts k).get
    | none => .found
  else .found

/-- `_sleep` (retry.py:123–137): the time slept, `0` when none is left. -/
def sleep (k : Nat) : ℚ :=
  exponentialSleep R.deadline (R.now k) (k + 1) R.interval (R.jitter k)

/-- Another attempt after a sleep; without one, `r` is raised. -/
def sleepOr (k : Nat) (acts : List Act) (r : Raised) : List Act × Option Outcome :=
  if R.sleep k ≠ 0 then ([.slept (R.sleep k)], none) else (acts, some (.raised r))

/-- The `except` clauses (retry.py:87–121). -/
def onException (k : Nat) (e : HandlerExc) : List Act × Option Outcome :=
  match e.kind with
  | .loadBalancerNotReady | .portNotReady =>
    match clsMap e.className with
    | some m => R.sleepOr k [.recorded m] (.handler k e)
    | none => R.sleepOr k [] (.keyError k)
  | .kuryrLoadBalancerNotCreated => R.sleepOr k [] (.handler k e)
  | .conflict response =>
    match getNeutronErrorType response with
    | .error _ => ([], some (.raised (.typeError k)))
    | .ok type =>
      if type = some "OverQuota" then R.sleepOr k [] (.handler k e)
      else ([], some (.raised (.handler k e)))
  | .other isException =>
    if e.configured then R.sleepOr k [.setLiveness false] (.handler k e)
    else if isException then ([.setLiveness false], some (.raised (.handler k e)))
    else ([], some (.raised (.handler k e)))

/-- One attempt of `__call__` (retry.py:60–121); without an outcome there is another. -/
def step (k : Nat) : List Act × Option Outcome :=
  match R.lookup k with
  | .notFound => ([.foundGone k], some .returned)
  | .raised => ([], some (.raised (.lookup k)))
  | .found | .clientError =>
    match (R.attempts k).call with
    | none => ([.called k none], some .returned)
    | some e => (.called k (some e) :: (R.onException k e).1, (R.onException k e).2)

/-- `__call__`, with fuel. -/
def call (fuel : Nat) : Option (List Act × Outcome) := Loop.attempts R.step fuel 0

end Run

/-! ## When there is another attempt -/

/-- What is worth another attempt while time is left. -/
def HandlerExc.retried (e : HandlerExc) : Prop :=
  match e.kind with
  | .loadBalancerNotReady | .portNotReady | .kuryrLoadBalancerNotCreated => True
  | .conflict response => getNeutronErrorType response = .ok (some "OverQuota")
  | .other _ => e.configured = true

/-- What is not: a conflict that is not over quota, or an exception outside the not-ready
classes and the configured ones. -/
def HandlerExc.final (e : HandlerExc) : Prop :=
  match e.kind with
  | .loadBalancerNotReady | .portNotReady | .kuryrLoadBalancerNotCreated => False
  | .conflict response => getNeutronErrorType response ≠ .ok (some "OverQuota")
  | .other _ => e.configured = false

theorem HandlerExc.not_final_of_retried {e : HandlerExc} (h : e.retried) : ¬ e.final := by
  unfold HandlerExc.retried at h
  unfold HandlerExc.final
  cases hk : e.kind <;> simp_all

namespace Run

variable {R : Run}

/-- The object was not found to be gone, and the lookup raised nothing unexpected. -/
def goesOn (R : Run) (k : Nat) : Prop := R.lookup k = .found ∨ R.lookup k = .clientError

theorem sleep_ne_zero_iff {k : Nat} : R.sleep k ≠ 0 ↔ R.now k < R.deadline :=
  exponentialSleep_pos_iff R.interval_pos

theorem sleepOr_eq_none_iff {k : Nat} {acts : List Act} {r : Raised} :
    (R.sleepOr k acts r).2 = none ↔ R.now k < R.deadline := by
  rw [← sleep_ne_zero_iff, sleepOr]
  split <;> simp_all

/-- **An exception leads to another attempt exactly when it is worth one and time is
left.** -/
theorem onException_eq_none_iff {k : Nat} {e : HandlerExc} :
    (R.onException k e).2 = none ↔ e.retried ∧ R.now k < R.deadline := by
  unfold onException HandlerExc.retried
  cases e.kind with
  | loadBalancerNotReady =>
    cases clsMap e.className <;> simp [sleepOr_eq_none_iff]
  | portNotReady =>
    cases clsMap e.className <;> simp [sleepOr_eq_none_iff]
  | kuryrLoadBalancerNotCreated => simp [sleepOr_eq_none_iff]
  | conflict response =>
    cases ht : getNeutronErrorType response with
    | error x => simp [ht]
    | ok type =>
      by_cases h : type = some "OverQuota"
      · simp [ht, h, sleepOr_eq_none_iff]
      · simp [ht, h]
  | other isException =>
    by_cases h : e.configured = true
    · simp [h, sleepOr_eq_none_iff]
    · cases isException <;> simp [h]

theorem step_of_goesOn {k : Nat} (h : R.goesOn k) :
    R.step k = match (R.attempts k).call with
      | none => ([.called k none], some .returned)
      | some e => (.called k (some e) :: (R.onException k e).1, (R.onException k e).2) := by
  unfold step
  rcases h with h | h <;> rw [h]

/-- Before an attempt the object is found to be gone, or the lookup raises, or the attempt
is made. -/
theorem lookup_cases (R : Run) (k : Nat) :
    (R.lookup k = .notFound ∧ ¬ R.goesOn k ∧ R.step k = ([.foundGone k], some .returned)) ∨
      (R.lookup k = .raised ∧ ¬ R.goesOn k ∧ R.step k = ([], some (.raised (.lookup k)))) ∨
      R.goesOn k := by
  unfold goesOn step
  cases R.lookup k <;> simp

/-- **One attempt: when there is another one.** -/
theorem step_eq_none_iff {k : Nat} :
    (R.step k).2 = none ↔
      R.goesOn k ∧ ∃ e, (R.attempts k).call = some e ∧ e.retried ∧ R.now k < R.deadline := by
  rcases R.lookup_cases k with ⟨-, hnot, hstep⟩ | ⟨-, hnot, hstep⟩ | hgo
  · simp [hstep, hnot]
  · simp [hstep, hnot]
  · rw [step_of_goesOn hgo]
    cases (R.attempts k).call with
    | none => simp
    | some e => simp [hgo, onException_eq_none_iff]

/-- The run gets to attempt `k`: every attempt before failed with an exception worth
another one while time was left. -/
def Reaches (R : Run) (k : Nat) : Prop :=
  ∀ j < k, R.goesOn j ∧ ∃ e, (R.attempts j).call = some e ∧ e.retried ∧ R.now j < R.deadline

theorem reaches_iff {k : Nat} : R.Reaches k ↔ ∀ j < k, (R.step j).2 = none :=
  forall₂_congr fun _ _ => step_eq_none_iff.symm

/-! ## How many there are -/

/-- **Every attempt that is followed by another costs at least the interval.** -/
theorem start_add_le_now : ∀ {k : Nat}, R.Reaches k → R.start + k * R.interval ≤ R.now k
  | 0, _ => by simpa using R.start_le
  | k + 1, h => by
    -- attempt `k` was followed by another, so it slept, and no less than the interval
    have hk := start_add_le_now fun j hj => h j (Nat.lt_succ_of_lt hj)
    obtain ⟨-, e, -, -, hnow⟩ := h k (Nat.lt_succ_self k)
    have hsleep : R.interval ≤ R.sleep k := interval_le_exponentialSleep hnow
    have hadv : R.now k + R.sleep k ≤ R.now (k + 1) := R.advances k
    push_cast
    linarith

theorem reaches_le {k : Nat} (h : R.Reaches k) : k ≤ ⌈R.timeout / R.interval⌉₊ := by
  cases k with
  | zero => exact Nat.zero_le _
  | succ k =>
    -- the last attempt before this one was still in time
    have hk := start_add_le_now fun j hj => h j (Nat.lt_succ_of_lt hj)
    obtain ⟨-, e, -, -, hnow⟩ := h k (Nat.lt_succ_self k)
    have hdeadline : R.deadline = R.start + R.timeout := rfl
    have hlt : (k : ℚ) * R.interval < R.timeout := by linarith
    exact Nat.lt_ceil.mpr ((lt_div_iff₀ R.interval_pos).mpr hlt)

/-! ## What the loop reports -/

end Run

/-- A call of the handler: its attempt, and what it raised. -/
def Act.call? : Act → Option (Nat × Option HandlerExc)
  | .called k result => some (k, result)
  | _ => none

/-- The calls of the handler, in order. -/
def calls (trace : List Act) : List (Nat × Option HandlerExc) := trace.filterMap Act.call?

/-- The loop ends, and reports how: it returns exactly when the last call succeeded or the
object was found to be gone, and raises nothing but what the last call raised. The calls
are bounded, and there is none after a final exception. -/
structure Reported (R : Run) (trace : List Act) (outcome : Outcome) : Prop where
  bounded : (calls trace).length ≤ ⌈R.timeout / R.interval⌉₊ + 1
  returns : outcome = .returned ↔
    (∃ k, (calls trace).getLast? = some (k, none)) ∨ ∃ k, .foundGone k ∈ trace
  raises : ∀ r, outcome = .raised r →
    ∃ k e, (calls trace).getLast? = some (k, some e) ∧ r = .handler k e
  stops : ∀ front k e back, calls trace = front ++ (k, some e) :: back → e.final → back = []

/-- With enough fuel the call ends, always the same way, and reports it. -/
def Reports (R : Run) : Prop :=
  ∃ trace outcome, (∃ n, ∀ fuel, n ≤ fuel → R.call fuel = some (trace, outcome)) ∧
    Reported R trace outcome

/-- Looking at an exception raises another one: a subclass of a not-ready class has no
counter when the time is over, or the response of a conflict cannot be subscripted. -/
def Run.Trips (R : Run) (k : Nat) (e : HandlerExc) : Prop :=
  match e.kind with
  | .loadBalancerNotReady | .portNotReady => clsMap e.className = none ∧ R.deadline ≤ R.now k
  | .conflict response => getNeutronErrorType response = .error .typeError
  | .kuryrLoadBalancerNotCreated | .other _ => False

/-- What goes wrong at an attempt: the lookup of the object raises what `Retry` does not
expect of it, or looking at the exception of the handler raises another one. -/
def Run.Defect (R : Run) (k : Nat) : Prop :=
  R.lookup k = .raised ∨ R.goesOn k ∧ ∃ e, (R.attempts k).call = some e ∧ R.Trips k e

namespace Run

variable {R : Run}

/-- The calls of one attempt. -/
def callsAt (R : Run) (k : Nat) : List (Nat × Option HandlerExc) :=
  match R.lookup k with
  | .notFound | .raised => []
  | .found | .clientError => [(k, (R.attempts k).call)]

theorem calls_append (l l' : List Act) : calls (l ++ l') = calls l ++ calls l' :=
  List.filterMap_append ..

theorem sleepOr_acts {k : Nat} {acts : List Act} {r : Raised} {P : Act → Prop}
    (hs : ∀ s, P (.slept s)) (ha : ∀ a ∈ acts, P a) : ∀ a ∈ (R.sleepOr k acts r).1, P a := by
  rw [sleepOr]
  split
  · simpa using hs _
  · exact ha

/-- Looking at an exception neither calls the handler nor looks the object up. -/
theorem onException_acts (k : Nat) (e : HandlerExc) :
    ∀ a ∈ (R.onException k e).1, a.call? = none ∧ ∀ j, a ≠ .foundGone j := by
  have hslept : ∀ s, (Act.slept s).call? = none ∧ ∀ j, Act.slept s ≠ .foundGone j :=
    fun s => ⟨rfl, fun j => by simp⟩
  unfold onException
  split
  · split
    · exact sleepOr_acts hslept (by simp [Act.call?])
    · exact sleepOr_acts hslept (by simp)
  · split
    · exact sleepOr_acts hslept (by simp [Act.call?])
    · exact sleepOr_acts hslept (by simp)
  · exact sleepOr_acts hslept (by simp)
  · split
    · simp
    · split
      · exact sleepOr_acts hslept (by simp)
      · simp
  · split
    · exact sleepOr_acts hslept (by simp [Act.call?])
    · split <;> simp [Act.call?]

theorem calls_onException (k : Nat) (e : HandlerExc) : calls (R.onException k e).1 = [] :=
  List.filterMap_eq_nil_iff.mpr fun a ha => (onException_acts k e a ha).1

theorem callsAt_of_goesOn {k : Nat} (h : R.goesOn k) :
    R.callsAt k = [(k, (R.attempts k).call)] := by
  unfold callsAt
  rcases h with h | h <;> rw [h]

theorem calls_step (k : Nat) : calls (R.step k).1 = R.callsAt k := by
  have hcalled : ∀ l r, calls (.called k r :: l) = (k, r) :: calls l := fun _ _ => rfl
  rcases R.lookup_cases k with ⟨hl, -, hstep⟩ | ⟨hl, -, hstep⟩ | hgo
  · rw [hstep, callsAt, hl]
    rfl
  · rw [hstep, callsAt, hl]
    rfl
  · rw [step_of_goesOn hgo, callsAt_of_goesOn hgo]
    cases (R.attempts k).call with
    | none => rfl
    | some e => simp only [hcalled, calls_onException]

theorem foundGone_mem_step {j k : Nat} :
    .foundGone j ∈ (R.step k).1 ↔ j = k ∧ R.lookup k = .notFound := by
  -- only the lookup finds the object gone
  have hexc : ∀ e, ¬ .foundGone j ∈ (R.onException k e).1 :=
    fun e h => (onException_acts k e _ h).2 j rfl
  rcases R.lookup_cases k with ⟨hl, -, hstep⟩ | ⟨hl, -, hstep⟩ | hgo
  · simp [hstep, hl]
  · simp [hstep, hl]
  · have hl : R.lookup k ≠ .notFound := by rcases hgo with h | h <;> simp [h]
    rw [step_of_goesOn hgo]
    cases (R.attempts k).call <;> simp [hexc, hl]

theorem getNeutronErrorType_error {b : Body} {x : Exc} (h : getNeutronErrorType b = .error x) :
    x = .typeError := by
  unfold getNeutronErrorType at h
  split at h <;> cases h <;> rfl

/-- When the time is up, the exception at hand leaves the handler. -/
theorem sleepOr_raised {k : Nat} {acts : List Act} {r : Raised} {out : Outcome}
    (h : (R.sleepOr k acts r).2 = some out) : R.deadline ≤ R.now k ∧ out = .raised r := by
  refine ⟨not_lt.mp fun hlt => ?_, ?_⟩
  · rw [sleepOr_eq_none_iff.mpr hlt] at h
    cases h
  · rw [sleepOr] at h
    split at h
    · cases h
    · exact (Option.some.inj h).symm

/-- **What is raised when there is no other attempt**: the exception itself, unless looking
at it raises another one. -/
theorem onException_raises {k : Nat} {e : HandlerExc} {out : Outcome}
    (h : (R.onException k e).2 = some out) :
    (¬ R.Trips k e ∧ out = .raised (.handler k e)) ∨
      (R.Trips k e ∧ ∃ r, out = .raised r ∧ ∀ j e', r ≠ .handler j e') := by
  unfold onException at h
  unfold Trips
  cases hkind : e.kind with
  | loadBalancerNotReady | portNotReady =>
    simp only [hkind] at h
    cases hcls : clsMap e.className with
    | some m =>
      rw [hcls] at h
      exact .inl ⟨fun hn => by simp at hn, (sleepOr_raised h).2⟩
    -- the counter of a subclass is looked up by its name, which `cls_map` has not got
    | none =>
      rw [hcls] at h
      exact .inr ⟨⟨rfl, (sleepOr_raised h).1⟩, _, (sleepOr_raised h).2, by simp⟩
  | kuryrLoadBalancerNotCreated =>
    simp only [hkind] at h
    exact .inl ⟨id, (sleepOr_raised h).2⟩
  | conflict response =>
    simp only [hkind] at h
    cases htype : getNeutronErrorType response with
    -- the response cannot be subscripted
    | error x =>
      rw [htype] at h
      refine .inr ⟨?_, _, (Option.some.inj h).symm, by simp⟩
      show getNeutronErrorType response = .error .typeError
      rw [htype, getNeutronErrorType_error htype]
    | ok type =>
      rw [htype] at h
      refine .inl ⟨by simp [htype], ?_⟩
      dsimp only at h
      split at h
      · exact (sleepOr_raised h).2
      · exact (Option.some.inj h).symm
  | other isException =>
    simp only [hkind] at h
    refine .inl ⟨id, ?_⟩
    split at h
    · exact (sleepOr_raised h).2
    · split at h
      · exact (Option.some.inj h).symm
      · exact (Option.some.inj h).symm

/-- **One attempt: how the run ends there**, when nothing goes wrong. -/
theorem step_ends {k : Nat} {out : Outcome} (h : (R.step k).2 = some out) (hd : ¬ R.Defect k) :
    (R.lookup k = .notFound ∧ out = .returned) ∨
      (R.goesOn k ∧ (R.attempts k).call = none ∧ out = .returned) ∨
      (R.goesOn k ∧ ∃ e, (R.attempts k).call = some e ∧ out = .raised (.handler k e)) := by
  rcases R.lookup_cases k with ⟨hl, -, hstep⟩ | ⟨hl, -, -⟩ | hgo
  · rw [hstep] at h
    exact .inl ⟨hl, (Option.some.inj h).symm⟩
  · exact absurd (.inl hl) hd
  · rw [step_of_goesOn hgo] at h
    cases hc : (R.attempts k).call with
    | none =>
      rw [hc] at h
      exact .inr (.inl ⟨hgo, rfl, (Option.some.inj h).symm⟩)
    | some e =>
      rw [hc] at h
      rcases onException_raises h with ⟨-, hout⟩ | ⟨htrips, -⟩
      · exact .inr (.inr ⟨hgo, e, rfl, hout⟩)
      · exact absurd (.inr ⟨hgo, e, hc, htrips⟩) hd

/-- **What goes wrong is what is raised**, and not the exception of the handler. -/
theorem Defect.raises {k : Nat} {out : Outcome} (hd : R.Defect k) (h : (R.step k).2 = some out) :
    ∃ r, out = .raised r ∧ ∀ j e, r ≠ .handler j e := by
  rcases hd with hd | ⟨hgo, e, hc, htrips⟩
  · rw [step, hd] at h
    exact ⟨_, (Option.some.inj h).symm, by simp⟩
  · rw [step_of_goesOn hgo, hc] at h
    rcases onException_raises h with ⟨hnot, -⟩ | ⟨-, hout⟩
    · exact absurd htrips hnot
    · exact hout

theorem Defect.stops {k : Nat} (h : R.Defect k) : (R.step k).2 ≠ none := by
  intro hnone
  obtain ⟨hgo, e, hc, hretried, hnow⟩ := step_eq_none_iff.mp hnone
  rcases h with h | ⟨-, e', hc', htrips⟩
  · rcases hgo with hgo | hgo <;> rw [h] at hgo <;> cases hgo
  · rw [hc] at hc'
    cases hc'
    unfold Trips at htrips
    unfold HandlerExc.retried at hretried
    split at htrips
    · exact absurd hnow (not_lt.mpr htrips.2)
    · exact absurd hnow (not_lt.mpr htrips.2)
    · next hkind =>
      simp only [hkind] at hretried
      rw [htrips] at hretried
      cases hretried
    · exact htrips
    · exact htrips

/-! ## Runs -/

/-- What the run has done when attempt `k` is over. -/
def traceTo (R : Run) (k : Nat) : List Act := Loop.trace R.step (k + 1)

theorem call_eq {k fuel : Nat} {out : Outcome} (h : R.Reaches k) (hstop : (R.step k).2 = some out)
    (hfuel : k < fuel) : R.call fuel = some (R.traceTo k, out) :=
  Loop.attempts_eq (reaches_iff.mp h) hstop hfuel

/-- **Every run comes to an end**, after no more attempts than time and interval allow. -/
theorem exists_last (R : Run) :
    ∃ k out, R.Reaches k ∧ (R.step k).2 = some out ∧ k ≤ ⌈R.timeout / R.interval⌉₊ := by
  obtain ⟨k, out, hgo, hstop, hk⟩ :=
    Loop.exists_first fun k hk => reaches_le (reaches_iff.mpr hk)
  exact ⟨k, out, reaches_iff.mpr hgo, hstop, hk⟩

/-- The calls before attempt `k`, one for each attempt. -/
theorem calls_before {k : Nat} (h : R.Reaches k) :
    calls (Loop.trace R.step k) = (List.range k).map fun j => (j, (R.attempts j).call) := by
  induction k with
  | zero => rfl
  | succ k ih =>
    rw [Loop.trace_succ, calls_append, ih fun j hj => h j (Nat.lt_succ_of_lt hj), calls_step,
      callsAt_of_goesOn (h k (Nat.lt_succ_self k)).1, List.range_succ, List.map_append]
    rfl

theorem calls_traceTo {k : Nat} (h : R.Reaches k) :
    calls (R.traceTo k) =
      ((List.range k).map fun j => (j, (R.attempts j).call)) ++ R.callsAt k := by
  rw [traceTo, Loop.trace_succ, calls_append, calls_before h, calls_step]

theorem foundGone_mem_traceTo {k : Nat} (h : R.Reaches k) :
    (∃ j, .foundGone j ∈ R.traceTo k) ↔ R.lookup k = .notFound := by
  constructor
  · rintro ⟨j, hj⟩
    obtain ⟨i, hi, hmem⟩ := List.mem_flatMap.mp hj
    obtain ⟨-, hgone⟩ := foundGone_mem_step.mp hmem
    rcases Nat.lt_succ_iff_lt_or_eq.mp (List.mem_range.mp hi) with hi | rfl
    · rcases (h i hi).1 with hgo | hgo <;> rw [hgone] at hgo <;> cases hgo
    · exact hgone
  · intro hgone
    exact ⟨k, List.mem_flatMap.mpr ⟨k, List.mem_range.mpr (Nat.lt_succ_self k),
      foundGone_mem_step.mpr ⟨rfl, hgone⟩⟩⟩

/-- The calls before the last attempt all failed with an exception worth another one. -/
theorem retried_of_mem_before {k : Nat} (h : R.Reaches k) {c : Nat × Option HandlerExc}
    (hc : c ∈ (List.range k).map fun j => (j, (R.attempts j).call)) :
    ∃ e, c.2 = some e ∧ e.retried := by
  obtain ⟨j, hj, rfl⟩ := List.mem_map.mp hc
  obtain ⟨-, e, he, hretried, -⟩ := h j (List.mem_range.mp hj)
  exact ⟨e, he, hretried⟩

theorem length_callsAt_le (k : Nat) : (R.callsAt k).length ≤ 1 := by
  unfold callsAt
  split <;> simp

theorem getLast?_calls_eq {k : Nat} (h : R.Reaches k) (hgo : R.goesOn k) :
    (calls (R.traceTo k)).getLast? = some (k, (R.attempts k).call) := by
  rw [calls_traceTo h, callsAt_of_goesOn hgo, List.getLast?_append]
  rfl

/-- Behind a final exception there is no call. -/
theorem back_eq_nil {k : Nat} (h : R.Reaches k) {front back : List (Nat × Option HandlerExc)}
    {j : Nat} {e : HandlerExc} (heq : calls (R.traceTo k) = front ++ (j, some e) :: back)
    (hfinal : e.final) : back = [] := by
  by_contra hne
  -- the call is followed by another one, so it is none of the last attempt
  have hmem : (j, some e) ∈ (calls (R.traceTo k)).dropLast := by
    rw [heq, List.dropLast_append_of_ne_nil (List.cons_ne_nil _ _),
      List.dropLast_cons_of_ne_nil hne]
    exact List.mem_append_right _ List.mem_cons_self
  have hbefore : (j, some e) ∈ (List.range k).map fun i => (i, (R.attempts i).call) := by
    rw [calls_traceTo h] at hmem
    have hlen : (R.callsAt k).length ≤ 1 := length_callsAt_le k
    rcases hat : R.callsAt k with - | ⟨c, - | ⟨c', l⟩⟩
    · rw [hat, List.append_nil] at hmem
      exact (List.dropLast_sublist _).subset hmem
    · rwa [hat, List.dropLast_concat] at hmem
    · rw [hat] at hlen
      simp at hlen
  obtain ⟨e', he', hretried⟩ := retried_of_mem_before h hbefore
  cases he'
  exact HandlerExc.not_final_of_retried hretried hfinal

/-- **The end of a run is reported exactly when nothing went wrong at its last attempt.** -/
theorem reported_iff {k : Nat} {out : Outcome} (h : R.Reaches k)
    (hstop : (R.step k).2 = some out) (hk : k ≤ ⌈R.timeout / R.interval⌉₊) :
    Reported R (R.traceTo k) out ↔ ¬ R.Defect k := by
  constructor
  · intro hrep hdefect
    obtain ⟨r, hout, hr⟩ := hdefect.raises hstop
    obtain ⟨j, e, -, heq⟩ := hrep.raises r hout
    exact hr j e heq
  · intro hdefect
    have hbounded : (calls (R.traceTo k)).length ≤ ⌈R.timeout / R.interval⌉₊ + 1 := by
      have hlast : (R.callsAt k).length ≤ 1 := length_callsAt_le k
      rw [calls_traceTo h, List.length_append, List.length_map, List.length_range]
      omega
    have hstops : ∀ front j e back, calls (R.traceTo k) = front ++ (j, some e) :: back →
        e.final → back = [] := fun _ _ _ _ heq hfinal => back_eq_nil h heq hfinal
    rcases step_ends hstop hdefect with ⟨hgone, rfl⟩ | ⟨hgo, hc, rfl⟩ | ⟨hgo, e, hc, rfl⟩
    · refine ⟨hbounded, iff_of_true rfl (.inr ((foundGone_mem_traceTo h).mpr hgone)), ?_, hstops⟩
      rintro r ⟨⟩
    · have hlast := getLast?_calls_eq h hgo
      rw [hc] at hlast
      refine ⟨hbounded, iff_of_true rfl (.inl ⟨k, hlast⟩), ?_, hstops⟩
      rintro r ⟨⟩
    · have hlast := getLast?_calls_eq h hgo
      rw [hc] at hlast
      refine ⟨hbounded, iff_of_false (by simp) ?_, ?_, hstops⟩
      · rintro (⟨j, hj⟩ | hgone)
        · rw [hlast] at hj
          cases hj
        · rw [foundGone_mem_traceTo h] at hgone
          rcases hgo with hgo | hgo <;> rw [hgone] at hgo <;> cases hgo
      · rintro r ⟨⟩
        exact ⟨k, e, hlast, rfl⟩

end Run

/-- An attempt the run gets to and where something goes wrong is the last one, and what
went wrong is what is raised. -/
theorem not_reports_of_defect {R : Run} {k : Nat} (hk : R.Reaches k) (hdefect : R.Defect k) :
    ¬ Reports R := by
  rintro ⟨trace, outcome, ⟨n, hn⟩, hrep⟩
  obtain ⟨last, out, hreach, hstop, hlast⟩ := R.exists_last
  obtain rfl : k = last := by
    rcases Nat.lt_trichotomy k last with hlt | heq | hgt
    · exact absurd (Run.reaches_iff.mp hreach k hlt) hdefect.stops
    · exact heq
    · rw [Run.reaches_iff.mp hk last hgt] at hstop
      cases hstop
  have hrun := (hn (max n (k + 1)) (le_max_left _ _)).symm.trans
    (Run.call_eq hreach hstop (Nat.lt_of_succ_le (le_max_right _ _)))
  cases hrun
  exact (Run.reported_iff hreach hstop hlast).mp hrep hdefect

/-- **Exactly when `Retry` ends and reports the last outcome**: at no attempt the run gets
to does the lookup of the object raise something unexpected, or looking at the exception
of the handler raise another one. -/
theorem reports_iff (R : Run) : Reports R ↔ ∀ k, R.Reaches k → ¬ R.Defect k := by
  constructor
  · exact fun h k hk hdefect => not_reports_of_defect hk hdefect h
  · intro h
    obtain ⟨last, out, hreach, hstop, hlast⟩ := R.exists_last
    exact ⟨R.traceTo last, out, ⟨last + 1, fun fuel hfuel => Run.call_eq hreach hstop hfuel⟩,
      (Run.reported_iff hreach hstop hlast).mpr (h last hreach)⟩

/-- A load balancer that is not ready yet, and an API server that does not answer in time
when `Retry` asks for the Service before the second attempt. -/
def slowServer : Run where
  event := ⟨some "MODIFIED", some "/api/v1/namespaces/default/services/web"⟩
  timeout := 500
  interval := 1
  timeout_nonneg := by norm_num
  interval_pos := by norm_num
  attempts
    | 0 => ⟨.found, some ⟨"LoadBalancerNotReady", .loadBalancerNotReady, true⟩⟩
    | _ => ⟨.raised, none⟩
  jitter _ := 0
  jitter_le _ := Nat.zero_le _
  start := 0
  now
    | 0 => 5
    | _ => 500
  start_le := by norm_num
  advances
    | 0 => by norm_num [exponentialSleep, exponentialBackoff, maxBackoff, maxAttempts]
    | k + 1 => by rw [exponentialSleep_eq_zero (by norm_num)]; norm_num

/-- The time-out of the lookup is raised, though the handler may well succeed, and though
its only call raised something else. -/
theorem slow_lookup_raised :
    ¬ Reports slowServer ∧ (slowServer.call 2).map (·.2) = some (.raised (.lookup 1)) := by
  have hlookup : slowServer.lookup 1 = .raised := by decide
  have hgo : slowServer.goesOn 0 := .inl (by decide)
  have hnow : slowServer.now 0 < slowServer.deadline := by
    show (5 : ℚ) < 0 + 500
    norm_num
  have hreach : slowServer.Reaches 1 := by
    intro j hj
    obtain rfl : j = 0 := by omega
    exact ⟨hgo, _, rfl, trivial, hnow⟩
  refine ⟨not_reports_of_defect hreach (.inl hlookup), ?_⟩
  have hstop : (slowServer.step 1).2 = some (.raised (.lookup 1)) := by rw [Run.step, hlookup]
  rw [Run.call_eq hreach hstop (by omega)]
  rfl

end Retry
end KuryrKubernetes
