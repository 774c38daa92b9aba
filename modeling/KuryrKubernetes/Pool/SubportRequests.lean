import KuryrKubernetes.Pool.Vlans

/-!
# The requests of `_add_subport`

`_add_subport` (`controller/drivers/nested_vlan_vif.py`) asks Neutron to attach a port to a
trunk, and asks again with another VLAN id when Neutron answers with a conflict. It keeps
the body of the request in the variable that had the port id, so the second body has the
first one in the place of the port id.

- `PortValue`: what `port_id` may be, a port id or the body of an earlier request.
- `Attempt`: the answers in one attempt, and what others do to the reserved ids meanwhile.
- `Sent`: a request with the VLAN id obtained for it.
- `FreshRetries`: what the docstring says of the requests and of the result.
- `add_subport_fresh_iff`: this is so exactly if there is no second request.
-/

namespace KuryrKubernetes

namespace NestedVlan

/-! ## The function -/

/-- The variable `subport`: a port id, or a list of one entry. -/
inductive PortValue where
  | id (port : PortId)
  | entry (segmentationId : Nat) (portId : PortValue)
deriving DecidableEq, Repr

/-- The entries of a body: VLAN id and port id. -/
def PortValue.entries : PortValue → List (Nat × PortValue)
  | .id _ => []
  | .entry v port => [(v, port)]

/-- The answers in one attempt: `get_trunk` with the VLAN ids in use, and
`add_trunk_subports`. `meanwhile` is what others do to the reserved ids before the next. -/
structure Attempt where
  trunk : Except Sdk (List Nat)
  add : Except Raised Unit
  meanwhile : List Nat → List Nat

/-- A request, with the VLAN id `_get_vlan_id` returned in the same attempt. -/
structure Sent where
  vlanId : Nat
  body : PortValue
  answer : Except Raised Unit

def Sent.conflict (s : Sent) : Bool :=
  match s.answer with
  | .error (.sdk .conflict) => true
  | _ => false

/-- What a call leaves: its requests, the reserved ids, and its result. -/
structure Attachment where
  sent : List Sent
  reserved : List Nat
  result : Except Raised Nat

/-- `_get_vlan_id`. -/
def getVlanId (alloc : Allocator) (a : Attempt) (reserved : List Nat) : Except Raised Nat :=
  match a.trunk with
  | .error e => .error (.sdk e)
  | .ok inUse =>
    match alloc.pick reserved inUse with
    | none => .error .allocationFailure
    | some v => .ok v

/-- The requested VLAN id, or a new one. -/
def vlanIdFor (alloc : Allocator) (requested : Option Nat) (a : Attempt) (reserved : List Nat) :
    List Nat × Except Raised Nat :=
  match requested with
  | some v => (reserved, .ok v)
  | none =>
    match getVlanId alloc a reserved with
    | .error e => (reserved, .error e)
    | .ok v => (v :: reserved, .ok v)

/-- The loop of `_add_subport` (nested_vlan_vif.py:241–274), with the number of retries that
are left. -/
def attach (alloc : Allocator) (requested : Option Nat) (answers : Nat → Attempt) :
    Nat → Nat → PortValue → List Nat → Attachment
  | retries, n, subport, reserved =>
    match vlanIdFor alloc requested (answers n) reserved with
    | (reserved, .error e) => ⟨[], reserved, .error e⟩
    | (reserved, .ok v) =>
      let subport := .entry v subport
      let sent := ⟨v, subport, (answers n).add⟩
      match (answers n).add, retries with
      | .ok (), _ => ⟨[sent], reserved, .ok v⟩
      | .error (.sdk .conflict), 0 => ⟨[sent], reserved, .error (.sdk .conflict)⟩
      | .error (.sdk .conflict), retries + 1 =>
        if requested.isSome then ⟨[sent], reserved, .error (.sdk .conflict)⟩
        else
          let rest := attach alloc requested answers retries (n + 1) subport
            ((answers n).meanwhile reserved)
          { rest with sent := sent :: rest.sent }
      -- other SDK errors release the id
      | .error (.sdk e), _ => ⟨[sent], reserved.filter (· ≠ v), .error (.sdk e)⟩
      | .error e, _ => ⟨[sent], reserved, .error e⟩

/-- `_add_subport`; `retry_count` goes from 1 to `DEFAULT_MAX_RETRY_COUNT`. -/
def requestSubport (alloc : Allocator) (requested : Option Nat) (answers : Nat → Attempt)
    (port : PortId) (reserved : List Nat) : Attachment :=
  attach alloc requested answers (maxRetryCount - 1) 1 (.id port) reserved

/-! ## What the requests are to be -/

/-- Every request is for the port, with a VLAN id of its own, and the one that was accepted
has the id that is returned. -/
structure FreshRetries (port : PortId) (a : Attachment) : Prop where
  entry : ∀ s ∈ a.sent, s.body.entries = [(s.vlanId, .id port)]
  fresh : (a.sent.map Sent.vlanId).Nodup
  conflicts : a.sent.countP Sent.conflict ≤ maxRetryCount
  accepted : ∀ v, a.result = .ok v → ∃ s, a.sent.getLast? = some s ∧
    s.body.entries = [(v, .id port)] ∧ s.answer = .ok ()

/-- There is a second request: the first one is answered with a conflict, and a VLAN id is
found again. -/
def RequestsAgain (alloc : Allocator) (answers : Nat → Attempt) (reserved : List Nat) : Prop :=
  ∃ v v', getVlanId alloc (answers 1) reserved = .ok v ∧
    (answers 1).add = .error (.sdk .conflict) ∧
    getVlanId alloc (answers 2) ((answers 1).meanwhile (v :: reserved)) = .ok v'

section

variable {alloc : Allocator} {answers : Nat → Attempt} {n retries v : Nat} {subport : PortValue}
  {reserved : List Nat} {port : PortId}

theorem attach_error {e : Raised} (h : getVlanId alloc (answers n) reserved = .error e) :
    attach alloc none answers retries n subport reserved = ⟨[], reserved, .error e⟩ := by
  rw [attach]
  simp only [vlanIdFor, h]

/-- Without a conflict there is one request. -/
theorem attach_single (retries : Nat) (subport : PortValue)
    (h : getVlanId alloc (answers n) reserved = .ok v)
    (hadd : (answers n).add ≠ .error (.sdk .conflict)) :
    ∃ reserved' result, attach alloc none answers retries n subport reserved =
        ⟨[⟨v, .entry v subport, (answers n).add⟩], reserved', result⟩ ∧
      ∀ v', result = .ok v' → v' = v ∧ (answers n).add = .ok () := by
  rw [attach]
  simp only [vlanIdFor, h]
  cases hans : (answers n).add with
  | ok u =>
    refine ⟨_, _, rfl, fun v' hv => ?_⟩
    cases hv
    exact ⟨rfl, rfl⟩
  | error e =>
    cases e with
    | sdk e =>
      cases e with
      | conflict => exact absurd hans hadd
      | _ => exact ⟨_, _, rfl, nofun⟩
    | _ => exact ⟨_, _, rfl, nofun⟩

/-- A conflict with retries left. -/
theorem attach_retry (retries : Nat) (subport : PortValue)
    (h : getVlanId alloc (answers n) reserved = .ok v)
    (hadd : (answers n).add = .error (.sdk .conflict)) :
    (attach alloc none answers (retries + 1) n subport reserved).sent =
        ⟨v, .entry v subport, (answers n).add⟩ ::
          (attach alloc none answers retries (n + 1) (.entry v subport)
            ((answers n).meanwhile (v :: reserved))).sent ∧
      (attach alloc none answers (retries + 1) n subport reserved).result =
        (attach alloc none answers retries (n + 1) (.entry v subport)
          ((answers n).meanwhile (v :: reserved))).result := by
  rw [attach]
  simp only [vlanIdFor, h, hadd]
  exact ⟨rfl, rfl⟩

/-- A first attempt that obtains an id sends its body. -/
theorem attach_sends (retries : Nat) (subport : PortValue)
    (h : getVlanId alloc (answers n) reserved = .ok v) :
    ⟨v, .entry v subport, (answers n).add⟩ ∈
      (attach alloc none answers retries n subport reserved).sent := by
  by_cases hadd : (answers n).add = .error (.sdk .conflict)
  · cases retries with
    | zero =>
      rw [attach]
      simp only [vlanIdFor, h, hadd]
      exact List.mem_cons_self
    | succ retries =>
      rw [(attach_retry retries subport h hadd).1]
      exact List.mem_cons_self
  · obtain ⟨reserved', result, heq, -⟩ :=
      attach_single retries subport h hadd
    rw [heq]
    exact List.mem_cons_self

/-- No request, or one for the port that is returned only if it was accepted. -/
theorem FreshRetries.of_single {a : Attachment} {s : Sent} (hsent : a.sent = [] ∨ a.sent = [s])
    (hbody : s.body = .entry s.vlanId (.id port))
    (hresult : ∀ v, a.result = .ok v → a.sent = [s] ∧ v = s.vlanId ∧ s.answer = .ok ()) :
    FreshRetries port a where
  entry := by
    intro s' hs'
    rcases hsent with h | h
    · rw [h] at hs'
      cases hs'
    · rw [h, List.mem_singleton] at hs'
      rw [hs', hbody]
      rfl
  fresh := by
    rcases hsent with h | h
    · rw [h]
      exact List.nodup_nil
    · rw [h]
      exact List.nodup_singleton _
  conflicts := by
    have hlength : a.sent.length ≤ 1 := by
      rcases hsent with h | h
      · rw [h]
        exact Nat.zero_le 1
      · rw [h]
        exact Nat.le_refl 1
    have hcount := List.countP_le_length (p := Sent.conflict) (l := a.sent)
    unfold maxRetryCount
    omega
  accepted := by
    intro v hv
    obtain ⟨h, rfl, hans⟩ := hresult v hv
    refine ⟨s, by rw [h]; rfl, ?_, hans⟩
    rw [hbody]
    rfl

/-- **Retries with a fresh VLAN id** are for the port exactly if there are none. -/
theorem add_subport_fresh_iff (alloc : Allocator) (answers : Nat → Attempt) (port : PortId)
    (reserved : List Nat) :
    FreshRetries port (requestSubport alloc none answers port reserved) ↔
      ¬ RequestsAgain alloc answers reserved := by
  constructor
  · rintro h ⟨v, v', hv, hadd, hv'⟩
    have hsent := (attach_retry 1 (.id port) hv hadd).1
    have hsecond := attach_sends 1 (.entry v (.id port)) hv'
    -- its port id is the body of the first request
    have hentry := h.entry _ (hsent ▸ List.mem_cons_of_mem _ hsecond)
    simp [PortValue.entries] at hentry
  · intro h
    cases hv : getVlanId alloc (answers 1) reserved with
    | error e =>
      have heq : requestSubport alloc none answers port reserved = ⟨[], reserved, .error e⟩ :=
        attach_error hv
      rw [heq]
      exact .of_single (s := ⟨0, .entry 0 (.id port), .ok ()⟩) (.inl rfl) rfl nofun
    | ok v =>
      by_cases hadd : (answers 1).add = .error (.sdk .conflict)
      · cases hv' : getVlanId alloc (answers 2) ((answers 1).meanwhile (v :: reserved)) with
        -- without a second id there is no second request
        | ok v' => exact absurd ⟨v, v', hv, hadd, hv'⟩ h
        | error e =>
          obtain ⟨hsent, hresult⟩ := attach_retry 1 (.id port) hv hadd
          rw [attach_error hv'] at hsent hresult
          refine .of_single (s := ⟨v, .entry v (.id port), (answers 1).add⟩) (.inr hsent) rfl
            fun v' hok => ?_
          rw [requestSubport, maxRetryCount, hresult] at hok
          cases hok
      · obtain ⟨reserved', result, heq, hok⟩ :=
          attach_single (maxRetryCount - 1) (.id port) hv hadd
        rw [requestSubport, heq]
        exact .of_single (.inr rfl) rfl fun v' hv' => ⟨rfl, hok v' hv'⟩

end

/-- The lowest id that is free. -/
def lowestFree : Allocator where
  pick reserved inUse := (List.range 4095).tail.find? fun v => v ∉ reserved ∧ v ∉ inUse
  fresh := by
    intro reserved inUse v h
    simpa using List.find?_some h

/-- Another controller has taken the id 1; the second request is accepted. -/
def takenOnce (n : Nat) : Attempt :=
  if n = 1 then ⟨.ok [], .error (.sdk .conflict), id⟩ else ⟨.ok [1], .ok (), id⟩

/-- The second request does not have the port id. -/
theorem add_subport_nests_body :
    (requestSubport lowestFree none takenOnce "port" []).sent.map Sent.body =
        [.entry 1 (.id "port"), .entry 2 (.entry 1 (.id "port"))] ∧
      ¬ FreshRetries "port" (requestSubport lowestFree none takenOnce "port" []) := by
  have hsent : (requestSubport lowestFree none takenOnce "port" []).sent.map Sent.body =
      [.entry 1 (.id "port"), .entry 2 (.entry 1 (.id "port"))] := by decide +kernel
  refine ⟨hsent, fun h => ?_⟩
  have hmem : PortValue.entry 2 (.entry 1 (.id "port")) ∈
      (requestSubport lowestFree none takenOnce "port" []).sent.map Sent.body := by
    rw [hsent]
    decide
  obtain ⟨s, hs, hbody⟩ := List.mem_map.mp hmem
  have hentry := h.entry s hs
  rw [hbody] at hentry
  simp [PortValue.entries] at hentry

end NestedVlan

end KuryrKubernetes
