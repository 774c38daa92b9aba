import KuryrKubernetes.Handlers.LoadBalancerBuild
import KuryrKubernetes.Lib.Text

/-!
# Listeners on a shared port number

A Service may use one port number for several protocols. `_add_new_listeners` goes through
the ports of the spec by protocol and makes the listeners that are missing. Where Octavia
cannot have two listeners on one number it means to skip a port with a warning, but the
warning indexes a list by a string.

- `Returns`: a driver that always returns a listener, the one for the protocol and number
  it is asked for.
- `addListener`, `addListeners`: the iteration and the loop, on the listeners alone.
- `Added`: the invariant of the loop. `Asked` are the ports the driver is asked for.
- `Separate`: the ports among which the warning is never given.
-/

namespace KuryrKubernetes

namespace LoadBalancer

open Effect

/-- Replies of a driver that always returns a listener. A listener keeps its protocol and its
number, so an id of the status that comes back stands for the same ones. -/
structure Returns (env : Env) (listeners : List Listener) (reply : Protocol × Nat → ListenerReply) :
    Prop where
  patch : ∀ w, env.patchCrd w = .applied
  listener : ∀ w lb p, (env.ensureListener w lb p).outcome = some (some (reply p.slot))
  reply_id : ∀ s s', (reply s).id = (reply s').id → s = s'
  listener_id : ∀ l ∈ listeners, ∀ s, l.id = (reply s).id → l.slot = s

/-- The protocol is SCTP, and Octavia does not know it. -/
def Env.Unsupported (env : Env) (p : SpecPort) : Prop :=
  p.protocol = .SCTP ∧ env.sctpSupported = false

instance (env : Env) (p : SpecPort) : Decidable (env.Unsupported p) :=
  inferInstanceAs (Decidable (_ ∧ _))

/-- One of the listeners is for the port and has the timeouts of the spec. -/
def Served (spec : Spec) (listeners : List Listener) (p : SpecPort) : Prop :=
  ∃ l ∈ listeners, l.Serves spec p

instance (spec : Spec) (listeners : List Listener) (p : SpecPort) :
    Decidable (Served spec listeners p) :=
  inferInstanceAs (Decidable (∃ l ∈ listeners, _))

/-! ## The loop on the listeners -/

section Loop

variable (env : Env) (reply : Protocol × Nat → ListenerReply) (spec : Spec)

/-- The listener the driver returns for a port. -/
def returned (p : SpecPort) : Listener :=
  ⟨(reply p.slot).id, p.protocol, p.port, (reply p.slot).timeoutClientData,
    (reply p.slot).timeoutMemberData⟩

/-- One iteration; `none` is the `TypeError`. -/
def addListener (p : SpecPort) (listeners : List Listener) : Option (List Listener) :=
  if Served spec listeners p then some listeners
  else if (∃ l ∈ listeners, l.port = p.port) ∧ env.doubleListenersSupported = false then none
  else if env.Unsupported p then some listeners
  else some (recordListener listeners (returned reply p))

def addListeners : List SpecPort → List Listener → Option (List Listener)
  | [], listeners => some listeners
  | p :: ps, listeners => (addListener env reply spec p listeners).bind (addListeners ps)

end Loop

section Runs

variable {env : Env} {listeners : List Listener} {reply : Protocol × Nat → ListenerReply}

/-- The handler has gone on from `w`, to a status with these listeners. -/
structure Onward (w : World) (listeners : List Listener) (w' : World) : Prop where
  spec : w'.crd.spec = w.crd.spec
  loadbalancer : w'.crd.status.loadbalancer.isSome
  listeners : w'.crd.status.listenerList = listeners

/-- The object after a listener was recorded. -/
def Crd.recording (c : Crd) (clears : Bool) (l : Listener) : Crd :=
  { c with status := c.status.recorded clears l }

/-- The answer of a call to the driver, with the world as it was. -/
theorem triple_call {α : Type} {c : Call} {answer : World → Reply α} {w : World} {a : α}
    {E : Fault → World → Prop} (h : (answer w).outcome = some a) :
    Triple (fun t => t = w) (call c answer) (fun r t => r = a ∧ t.crd = w.crd) E := by
  rintro t rfl
  simp only [call, h]
  exact ⟨trivial, rfl⟩

theorem triple_patchStatus {c : Crd} {E : Fault → World → Prop}
    (h : ∀ w, env.patchCrd w = .applied) :
    Triple (fun t => t.crd = c) (patchStatus env) (fun b t => b = true ∧ t.crd = c) E := by
  rintro t rfl
  simp only [patchStatus, h]
  exact ⟨trivial, rfl⟩

/-- **One iteration** of the handler is one on the listeners. -/
theorem addNewListener_run (h : Returns env listeners reply) (w : World) (ls : List Listener)
    (p : SpecPort) (changed : Bool) :
    Triple (Onward w ls) (addNewListener env p changed)
      (fun r t => ∃ b ls', r = some b ∧ addListener env reply w.crd.spec p ls = some ls' ∧
        Onward w ls' t)
      (fun _ _ => addListener env reply w.crd.spec p ls = none) := by
  refine Triple.get_bind fun s hs => ?_
  obtain ⟨hspec, hlb, rfl⟩ := hs
  have hserved : (s.crd.status.listenerList.any fun l => l.Serves s.crd.spec p) = true ↔
      Served w.crd.spec s.crd.status.listenerList p := by
    rw [List.any_eq_true, hspec]
    simp only [decide_eq_true_eq]
    rfl
  have hshared : (s.crd.status.listenerList.any fun l => l.port = p.port) = true ↔
      ∃ l ∈ s.crd.status.listenerList, l.port = p.port := by
    rw [List.any_eq_true]
    simp only [decide_eq_true_eq]
  have hsame : ∀ t, t = s → Onward w s.crd.status.listenerList t := by
    rintro t rfl
    exact ⟨hspec, hlb, rfl⟩
  simp only
  unfold addListener
  split
  · rename_i hyes
    rw [if_pos (hserved.mp hyes)]
    exact Triple.pure fun t ht => ⟨changed, _, rfl, rfl, hsame t ht⟩
  · rename_i hno
    rw [if_neg fun hyes => hno (hserved.mpr hyes)]
    split
    · rename_i hyes
      rw [hshared] at hyes
      rw [if_pos hyes]
      exact Triple.throw fun t ht => rfl
    · rename_i hno
      rw [hshared] at hno
      rw [if_neg hno]
      split
      · rename_i hyes
        have hyes : env.Unsupported p := hyes
        rw [if_pos hyes]
        exact Triple.pure fun t ht => ⟨changed, _, rfl, rfl, hsame t ht⟩
      · rename_i hno
        have hno : ¬ env.Unsupported p := hno
        rw [if_neg hno]
        obtain ⟨lb, hsome⟩ := Option.isSome_iff_exists.mp hlb
        simp only [hsome]
        refine Triple.bind (triple_call (h.listener s lb p)) fun r t ht => ?_
        obtain ⟨rfl, hcrd⟩ := ht
        obtain ⟨hplace, -, -, hlist⟩ := s.crd.status.recorded_frame
          (reply p.slot).clearsSecurityGroups (returned reply p)
        have hlb' : (s.crd.status.recorded (reply p.slot).clearsSecurityGroups
            (returned reply p)).loadbalancer.isSome := by
          have hmap := congrArg Option.isSome hplace
          rw [Option.isSome_map, Option.isSome_map] at hmap
          exact hmap.trans hlb
        -- the new listener is recorded in memory, then in the API
        refine Triple.bind (P := fun t : World => t.crd = s.crd) (Q := fun _ (t : World) =>
          t.crd = s.crd.recording (reply p.slot).clearsSecurityGroups (returned reply p))
          ?_ (fun _ => ?_) t hcrd
        · refine Triple.modify fun t ht => ?_
          show (t.withStatus _).crd = _
          rw [World.withStatus, ht]
          rfl
        · refine Triple.bind (triple_patchStatus h.patch) fun b t ht => ?_
          obtain ⟨rfl, hcrd⟩ := ht
          refine ⟨true, _, rfl, rfl, ?_, ?_, ?_⟩
          · rw [hcrd]
            exact hspec
          · rw [hcrd]
            exact hlb'
          · rw [hcrd]
            exact hlist

/-- **The loop** of the handler is the loop on the listeners. -/
theorem sweep_run (h : Returns env listeners reply) {w : World} (ps : List SpecPort)
    (ls : List Listener) (changed : Bool) :
    Triple (Onward w ls) (sweep (addNewListener env) ps changed)
      (fun r t => ∃ b ls', r = some b ∧ addListeners env reply w.crd.spec ps ls = some ls' ∧
        Onward w ls' t)
      (fun _ _ => addListeners env reply w.crd.spec ps ls = none) := by
  induction ps generalizing ls changed with
  | nil => exact Triple.pure fun t ht => ⟨changed, ls, rfl, rfl, ht⟩
  | cons p ps ih =>
    have hstep := addNewListener_run h w ls p changed
    refine Triple.bind (hstep.conseq (fun _ ht => ht) (fun _ _ ht => ht) ?_) fun r t ht => ?_
    · intro _ _ hnone
      rw [addListeners, hnone]
      rfl
    · obtain ⟨b, ls', rfl, hsome, ht⟩ := ht
      rw [addListeners, hsome]
      exact ih ls' b t ht

/-- `_add_new_listeners` ends as the loop on the listeners does. -/
theorem addNewListeners_run {w : World} (h : Returns env w.crd.status.listenerList reply)
    (hlb : w.crd.status.loadbalancer.isSome) :
    (∀ ls, addListeners env reply w.crd.spec (sortedPorts w.crd.spec.ports)
        w.crd.status.listenerList = some ls →
      ∃ changed w', addNewListeners env w = .ok changed w' ∧ w'.crd.status.listenerList = ls) ∧
    (addListeners env reply w.crd.spec (sortedPorts w.crd.spec.ports)
        w.crd.status.listenerList = none →
      ∃ e w', addNewListeners env w = .error e w') := by
  have hrun := sweep_run h (w := w) (sortedPorts w.crd.spec.ports) w.crd.status.listenerList false
    w ⟨rfl, hlb, rfl⟩
  have hprogram : addNewListeners env w = (sweep (addNewListener env)
      (sortedPorts w.crd.spec.ports) false >>= fun r => pure (r.getD false)) w := rfl
  rw [hprogram]
  cases hs : sweep (addNewListener env) (sortedPorts w.crd.spec.ports) false w with
  | ok r t =>
    rw [hs] at hrun
    obtain ⟨b, ls', rfl, hsome, ht⟩ := hrun
    refine ⟨fun ls hls => ⟨b, t, run_bind_ok hs, ?_⟩, fun hnone => ?_⟩
    · rw [hsome] at hls
      exact ht.listeners.trans (Option.some.inj hls)
    · rw [hsome] at hnone
      cases hnone
  | error e t =>
    rw [hs] at hrun
    refine ⟨fun ls hls => ?_, fun _ => ⟨e, t, run_bind_error hs⟩⟩
    rw [hrun] at hls
    cases hls

end Runs

/-! ## What the loop adds -/

section Adding

variable {env : Env} {listeners : List Listener} {reply : Protocol × Nat → ListenerReply}
  {spec : Spec}

/-- The driver is asked for the port, unless an exception comes first. -/
def Asked (env : Env) (spec : Spec) (listeners : List Listener) (p : SpecPort) : Prop :=
  ¬ Served spec listeners p ∧ ¬ env.Unsupported p

/-- The driver returns the timeouts of the spec for the port. -/
def Timed (reply : Protocol × Nat → ListenerReply) (spec : Spec) (p : SpecPort) : Prop :=
  (reply p.slot).timeoutClientData = spec.timeoutClientData ∧
    (reply p.slot).timeoutMemberData = spec.timeoutMemberData

/-- No port that is not served has its number on a listener, and no two ports the driver is
asked for share a number. -/
def Separate (env : Env) (spec : Spec) (listeners : List Listener) (ports : List SpecPort) : Prop :=
  (∀ p ∈ ports, ¬ Served spec listeners p → ∀ l ∈ listeners, l.port ≠ p.port) ∧
    ∀ p ∈ ports, ∀ q ∈ ports, Asked env spec listeners p → Asked env spec listeners q →
      p.port = q.port → p.protocol = q.protocol

/-- After the ports of `done`: what is listed, and where it comes from. -/
structure Added (env : Env) (reply : Protocol × Nat → ListenerReply) (spec : Spec)
    (listeners : List Listener) (done : List SpecPort) (ls : List Listener) : Prop where
  ids : (ls.map Listener.id).Nodup
  kept : ∀ l ∈ listeners, ∃ l' ∈ ls, l'.slot = l.slot
  origin : ∀ l ∈ ls, l ∈ listeners ∨ ∃ p ∈ done, Asked env spec listeners p ∧ l = returned reply p
  served : ∀ p, Served spec listeners p → Served spec ls p
  recorded : ∀ p ∈ done, Asked env spec listeners p → returned reply p ∈ ls
  separate : env.doubleListenersSupported = false → Separate env spec listeners done

theorem serves_slot {l : Listener} {p : SpecPort} (h : l.Serves spec p) : l.slot = p.slot :=
  Prod.ext h.2.1 h.1

theorem served_congr {ls : List Listener} {p q : SpecPort} (h : p.slot = q.slot) :
    Served spec ls p ↔ Served spec ls q := by
  have hprotocol : p.protocol = q.protocol := congrArg Prod.fst h
  have hport : p.port = q.port := congrArg Prod.snd h
  simp only [Served, Listener.Serves, hprotocol, hport]

theorem asked_congr {p q : SpecPort} (h : p.slot = q.slot) :
    Asked env spec listeners p ↔ Asked env spec listeners q := by
  have hprotocol : p.protocol = q.protocol := congrArg Prod.fst h
  rw [Asked, Asked, served_congr h, Env.Unsupported, Env.Unsupported, hprotocol]

theorem returned_congr {p q : SpecPort} (h : p.slot = q.slot) :
    returned reply p = returned reply q := by
  have hprotocol : p.protocol = q.protocol := congrArg Prod.fst h
  have hport : p.port = q.port := congrArg Prod.snd h
  rw [returned, returned, h, hprotocol, hport]

theorem returned_serves {p : SpecPort} : (returned reply p).Serves spec p ↔ Timed reply spec p :=
  ⟨fun h => h.2.2, fun h => ⟨rfl, rfl, h⟩⟩

/-- A port is served by what the loop lists if it was served before, or if the driver was
asked for it and returned the right timeouts. -/
theorem Added.served_iff {done ls : List _} (h : Added env reply spec listeners done ls)
    {p : SpecPort} (hp : p ∈ done) :
    Served spec ls p ↔
      Served spec listeners p ∨ (Asked env spec listeners p ∧ Timed reply spec p) := by
  constructor
  · rintro ⟨l, hl, hserves⟩
    rcases h.origin l hl with hl | ⟨q, -, hasked, rfl⟩
    · exact .inl ⟨l, hl, hserves⟩
    · have hslot : q.slot = p.slot := serves_slot hserves
      rw [asked_congr hslot] at hasked
      rw [returned_congr hslot] at hserves
      exact .inr ⟨hasked, returned_serves.mp hserves⟩
  · rintro (hserved | ⟨hasked, htimed⟩)
    · exact h.served p hserved
    · exact ⟨_, h.recorded p hp hasked, returned_serves.mpr htimed⟩

theorem Added.start (hids : (listeners.map Listener.id).Nodup) :
    Added env reply spec listeners [] listeners where
  ids := hids
  kept := fun l hl => ⟨l, hl, rfl⟩
  origin := fun _ hl => .inl hl
  served := fun _ hp => hp
  recorded := fun _ hp => absurd hp List.not_mem_nil
  separate := fun _ =>
    ⟨fun _ hp => absurd hp List.not_mem_nil, fun _ hp => absurd hp List.not_mem_nil⟩

theorem Separate.concat {done : List SpecPort} {p : SpecPort}
    (h : Separate env spec listeners done)
    (hnumber : ¬ Served spec listeners p → ∀ l ∈ listeners, l.port ≠ p.port)
    (hasked : Asked env spec listeners p → ∀ q ∈ done, Asked env spec listeners q →
      q.port = p.port → q.protocol = p.protocol) :
    Separate env spec listeners (done ++ [p]) := by
  refine ⟨fun q hq => ?_, fun q hq r hr hq' hr' hport => ?_⟩
  · rcases List.mem_append.mp hq with hq | hq
    · exact h.1 q hq
    · rw [List.mem_singleton.mp hq]
      exact hnumber
  · rcases List.mem_append.mp hq with hqd | hqp
    · rcases List.mem_append.mp hr with hrd | hrp
      · exact h.2 q hqd r hrd hq' hr' hport
      · obtain rfl := List.mem_singleton.mp hrp
        exact hasked hr' q hqd hq' hport
    · obtain rfl := List.mem_singleton.mp hqp
      rcases List.mem_append.mp hr with hrd | hrp
      · exact (hasked hq' r hrd hr' hport.symm).symm
      · rw [List.mem_singleton.mp hrp]

/-- An id of the list stands for one protocol and number. -/
theorem Added.slot_of_id (hret : Returns env listeners reply) {done ls : List _}
    (h : Added env reply spec listeners done ls) {l : Listener} (hl : l ∈ ls) {p : SpecPort}
    (hid : l.id = (returned reply p).id) : l.slot = p.slot := by
  rcases h.origin l hl with hl | ⟨q, -, -, rfl⟩
  · exact hret.listener_id l hl p.slot hid
  · exact hret.reply_id q.slot p.slot hid

/-- A port that only the loop has served comes from one of the same protocol and number. -/
theorem Added.twin {done ls : List _} (h : Added env reply spec listeners done ls) {p : SpecPort}
    (hserved : Served spec ls p) (hnot : ¬ Served spec listeners p) :
    ∃ q ∈ done, Asked env spec listeners q ∧ q.slot = p.slot ∧ returned reply q ∈ ls := by
  obtain ⟨l, hl, hserves⟩ := hserved
  rcases h.origin l hl with hl' | ⟨q, hq, hasked, rfl⟩
  · exact absurd ⟨l, hl', hserves⟩ hnot
  · exact ⟨q, hq, hasked, serves_slot hserves, hl⟩

/-- A port that is skipped, because it is served or not supported. -/
theorem Added.skip {done ls : List _} (h : Added env reply spec listeners done ls) {p : SpecPort}
    (hasked : Asked env spec listeners p → returned reply p ∈ ls)
    (hseparate : env.doubleListenersSupported = false → Separate env spec listeners (done ++ [p])) :
    Added env reply spec listeners (done ++ [p]) ls where
  ids := h.ids
  kept := h.kept
  origin := by
    intro l hl
    refine (h.origin l hl).imp_right ?_
    rintro ⟨q, hq, hq'⟩
    exact ⟨q, List.mem_append_left _ hq, hq'⟩
  served := h.served
  recorded := by
    intro q hq hq'
    rcases List.mem_append.mp hq with hq | hq
    · exact h.recorded q hq hq'
    · obtain rfl := List.mem_singleton.mp hq
      exact hasked hq'
  separate := hseparate

theorem Added.step (hret : Returns env listeners reply) {done ls : List _}
    (h : Added env reply spec listeners done ls) {p : SpecPort} {ls' : List Listener}
    (hstep : addListener env reply spec p ls = some ls') :
    Added env reply spec listeners (done ++ [p]) ls' := by
  unfold addListener at hstep
  by_cases hserved : Served spec ls p
  · rw [if_pos hserved] at hstep
    obtain rfl := Option.some.inj hstep
    by_cases hbefore : Served spec listeners p
    · refine h.skip (fun hasked => absurd hbefore hasked.1) fun hdouble => ?_
      exact (h.separate hdouble).concat (fun hnot => absurd hbefore hnot) fun hasked =>
        absurd hbefore hasked.1
    · obtain ⟨q, hq, hasked, hslot, hmem⟩ := h.twin hserved hbefore
      have hport : q.port = p.port := congrArg Prod.snd hslot
      have hprotocol : q.protocol = p.protocol := congrArg Prod.fst hslot
      refine h.skip (fun _ => returned_congr hslot ▸ hmem) fun hdouble => ?_
      refine (h.separate hdouble).concat (fun _ l hl => ?_) fun _ r hr hr' hrport => ?_
      · rw [← hport]
        exact (h.separate hdouble).1 q hq hasked.1 l hl
      · rw [← hprotocol]
        exact (h.separate hdouble).2 r hr q hq hr' hasked (hrport.trans hport.symm)
  · have hbefore : ¬ Served spec listeners p := fun hp => hserved (h.served p hp)
    rw [if_neg hserved] at hstep
    split at hstep
    · cases hstep
    · rename_i hnumber
      -- without double listeners the number is not in use
      have hfree : env.doubleListenersSupported = false → ∀ l ∈ ls, l.port ≠ p.port :=
        fun hdouble l hl hport => hnumber ⟨⟨l, hl, hport⟩, hdouble⟩
      have hseparate : env.doubleListenersSupported = false →
          Separate env spec listeners (done ++ [p]) := by
        intro hdouble
        refine (h.separate hdouble).concat (fun _ l hl hport => ?_) fun _ q hq hasked hport => ?_
        · obtain ⟨l', hl', hslot⟩ := h.kept l hl
          exact hfree hdouble l' hl' ((congrArg Prod.snd hslot).trans hport)
        · exact absurd hport (hfree hdouble _ (h.recorded q hq hasked))
      by_cases hunsupported : env.Unsupported p
      · rw [if_pos hunsupported] at hstep
        obtain rfl := Option.some.inj hstep
        exact h.skip (fun hasked => absurd hunsupported hasked.2) hseparate
      · rw [if_neg hunsupported] at hstep
        obtain rfl := Option.some.inj hstep
        rw [recordListener_eq h.ids]
        have hnew : returned reply p ∈
            (ls.filter fun x => x.id ≠ (returned reply p).id) ++ [returned reply p] :=
          List.mem_append_right _ (List.mem_singleton_self _)
        have hold : ∀ l ∈ ls, l.id ≠ (returned reply p).id →
            l ∈ (ls.filter fun x => x.id ≠ (returned reply p).id) ++ [returned reply p] := by
          intro l hl hid
          exact List.mem_append_left _ (List.mem_filter.mpr ⟨hl, decide_eq_true hid⟩)
        refine ⟨?_, ?_, ?_, ?_, ?_, hseparate⟩
        · refine nodup_map_concat (h.ids.sublist (List.filter_sublist.map _)) fun hmem => ?_
          obtain ⟨l, hl, hid⟩ := List.mem_map.mp hmem
          exact of_decide_eq_true (List.mem_filter.mp hl).2 hid
        · intro l hl
          obtain ⟨l', hl', hslot⟩ := h.kept l hl
          by_cases hid : l'.id = (returned reply p).id
          · exact ⟨_, hnew, (h.slot_of_id hret hl' hid).symm.trans hslot⟩
          · exact ⟨l', hold l' hl' hid, hslot⟩
        · intro l hl
          rcases List.mem_append.mp hl with hl | hl
          · refine (h.origin l (List.mem_of_mem_filter hl)).imp_right ?_
            rintro ⟨q, hq, hq'⟩
            exact ⟨q, List.mem_append_left _ hq, hq'⟩
          · exact .inr ⟨p, List.mem_append_right _ (List.mem_singleton_self p),
              ⟨hbefore, hunsupported⟩, List.mem_singleton.mp hl⟩
        · intro q hq
          obtain ⟨l, hl, hserves⟩ := h.served q hq
          refine ⟨l, hold l hl fun hid => hbefore ?_, hserves⟩
          -- a listener of `p` that serves `q` would serve `p`
          have hslot : q.slot = p.slot :=
            (serves_slot hserves).symm.trans (h.slot_of_id hret hl hid)
          exact (served_congr hslot).mp hq
        · intro q hq hasked
          rcases List.mem_append.mp hq with hq | hq
          · have hmem := h.recorded q hq hasked
            by_cases hid : (returned reply q).id = (returned reply p).id
            · rw [returned_congr (h.slot_of_id hret hmem hid)]
              exact hnew
            · exact hold _ hmem hid
          · rw [List.mem_singleton.mp hq]
            exact hnew

theorem Added.run (hret : Returns env listeners reply) (ps : List SpecPort) {done ls : List _}
    (h : Added env reply spec listeners done ls) {ls' : List Listener}
    (hrun : addListeners env reply spec ps ls = some ls') :
    Added env reply spec listeners (done ++ ps) ls' := by
  induction ps generalizing done ls with
  | nil =>
    obtain rfl := Option.some.inj hrun
    rwa [List.append_nil]
  | cons p ps ih =>
    obtain ⟨ls₁, hstep, hrun⟩ := Option.bind_eq_some_iff.mp hrun
    have hrest := ih (h.step hret hstep) hrun
    rwa [List.append_assoc, List.singleton_append] at hrest

/-- Before a port of a sorted list the number is in use for a port that is served only. -/
theorem Added.goes_on {done ls rest : List _} {p : SpecPort}
    (h : Added env reply spec listeners done ls)
    (hsorted : ∀ q ∈ done, protocolRank q.protocol ≤ protocolRank p.protocol)
    (htimed : ∀ q ∈ done ++ p :: rest, Asked env spec listeners q → Timed reply spec q)
    (hseparate : env.doubleListenersSupported = false →
      Separate env spec listeners (done ++ p :: rest)) :
    ∃ ls', addListener env reply spec p ls = some ls' := by
  have hp : p ∈ done ++ p :: rest := List.mem_append_right _ List.mem_cons_self
  unfold addListener
  by_cases hserved : Served spec ls p
  · exact ⟨ls, if_pos hserved⟩
  · rw [if_neg hserved]
    split
    · rename_i hnumber
      obtain ⟨⟨l, hl, hport⟩, hdouble⟩ := hnumber
      obtain ⟨hfree, hasked⟩ := hseparate hdouble
      have hbefore : ¬ Served spec listeners p := fun hp => hserved (h.served p hp)
      rcases h.origin l hl with hl' | ⟨q, hq, hq', rfl⟩
      · exact absurd hport (hfree p hp hbefore l hl')
      · have hqmem : q ∈ done ++ p :: rest := List.mem_append_left _ hq
        have hport : q.port = p.port := hport
        -- SCTP comes first, so `p` is supported as `q` is
        have hsupported : ¬ env.Unsupported p := by
          intro hunsupported
          have hrank := hsorted q hq
          rw [hunsupported.1] at hrank
          refine hq'.2 ⟨?_, hunsupported.2⟩
          cases hprotocol : q.protocol with
          | SCTP => rfl
          | TCP =>
            rw [hprotocol] at hrank
            exact absurd hrank (by decide)
          | UDP =>
            rw [hprotocol] at hrank
            exact absurd hrank (by decide)
        have hprotocol := hasked q hqmem p hp hq' ⟨hbefore, hsupported⟩ hport
        refine absurd ⟨_, hl, ?_⟩ hserved
        rw [returned_congr (Prod.ext hprotocol hport : q.slot = p.slot)]
        exact returned_serves.mpr (htimed p hp ⟨hbefore, hsupported⟩)
    · split
      · exact ⟨_, rfl⟩
      · exact ⟨_, rfl⟩

theorem Added.ends (hret : Returns env listeners reply) (ps : List SpecPort) {done ls : List _}
    (h : Added env reply spec listeners done ls)
    (hsorted : (done ++ ps).Pairwise fun p q => protocolRank p.protocol ≤ protocolRank q.protocol)
    (htimed : ∀ q ∈ done ++ ps, Asked env spec listeners q → Timed reply spec q)
    (hseparate : env.doubleListenersSupported = false → Separate env spec listeners (done ++ ps)) :
    ∃ ls', addListeners env reply spec ps ls = some ls' := by
  induction ps generalizing done ls with
  | nil => exact ⟨ls, rfl⟩
  | cons p ps ih =>
    have hfirst : ∀ q ∈ done, protocolRank q.protocol ≤ protocolRank p.protocol := by
      intro q hq
      exact (List.pairwise_append.mp hsorted).2.2 q hq p List.mem_cons_self
    obtain ⟨ls₁, hstep⟩ := h.goes_on hfirst htimed hseparate
    have hsplit : done ++ p :: ps = (done ++ [p]) ++ ps := by
      rw [List.append_assoc, List.singleton_append]
    rw [hsplit] at hsorted htimed hseparate
    rw [addListeners, hstep]
    exact ih (h.step hret hstep) hsorted htimed hseparate

/-- Where the loop ends, no port the driver was asked for shares its number. -/
theorem Added.alone {done ls : List _} (h : Added env reply spec listeners done ls) {p : SpecPort}
    (hp : p ∈ done) (hasked : Asked env spec listeners p)
    (hdouble : env.doubleListenersSupported = false) :
    ¬ ∃ l ∈ ls, l.port = p.port ∧ l.protocol ≠ p.protocol := by
  rintro ⟨l, hl, hport, hprotocol⟩
  obtain ⟨hfree, hseparate⟩ := h.separate hdouble
  rcases h.origin l hl with hl | ⟨q, hq, hq', rfl⟩
  · exact hfree p hp hasked.1 l hl hport
  · exact hprotocol (hseparate q hq p hp hq' hasked hport)

/-- The reasons for which a port may be left without a listener. -/
def Skipped (env : Env) (spec : Spec) (listeners ls : List Listener) (p : SpecPort) : Prop :=
  ¬ Served spec listeners p ∧ (env.Unsupported p ∨
    (env.doubleListenersSupported = false ∧ ∃ l ∈ ls, l.port = p.port ∧ l.protocol ≠ p.protocol))

/-- Of the ports of a loop that has ended, exactly the skipped ones are not served, where the
driver has returned the right timeouts. -/
theorem Added.served_iff_not_skipped {done ls : List _}
    (h : Added env reply spec listeners done ls) {p : SpecPort} (hp : p ∈ done) :
    (Served spec ls p ↔ ¬ Skipped env spec listeners ls p) ↔
      (Asked env spec listeners p → Timed reply spec p) := by
  rw [h.served_iff hp]
  by_cases hserved : Served spec listeners p
  · refine iff_of_true (iff_of_true (.inl hserved) fun hskip => hskip.1 hserved) fun hasked => ?_
    exact absurd hserved hasked.1
  · by_cases hunsupported : env.Unsupported p
    · have hnot : ¬ Asked env spec listeners p := fun hasked => hasked.2 hunsupported
      refine iff_of_true (iff_of_false ?_ ?_) fun hasked => absurd hasked hnot
      · rintro (hs | ⟨hasked, -⟩)
        · exact hserved hs
        · exact hnot hasked
      · exact not_not.mpr ⟨hserved, .inl hunsupported⟩
    · have hasked : Asked env spec listeners p := ⟨hserved, hunsupported⟩
      have hskip : ¬ Skipped env spec listeners ls p := by
        rintro ⟨-, hreason | ⟨hdouble, hl⟩⟩
        · exact hunsupported hreason
        · exact h.alone hp hasked hdouble hl
      rw [iff_true_right hskip]
      simp [hserved, hasked]

end Adding

/-! ## The method -/

/-- What `_add_new_listeners` is for: it returns, the listeners have different ids, and of
the ports of the spec exactly the skipped ones are not served. -/
def ListenersAdded (env : Env) (w : World) : Prop :=
  ∃ changed w', addNewListeners env w = .ok changed w' ∧
    (w'.crd.status.listenerList.map Listener.id).Nodup ∧
    ∀ p ∈ w.crd.spec.ports, Served w.crd.spec w'.crd.status.listenerList p ↔
      ¬ Skipped env w.crd.spec w.crd.status.listenerList w'.crd.status.listenerList p

theorem sortedPorts_pairwise (ports : List SpecPort) :
    (sortedPorts ports).Pairwise fun p q => protocolRank p.protocol ≤ protocolRank q.protocol := by
  have htotal : Std.Total fun p q : SpecPort => protocolRank p.protocol ≤ protocolRank q.protocol :=
    ⟨fun _ _ => Nat.le_total _ _⟩
  have htrans : IsTrans SpecPort fun p q => protocolRank p.protocol ≤ protocolRank q.protocol :=
    ⟨fun _ _ _ => Nat.le_trans⟩
  exact List.pairwise_insertionSort _ ports

theorem mem_sortedPorts {ports : List SpecPort} {p : SpecPort} :
    p ∈ sortedPorts ports ↔ p ∈ ports := List.mem_insertionSort _

theorem separate_sortedPorts {env : Env} {spec : Spec} {listeners : List Listener}
    {ports : List SpecPort} :
    Separate env spec listeners (sortedPorts ports) ↔ Separate env spec listeners ports := by
  simp only [Separate, mem_sortedPorts]

/-- **Listeners on shared numbers**: with a driver that always returns a listener, the
listeners are added exactly where it returns the timeouts of the spec and no warning about
a shared number is due. -/
theorem add_new_listeners_iff {env : Env} {w : World} {reply : Protocol × Nat → ListenerReply}
    (h : Returns env w.crd.status.listenerList reply)
    (hlb : w.crd.status.loadbalancer.isSome)
    (hids : (w.crd.status.listenerList.map Listener.id).Nodup) :
    ListenersAdded env w ↔
      (∀ p ∈ w.crd.spec.ports, Asked env w.crd.spec w.crd.status.listenerList p →
        Timed reply w.crd.spec p) ∧
      (env.doubleListenersSupported = true ∨
        Separate env w.crd.spec w.crd.status.listenerList w.crd.spec.ports) := by
  have hstart : Added env reply w.crd.spec w.crd.status.listenerList [] w.crd.status.listenerList :=
    Added.start hids
  obtain ⟨hok, hfault⟩ := addNewListeners_run h hlb
  constructor
  · rintro ⟨changed, w', hrun, -, hports⟩
    cases hloop : addListeners env reply w.crd.spec (sortedPorts w.crd.spec.ports)
        w.crd.status.listenerList with
    | none =>
      obtain ⟨e, w₁, hraised⟩ := hfault hloop
      rw [hraised] at hrun
      cases hrun
    | some ls =>
      obtain ⟨changed', w₁, hran, hls⟩ := hok ls hloop
      rw [hran] at hrun
      cases hrun
      have hadded := hstart.run h (sortedPorts w.crd.spec.ports) hloop
      rw [List.nil_append] at hadded
      rw [hls] at hports
      refine ⟨fun p hp => ?_, ?_⟩
      · exact (hadded.served_iff_not_skipped (mem_sortedPorts.mpr hp)).mp (hports p hp)
      · cases hdouble : env.doubleListenersSupported with
        | true => exact .inl rfl
        | false => exact .inr (separate_sortedPorts.mp (hadded.separate hdouble))
  · rintro ⟨htimed, hseparate⟩
    obtain ⟨ls, hloop⟩ := hstart.ends h (sortedPorts w.crd.spec.ports)
      (sortedPorts_pairwise _) (fun p hp => htimed p (mem_sortedPorts.mp hp)) fun hdouble => by
        refine separate_sortedPorts.mpr (hseparate.resolve_left ?_)
        rw [hdouble]
        exact Bool.false_ne_true
    have hadded := hstart.run h (sortedPorts w.crd.spec.ports) hloop
    rw [List.nil_append] at hadded
    obtain ⟨changed, w', hran, rfl⟩ := hok ls hloop
    refine ⟨changed, w', hran, hadded.ids, fun p hp => ?_⟩
    exact (hadded.served_iff_not_skipped (mem_sortedPorts.mpr hp)).mpr (htimed p hp)

/-! ## A name server -/

def initial : Protocol → Char
  | .TCP => 't'
  | .UDP => 'u'
  | .SCTP => 's'

/-- Every protocol and number has a listener of its own. -/
def ownListener (s : Protocol × Nat) : ListenerReply where
  id := String.ofList (initial s.1 :: Nat.toDigits 10 s.2)
  timeoutClientData := 0
  timeoutMemberData := 0
  clearsSecurityGroups := false

theorem ownListener_id {s s' : Protocol × Nat} (h : (ownListener s).id = (ownListener s').id) :
    s = s' := by
  have hlist := String.ofList_injective h
  rw [List.cons.injEq] at hlist
  have hinitial : ∀ p p' : Protocol, initial p = initial p' → p = p' := by
    intro p p'
    cases p <;> cases p' <;> decide
  exact Prod.ext (hinitial _ _ hlist.1) (Texts.toDigits_injective hlist.2)

/-- Octavia with or without double listeners. -/
def sharing (double : Bool) : Env :=
  { calm with
    doubleListenersSupported := double
    ensureListener := fun _ _ p => ⟨false, some (some (ownListener p.slot))⟩ }

/-- Port 53 of both protocols, and a load balancer without listeners. -/
def nameServer : World where
  crd := ⟨"default", "dns",
    { webSpec "10.1.0.1" [] with ports := [⟨none, .TCP, 53⟩, ⟨none, .UDP, 53⟩] },
    { loadbalancer := some ⟨"lb", "10.1.0.1", none, none, "vip", none⟩ }⟩
  stored := {}
  log := []

theorem sharing_returns (double : Bool) :
    Returns (sharing double) nameServer.crd.status.listenerList ownListener where
  patch := fun _ => rfl
  listener := fun _ _ _ => rfl
  reply_id := fun _ _ => ownListener_id
  listener_id := fun _ hl => absurd hl List.not_mem_nil

/-- With double listeners both ports get theirs. -/
theorem add_new_listeners_double : ListenersAdded (sharing true) nameServer :=
  (add_new_listeners_iff (sharing_returns true) rfl List.nodup_nil).mpr
    ⟨fun _ _ _ => ⟨rfl, rfl⟩, .inl rfl⟩

/-- Without, the second port ends the loop with a `TypeError`. -/
theorem add_new_listeners_raises :
    Returns (sharing false) nameServer.crd.status.listenerList ownListener ∧
      (∃ w, addNewListeners (sharing false) nameServer = .error .typeError w) ∧
      ¬ ListenersAdded (sharing false) nameServer := by
  have hraises : (match addNewListeners (sharing false) nameServer with
      | .ok _ _ => none
      | .error e _ => some e) = some Fault.typeError := by decide +kernel
  cases hrun : addNewListeners (sharing false) nameServer with
  | ok changed w =>
    rw [hrun] at hraises
    cases hraises
  | error e w =>
    rw [hrun] at hraises
    obtain rfl := Option.some.inj hraises
    refine ⟨sharing_returns false, ⟨w, rfl⟩, ?_⟩
    rintro ⟨changed, w', hok, -⟩
    rw [hrun] at hok
    cases hok

end LoadBalancer

end KuryrKubernetes
