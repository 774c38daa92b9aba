import KuryrKubernetes.Handlers.KuryrNetwork

/-!
# Taking the network of a namespace down

`on_finalize` deletes the network on record. For an object without a `netId` it searches
Neutron for a network that `on_present` created but did not live to record, and deletes
what it finds before the finalizer goes.

The writer names the network `<uid>/<name>` and puts the tags into its description; the
searcher asks for `<name>` (or the legacy name) and wants the uid in the description. The
two never meet, whatever the namespace and the tags: `onFinalize_misses`.
-/

namespace KuryrKubernetes

namespace KuryrNetwork

open Effect Transition

section Programs

variable (cfg : Config) (env : Env)

/-- `delete_network`; the subnets of the network go with it. -/
def deleteNetwork (id : Id) : Handler Unit :=
  act env .deleteNetwork fun w => { w.cloud with
    networks := w.cloud.networks.filter fun n => n.id ≠ id
    subnets := w.cloud.subnets.filter fun s => s.networkId ≠ id }

/-- `_delete_namespace_network_resources`. -/
def deleteNamespaceNetworkResources (subnetId : Option Id) (netId : Id) : Handler Unit := do
  match subnetId with
  | none => pure ()
  | some id =>
    tryCatch (act env .removeInterface fun w =>
        { w.cloud with attached := w.cloud.attached.filter fun s => s ≠ id })
      fun e => if e = .notFound then pure () else throw e
  tryCatch (deleteNetwork env netId) fun e => do
    if e = .conflict then
      act env .listPorts World.cloud
      act env .deletePorts World.cloud
      throw .notReady
    else
      throw e

/-- The name `on_finalize` searches for, beside the legacy name. -/
def searchName (ns : Namespace) : Text := getResourceName ns.name [] [] []

/-- The networks the search returns. -/
def searched (ns : Namespace) (c : Cloud) : List Network :=
  c.networks.filter fun n => n.name = searchName ns ∨ n.name = oldNetName ns

/-- The networks among them that are taken for the namespace's. -/
def selected (ns : Namespace) (c : Cloud) : List Network :=
  (searched ns c).filter fun n => ns.uid = n.description

/-- The loop over the networks found. -/
def deleteSearched (ns : Namespace) : List Network → Handler Unit
  | [] => pure ()
  | n :: rest => do
    if ns.uid = n.description then
      act env .deletePools World.cloud
      tryCatch (deleteNetwork env n.id) fun e => throw (if e = .conflict then .notReady else e)
    deleteSearched ns rest

/-- The networks to take down: the one on record, or else what the search finds. -/
def deleteNetworks (ns : Namespace) (st : Status) : Handler Unit :=
  match st.netId with
  | some id => do
    act env .deletePools World.cloud
    deleteNamespaceNetworkResources env st.subnetId id
  | none => do
    let gone ← call env .getNamespace fun w => (env.namespaceGone w, w.cloud)
    if gone then
      throw .other
    let cloud ← read env .listNetworks
    deleteSearched env ns (searched ns cloud)

/-- `on_finalize` for an object with the given status. -/
def onFinalize (ns : Namespace) (st : Status) : Handler Unit := do
  deleteNetworks env ns st
  let selectors ← call env .updateSgRules fun w => (env.selectors w, w.cloud)
  if cfg.networkPolicyEnabled ∧ selectors ∧ cfg.enforceSgRules then
    act env .updateServices World.cloud
  act env .removeFinalizer fun w => { w.cloud with finalizer := false }

end Programs

/-! ## Names of networks -/

section Names

variable {ns : Namespace} {n : Network}

theorem getResourceName_eq (name uid prefixed suffix : Text) :
    ∃ k, getResourceName name uid prefixed suffix =
      prefixed ++ (if uid = [] then [] else uid ++ ['/']) ++ name.take k ++ suffix := by
  have htrim : ∀ length : Nat, ∃ k, (if 255 < length then
      sliceTo name (254 - ((length : Int) - 254)) else name) = name.take k := by
    intro length
    unfold sliceTo
    split
    · split
      · exact ⟨_, rfl⟩
      · exact ⟨_, rfl⟩
    · exact ⟨name.length, (List.take_length ..).symm⟩
  obtain ⟨k, hk⟩ := htrim
    (prefixed ++ (if uid = [] then [] else uid ++ ['/']) ++ name ++ suffix).length
  refine ⟨k, ?_⟩
  unfold getResourceName
  simp only
  rw [hk]

theorem uid_ne_nil (ns : Namespace) : ns.uid ≠ [] := by
  intro h
  have hlen := ns.uid_length
  rw [h] at hlen
  cases hlen

/-- The created name starts with the uid and a slash. -/
theorem netName_eq (ns : Namespace) : ∃ rest, netName ns = ns.uid ++ '/' :: rest := by
  obtain ⟨k, hk⟩ := getResourceName_eq ns.name ns.uid [] []
  refine ⟨ns.name.take k, ?_⟩
  rw [netName, hk, if_neg (uid_ne_nil ns)]
  simp

theorem slash_notMem_searchName (ns : Namespace) : '/' ∉ searchName ns := by
  obtain ⟨k, hk⟩ := getResourceName_eq ns.name [] [] []
  rw [searchName, hk, if_pos rfl]
  simp only [List.nil_append, List.append_nil]
  exact fun h => ns.name_slash (List.mem_of_mem_take h)

theorem netName_ne_searchName (ns : Namespace) : netName ns ≠ searchName ns := by
  intro h
  obtain ⟨rest, hrest⟩ := netName_eq ns
  refine slash_notMem_searchName ns ?_
  rw [← h, hrest]
  exact List.mem_append_right _ List.mem_cons_self

/-- The third character of the legacy name is a slash, and of the created name is not. -/
theorem netName_ne_oldNetName (ns : Namespace) : netName ns ≠ oldNetName ns := by
  intro h
  obtain ⟨rest, hrest⟩ := netName_eq ns
  obtain ⟨k, hk⟩ := getResourceName_eq ns.name [] "ns/".toList "-net".toList
  have hold : (oldNetName ns)[2]? = some '/' := by
    rw [oldNetName, hk]
    rfl
  have hlen : 2 < ns.uid.length := by
    have := ns.uid_length
    omega
  rw [← h, hrest, List.getElem?_append_left hlen] at hold
  exact ns.uid_slash (List.mem_of_getElem? hold)

end Names

/-! ## Created networks -/

/-- A network as `create_network` makes it; no other has its id. -/
structure Created (cfg : Config) (ns : Namespace) (n : Network) (c : Cloud) : Prop where
  mem : n ∈ c.networks
  name : n.name = netName ns
  description : n.description = joinedTags cfg.tags
  unique : ∀ m ∈ c.networks, m.id = n.id → m = n

/-- The namespace's networks are created ones. -/
def Marked (cfg : Config) (ns : Namespace) (c : Cloud) : Prop :=
  ∀ n ∈ c.networks, Own ns n → Created cfg ns n c

section Proofs

variable {α β : Type} {cfg : Config} {env : Env} {ns : Namespace} {c : Cloud} {n : Network}
  {st : Status}

/-- The program keeps the invariant, whether or not it fails. -/
def Keeps (I : Cloud → Prop) (x : Handler α) : Prop :=
  Triple (fun w => I w.cloud) x (fun _ w => I w.cloud) fun _ w => I w.cloud

variable {I : Cloud → Prop} {x : Handler α}

theorem Keeps.pure {a : α} : Keeps I (Pure.pure a) := Triple.pure fun _ hw => hw

theorem Keeps.throw {e : Fault} : Keeps I (throw e : Handler α) := Triple.throw fun _ hw => hw

theorem Keeps.bind {f : α → Handler β} (hx : Keeps I x) (hf : ∀ a, Keeps I (f a)) :
    Keeps I (x >>= f) :=
  Triple.bind hx hf

theorem Keeps.tryCatch {handle : Fault → Handler α} (hx : Keeps I x)
    (hhandle : ∀ e, Keeps I (handle e)) : Keeps I (tryCatch x handle) :=
  Triple.tryCatch hx hhandle

theorem keeps_call {site : Site} {effect : World → α × Cloud}
    (h : ∀ w, I w.cloud → I (effect w).2) : Keeps I (call env site effect) :=
  triple_call (P := I) (Q := fun _ => I) (E := fun _ => I) h fun w _ _ _ hw => ⟨hw, h w hw⟩

/-- Calls that leave the networks alone. -/
theorem marked_call {site : Site} {effect : World → α × Cloud}
    (h : ∀ w, (effect w).2.networks = w.cloud.networks) :
    Keeps (Marked cfg ns) (call env site effect) := by
  refine keeps_call fun w hw n hn hown => ?_
  rw [h w] at hn
  obtain ⟨hmem, hname, hdescription, hunique⟩ := hw n hn hown
  exact ⟨(h w).symm ▸ hmem, hname, hdescription, (h w).symm ▸ hunique⟩

theorem Marked.setTags (h : Marked cfg ns c) (id : Id) (tags : List Text) :
    Marked cfg ns { c with networks := c.networks.map (Network.setTags id tags) } := by
  intro n hn hown
  obtain ⟨m, hm, rfl⟩ := List.mem_map.mp hn
  rw [Own, (m.setTags_frame id tags).1] at hown
  have hcreated := h m hm hown
  refine ⟨hn, (m.setTags_frame id tags).1.trans hcreated.name, ?_, fun k hk hid => ?_⟩
  · unfold Network.setTags
    split
    · exact hcreated.description
    · exact hcreated.description
  · obtain ⟨k', hk', rfl⟩ := List.mem_map.mp hk
    rw [(k'.setTags_frame id tags).2, (m.setTags_frame id tags).2] at hid
    rw [hcreated.unique k' hk' hid]

theorem Marked.create (h : Marked cfg ns c) {id : Id} (hfresh : id ∉ c.networks.map Network.id) :
    Marked cfg ns { c with networks := c.networks ++
      [⟨id, netName ns, joinedTags cfg.tags, []⟩] } := by
  intro n hn hown
  rcases List.mem_append.mp hn with hold | hnew
  · obtain ⟨_, hname, hdescription, hunique⟩ := h n hold hown
    refine ⟨hn, hname, hdescription, fun m hm hid => ?_⟩
    rcases List.mem_append.mp hm with hm | hm
    · exact hunique m hm hid
    · rw [List.mem_singleton.mp hm] at hid
      exact absurd (List.mem_map.mpr ⟨n, hold, hid.symm⟩) hfresh
  · obtain rfl := List.mem_singleton.mp hnew
    refine ⟨hn, rfl, rfl, fun m hm hid => ?_⟩
    rcases List.mem_append.mp hm with hm | hm
    · exact absurd (List.mem_map.mpr ⟨m, hm, hid⟩) hfresh
    · exact List.mem_singleton.mp hm

theorem marked_tagNetwork {site : Site} {id : Id} :
    Keeps (Marked cfg ns) (tagNetwork cfg env site id) := by
  unfold tagNetwork act
  split
  · exact Keeps.pure
  · exact keeps_call fun w hw => hw.setTags id cfg.tags

theorem marked_tagSubnet {site : Site} {id : Id} :
    Keeps (Marked cfg ns) (tagSubnet cfg env site id) := by
  unfold tagSubnet act
  split
  · exact Keeps.pure
  · exact marked_call fun _ => rfl

theorem marked_createNetwork : Keeps (Marked cfg ns) (createNetwork cfg env ns) := by
  have hfind : Keeps (Marked cfg ns) (findNetwork cfg env ns) := by
    unfold findNetwork read
    refine Keeps.bind (marked_call fun _ => rfl) fun cloud => ?_
    cases cloud.networks.find? fun n => Own ns n with
    | none => exact Keeps.pure
    | some n =>
      simp only
      split
      · exact Keeps.bind marked_tagNetwork fun _ => Keeps.pure
      · exact Keeps.pure
  refine Keeps.bind (hfind.tryCatch fun e => ?_) fun found => ?_
  · split
    · exact Keeps.pure
    · exact Keeps.throw
  · cases found with
    | some id => exact Keeps.pure
    | none =>
      exact Keeps.bind (keeps_call fun w hw => hw.create (env.fresh w).1) fun id =>
        Keeps.bind marked_tagNetwork fun _ => Keeps.pure

theorem marked_createSubnet {netId : Id} : Keeps (Marked cfg ns) (createSubnet cfg env netId) := by
  unfold createSubnet read
  refine Keeps.bind (marked_call fun _ => rfl) fun cloud => ?_
  cases cloud.subnets.find? fun s => s.networkId = netId with
  | some s =>
    simp only
    split
    · exact Keeps.bind marked_tagSubnet fun _ => Keeps.pure
    · exact Keeps.pure
  | none =>
    have hnew : Keeps (Marked cfg ns) (newSubnet env netId) := by
      unfold newSubnet
      exact marked_call fun _ => rfl
    exact Keeps.bind (marked_call fun _ => rfl) fun _ =>
      Keeps.bind (hnew.tryCatch fun _ => Keeps.throw) fun s =>
      Keeps.bind marked_tagSubnet fun _ => Keeps.pure

theorem marked_patchStatus {data : Status} : Keeps (Marked cfg ns) (patchStatus env data) := by
  unfold patchStatus act
  refine marked_call fun w => ?_
  simp only
  split
  · rfl
  · rfl

theorem marked_addEvent : Keeps (Marked cfg ns) (addEvent env) := by
  unfold addEvent act
  exact marked_call fun _ => rfl

theorem marked_reporting {kind : Fault → Bool} (hx : Keeps (Marked cfg ns) x) :
    Keeps (Marked cfg ns) (reporting env kind x) := by
  refine hx.tryCatch fun e => ?_
  simp only
  split
  · exact Keeps.bind marked_addEvent fun _ => Keeps.throw
  · exact Keeps.throw

/-- A patch, an event and the result. -/
theorem marked_record {data : Status} {a : α} :
    Keeps (Marked cfg ns) (do patchStatus env data; addEvent env; return a) :=
  Keeps.bind marked_patchStatus fun _ => Keeps.bind marked_addEvent fun _ => Keeps.pure

theorem marked_onPresent (env : Env) (labels : List (String × String)) (st : Status) :
    Keeps (Marked cfg ns) (onPresent cfg env ns labels st) := by
  unfold onPresent
  refine Keeps.bind (marked_call fun _ => rfl) fun gone => Keeps.bind ?_ fun network =>
    Keeps.bind ?_ fun subnet => Keeps.bind ?_ fun created => ?_
  · unfold ensureNetwork
    split
    · exact Keeps.pure
    · cases gone with
      | true => exact Keeps.throw
      | false => exact Keeps.bind (marked_reporting marked_createNetwork) fun _ => marked_record
  · unfold ensureSubnet
    split
    · exact Keeps.pure
    · cases gone with
      | true => exact Keeps.throw
      | false => exact Keeps.bind (marked_reporting marked_createSubnet) fun _ => marked_record
  · unfold ensureRouter
    split
    · exact Keeps.pure
    · refine Keeps.bind (marked_reporting ?_) fun _ => marked_record
      unfold addSubnetToRouter act
      exact Keeps.bind (marked_call fun _ => rfl) fun _ => Keeps.pure
  · unfold updateLabels
    split
    · refine Keeps.bind (marked_call fun _ => rfl) fun selectors => ?_
      have hrecord : Keeps (Marked cfg ns)
          (do patchStatus env { nsLabels := some labels }; addEvent env) :=
        Keeps.bind marked_patchStatus fun _ => marked_addEvent
      simp only
      split
      · unfold act
        exact Keeps.bind (marked_call fun _ => rfl) fun _ => hrecord
      · exact hrecord
    · exact Keeps.pure

theorem marked_of_reach {ok : World → Env × List (String × String) → Prop} {w : World}
    (h : Reach (networkSystem cfg ns) ok w) : Marked cfg ns w.cloud := by
  refine h.invariant (I := fun w => Marked cfg ns w.cloud)
    (fun w (hw : (networkSystem cfg ns).init w) n hn hown => absurd hown (hw.1 n hn)) ?_
  rintro w a w' hw _ ⟨st, _, rfl⟩
  have hrun := marked_onPresent a.1 a.2 st w hw
  cases hresult : onPresent cfg a.1 ns a.2 st w with
  | ok _ w' =>
    rw [hresult] at hrun
    exact hrun
  | error _ w' =>
    rw [hresult] at hrun
    exact hrun

/-! ## The search of `on_finalize` -/

/-- Every call returns, and the namespace is there. -/
def Obliging (env : Env) : Prop :=
  (∀ site w, env.fate site w = .returns) ∧ ∀ w, env.namespaceGone w = false

/-- What the search returns is another network. -/
theorem Created.ne_of_searched (h : Created cfg ns n c) {m : Network} (hm : m ∈ searched ns c) :
    m.id ≠ n.id := by
  intro hid
  obtain ⟨hmem, hname⟩ := List.mem_filter.mp hm
  obtain rfl := h.unique m hmem hid
  rcases of_decide_eq_true hname with hname | hname
  · exact netName_ne_searchName ns (h.name.symm.trans hname)
  · exact netName_ne_oldNetName ns (h.name.symm.trans hname)

theorem Created.delete (h : Created cfg ns n c) {id : Id} (hid : id ≠ n.id) :
    Created cfg ns n { c with
      networks := c.networks.filter fun n => n.id ≠ id
      subnets := c.subnets.filter fun s => s.networkId ≠ id } where
  mem := List.mem_filter.mpr ⟨h.mem, decide_eq_true hid.symm⟩
  name := h.name
  description := h.description
  unique := fun m hm => h.unique m (List.mem_of_mem_filter hm)

/-- The program keeps the network, and fails only if something it calls does. -/
def Spares (cfg : Config) (env : Env) (ns : Namespace) (n : Network) (x : Handler α) : Prop :=
  Triple (fun w => Created cfg ns n w.cloud) x (fun _ w => Created cfg ns n w.cloud)
    fun _ _ => ¬ Obliging env

theorem not_obliging {site : Site} {w : World} {e : Fault} {b : Bool}
    (hfate : env.fate site w = .raises e b) : ¬ Obliging env := by
  intro hob
  rw [hob.1] at hfate
  cases hfate

theorem spares_call {site : Site} {effect : World → α × Cloud}
    (h : ∀ w, Created cfg ns n w.cloud → Created cfg ns n (effect w).2) :
    Spares cfg env ns n (call env site effect) := by
  refine triple_call (P := Created cfg ns n) (Q := fun _ => Created cfg ns n)
    (E := fun _ _ => ¬ Obliging env) h fun w e b hfate _ => ?_
  exact ⟨not_obliging hfate, not_obliging hfate⟩

theorem spares_deleteSearched : ∀ {found : List Network}, (∀ m ∈ found, m.id ≠ n.id) →
    Spares cfg env ns n (deleteSearched env ns found)
  | [], _ => Triple.pure fun _ hw => hw
  | m :: rest, hne => by
    have hrest : Spares cfg env ns n (deleteSearched env ns rest) :=
      spares_deleteSearched fun k hk => hne k (List.mem_cons_of_mem _ hk)
    unfold deleteSearched act
    simp only
    split
    · have hdelete : Spares cfg env ns n (deleteNetwork env m.id) := by
        unfold deleteNetwork act
        exact spares_call fun w hw => hw.delete (hne m List.mem_cons_self)
      exact Triple.bind (spares_call fun _ hw => hw) fun _ =>
        Triple.bind (Triple.tryCatch hdelete fun _ => Triple.throw fun _ hw => hw) fun _ => hrest
    · exact hrest

theorem spares_deleteNetworks (hst : st.netId = none) :
    Spares cfg env ns n (deleteNetworks env ns st) := by
  unfold deleteNetworks read
  rw [hst]
  simp only
  have hgone : Triple (fun w => Created cfg ns n w.cloud)
      (call env .getNamespace fun w => (env.namespaceGone w, w.cloud))
      (fun gone w => Created cfg ns n w.cloud ∧ (gone = true → ¬ Obliging env))
      fun _ _ => ¬ Obliging env := by
    refine triple_call (P := Created cfg ns n)
      (Q := fun gone c => Created cfg ns n c ∧ (gone = true → ¬ Obliging env))
      (E := fun _ _ => ¬ Obliging env) (fun w hw => ⟨hw, fun hgone hob => ?_⟩)
      fun w e b hfate _ => ?_
    · rw [hob.2] at hgone
      cases hgone
    · exact ⟨not_obliging hfate, not_obliging hfate⟩
  refine Triple.bind hgone fun gone => ?_
  cases gone with
  | true =>
    exact Triple.bind (Q := fun _ _ => False) (Triple.throw fun w hw => hw.2 rfl)
      fun _ _ h => h.elim
  | false =>
    have hlist : Triple (fun w => Created cfg ns n w.cloud ∧ (false = true → ¬ Obliging env))
        (call env .listNetworks fun w => (w.cloud, w.cloud))
        (fun cloud w => Created cfg ns n w.cloud ∧ ∀ m ∈ searched ns cloud, m.id ≠ n.id)
        fun _ _ => ¬ Obliging env :=
      triple_call (P := fun c => Created cfg ns n c ∧ (false = true → ¬ Obliging env))
        (Q := fun cloud c => Created cfg ns n c ∧ ∀ m ∈ searched ns cloud, m.id ≠ n.id)
        (E := fun _ _ => ¬ Obliging env)
        (fun w hw => ⟨hw.1, fun m hm => hw.1.ne_of_searched hm⟩)
        fun w e b hfate _ => ⟨not_obliging hfate, not_obliging hfate⟩
    exact Triple.bind hlist fun cloud w hw => spares_deleteSearched hw.2 w hw.1

/-- The network on which `on_present` stopped outlives `on_finalize`. -/
theorem triple_onFinalize (env : Env) (hst : st.netId = none) :
    Triple (fun w => Created cfg ns n w.cloud) (onFinalize cfg env ns st)
      (fun _ w => Created cfg ns n w.cloud ∧ w.cloud.finalizer = false)
      fun _ _ => ¬ Obliging env := by
  have hremove : Triple (fun w => Created cfg ns n w.cloud)
      (act env .removeFinalizer fun w => { w.cloud with finalizer := false })
      (fun _ w => Created cfg ns n w.cloud ∧ w.cloud.finalizer = false)
      fun _ _ => ¬ Obliging env :=
    triple_call (P := Created cfg ns n) (Q := fun _ c => Created cfg ns n c ∧ c.finalizer = false)
      (E := fun _ _ => ¬ Obliging env)
      (fun w hw => ⟨⟨hw.mem, hw.name, hw.description, hw.unique⟩, rfl⟩)
      fun w e b hfate _ => ⟨not_obliging hfate, not_obliging hfate⟩
  have hstill : ∀ {site}, Spares cfg env ns n (act env site World.cloud) :=
    spares_call fun _ hw => hw
  unfold onFinalize
  refine Triple.bind (spares_deleteNetworks hst) fun _ =>
    Triple.bind (spares_call fun _ hw => hw) fun selectors => ?_
  simp only
  split
  · exact Triple.bind hstill fun _ => hremove
  · exact hremove

end Proofs

/-- **The network `on_present` did not live to record is not found**: from whatever run of
`on_present`, `on_finalize` without a `netId` does not select the network, and whenever it
returns, as it does if every call succeeds, the finalizer is gone and the network is not. -/
theorem onFinalize_misses {cfg : Config} {ns : Namespace} {w : World} {st : Status} {n : Network}
    (hreach : Reach (networkSystem cfg ns) (fun _ _ => True) w) (hst : st.netId = none)
    (hn : n ∈ w.cloud.networks) (hown : Own ns n) :
    n ∉ selected ns w.cloud ∧
      ∀ env, (∀ w', onFinalize cfg env ns st w = .ok () w' →
          n ∈ w'.cloud.networks ∧ w'.cloud.finalizer = false) ∧
        (Obliging env → ∃ w', onFinalize cfg env ns st w = .ok () w') := by
  have hcreated := marked_of_reach hreach n hn hown
  refine ⟨fun hsel => ?_, fun env => ?_⟩
  · exact hcreated.ne_of_searched (List.mem_of_mem_filter hsel) rfl
  · have hrun := triple_onFinalize env hst w hcreated
    cases hresult : onFinalize cfg env ns st w with
    | ok _ w' =>
      rw [hresult] at hrun
      refine ⟨fun w'' hw => ?_, fun _ => ⟨w', rfl⟩⟩
      cases hw
      exact ⟨hrun.1.mem, hrun.2⟩
    | error e w' =>
      rw [hresult] at hrun
      exact ⟨nofun, fun hob => absurd hob hrun⟩

/-- The state after the crash. -/
def orphaned : World := ending (onPresent webConfig stopsAfterCreation webNamespace [] {} untouched)

theorem orphaned_reach : Reach (networkSystem webConfig webNamespace) (fun _ _ => True) orphaned :=
  .step (a := (stopsAfterCreation, [])) (.init untouched_init) trivial ⟨{}, rfl, rfl⟩

def webNetwork : Network :=
  ⟨⟨"n", by decide⟩, netName webNamespace, joinedTags webConfig.tags, []⟩

theorem orphaned_networks : orphaned.cloud.networks = [webNetwork] := by decide +kernel

theorem onFinalize_misses_orphaned :
    webNetwork ∈ orphaned.cloud.networks ∧ webNetwork ∉ selected webNamespace orphaned.cloud ∧
      ∃ w', onFinalize webConfig (webEnv fun _ => .returns) webNamespace {} orphaned = .ok () w' ∧
        webNetwork ∈ w'.cloud.networks ∧ w'.cloud.finalizer = false := by
  have hmem : webNetwork ∈ orphaned.cloud.networks := orphaned_networks ▸ List.mem_singleton_self _
  have hnone : ({} : Status).netId = none := rfl
  obtain ⟨hsel, hrun⟩ := onFinalize_misses orphaned_reach hnone hmem (.inl rfl)
  obtain ⟨hleft, hreturns⟩ := hrun (webEnv fun _ => .returns)
  obtain ⟨w', hw'⟩ := hreturns ⟨fun _ _ => rfl, fun _ => rfl⟩
  exact ⟨hmem, hsel, w', hw', hleft w' hw'⟩

/-- Nothing is selected, and the finalizer is removed with the network still there. -/
theorem onFinalize_leaves_orphan :
    ∃ w', onFinalize webConfig (webEnv fun _ => .returns) webNamespace {} orphaned = .ok () w' ∧
      selected webNamespace orphaned.cloud ≠ [webNetwork] ∧
      w'.cloud.networks = [webNetwork] ∧ w'.cloud.finalizer = false :=
  ⟨_, rfl, by decide +kernel, by decide +kernel, rfl⟩

end KuryrNetwork

end KuryrKubernetes
