import CitrateCluster.Ipc

namespace CitrateCluster.DaemonStep

open Std (ExtTreeMap ExtTreeSet)
open Roster Collections Device EffectiveRoster Transport Session Daemon ClusterDaemon Ipc

variable {T : Type} [MeshTransport T] {V : LinkVerifier} {d d' d'' : ClusterDaemon T}
  {g : String} {s : ClusterSession T} {ok : SessionOp T → Prop}

/-- The session a request on a group works on: the one the group has, or a fresh one. -/
def Opened (d : ClusterDaemon T) (g : String) (s : ClusterSession T) : Prop :=
  d.groups[g]? = some s ∨
    d.groups[g]? = none ∧ ∃ transport, d.makeTransport g = .ok transport ∧
      s = ClusterSession.new [] transport

/-- At most the session of one group has changed, by operations of a given kind. -/
structure Touched (g : String) (ok : SessionOp T → Prop) (d d' : ClusterDaemon T) : Prop where
  groups : d'.groups = d.groups ∨ ∃ s ops, Opened d g s ∧ (∀ op ∈ ops, ok op) ∧
    d'.groups = d.groups.insert g (SessionOp.runAll ops s)
  deviceState : d'.deviceState = d.deviceState
  makeTransport : d'.makeTransport = d.makeTransport

theorem Touched.refl (d : ClusterDaemon T) : Touched g ok d d := ⟨.inl rfl, rfl, rfl⟩

theorem Touched.trans (h : Touched g ok d d') (h' : Touched g ok d' d'') : Touched g ok d d'' := by
  refine ⟨?_, h'.deviceState.trans h.deviceState, h'.makeTransport.trans h.makeTransport⟩
  obtain hg | ⟨s, ops, hs, hops, hg⟩ := h.groups
  · have hopened : ∀ s, Opened d' g s ↔ Opened d g s := by
      intro s
      simp only [Opened, hg, h.makeTransport]
    simpa only [hg, hopened] using h'.groups
  · obtain hg' | ⟨s', ops', hs', hops', hg'⟩ := h'.groups
    · exact .inr ⟨s, ops, hs, hops, hg'.trans hg⟩
    · have hs' : s' = SessionOp.runAll ops s := by
        simpa [Opened, hg, eq_comm] using hs'
      refine .inr ⟨s, ops ++ ops', hs, ?_, ?_⟩
      · intro op hop
        exact (List.mem_append.mp hop).elim (hops op) (hops' op)
      · rw [hg', hg, insert_insert, hs']
        simp only [SessionOp.runAll, List.foldl_append]

theorem touched_setSession (hs : Opened d g s) (op : SessionOp T) (hop : ok op) :
    Touched g ok d (d.setSession g (op.run s)) :=
  ⟨.inr ⟨s, [op], hs, by simpa using hop, rfl⟩, rfl, rfl⟩

theorem touched_syncAdmission (d : ClusterDaemon T) (g : String) :
    Touched g SessionOp.IsRequest d (d.syncAdmission g) := by
  rw [syncAdmission]
  split
  · next s hs => exact touched_setSession (.inl hs) .sync trivial
  · exact .refl d

theorem touched_readConnected (d : ClusterDaemon T) (g : String) :
    Touched g SessionOp.IsRequest d (d.readConnected g).2 := by
  rw [readConnected]
  split
  · exact .refl d
  · next s hs => exact touched_setSession (.inl hs) .connected trivial

theorem touched_drainIntoShared (d : ClusterDaemon T) (g : String) :
    Touched g SessionOp.IsRequest d (d.drainIntoShared g).2 := by
  rw [drainIntoShared]
  split
  · exact .refl d
  · next s hs =>
    have h : Touched g SessionOp.IsRequest d _ := touched_setSession (.inl hs) .drain trivial
    dsimp only
    split
    · exact h
    · exact ⟨h.groups, h.deviceState, h.makeTransport⟩

omit [MeshTransport T] in
theorem ensureSession_cases (d : ClusterDaemon T) (g : String) :
    (∃ e, d.ensureSession g = .error e) ∨
      ∃ s, Opened d g s ∧ d.ensureSession g = .ok (s, d.setSession g s) := by
  rw [ensureSession]
  cases hs : d.groups[g]? with
  | some s =>
    have hd : d.setSession g s = d := by
      rw [setSession, insert_eq_self hs]
    exact .inr ⟨s, .inl hs, by rw [hd]⟩
  | none =>
    dsimp only
    split
    · exact .inl ⟨_, rfl⟩
    · split
      · exact .inl ⟨_, rfl⟩
      · cases ht : d.makeTransport g with
        | error e => exact .inl ⟨_, rfl⟩
        | ok transport => exact .inr ⟨_, .inr ⟨hs, transport, ht, rfl⟩, rfl⟩

theorem applyRoster_of_getElem? (hs : d.groups[g]? = some s) (roster : Entries) :
    d.applyRoster g roster =
      (.ok (s.applyRoster roster).1, d.setSession g (s.applyRoster roster).2) := by
  simp only [applyRoster, ensureSession, hs]

omit [MeshTransport T] in
theorem opened_of_ensureSession (h : d.ensureSession g = .ok (s, d')) :
    Opened d g s ∧ d' = d.setSession g s := by
  obtain ⟨e, he⟩ | ⟨s', hs, he⟩ := ensureSession_cases d g
  · simp [he] at h
  · rw [he] at h
    cases h
    exact ⟨hs, rfl⟩

/-- The registry of a group, empty before its first roster. -/
def registryOf (d : ClusterDaemon T) (g : String) : DeviceRegistry :=
  (d.deviceState[g]?.getD default).registry

/-- The registry that an update of a group's device state leaves, and what it refuses. -/
def registryAfter (V : LinkVerifier) (d : ClusterDaemon T) (g : String)
    (links : List DeviceLinkWire) (revocations : List RevocationWire) :
    List LinkRejection × DeviceRegistry :=
  (registryOf d g).update (links.map DeviceLinkWire.toSigned)
    (revocations.map RevocationWire.toSigned) V

/-- The daemon once a roster has taken effect on a session of the group. -/
def rostered (V : LinkVerifier) (d : ClusterDaemon T) (g : String) (s : ClusterSession T)
    (roster : Entries) (links : List DeviceLinkWire) (revocations : List RevocationWire) :
    ClusterDaemon T :=
  let registry := (registryAfter V d g links revocations).2
  { d with
    groups := d.groups.insert g (s.applyRoster (effectiveRoster roster registry)).2
    deviceState := d.deviceState.insert g ⟨roster, registry⟩ }

theorem handleRequest_setRoster_of_ensureSession (V : LinkVerifier)
    (hg : d.ensureGroupAllowed g = .ok ()) (hs : d.ensureSession g = .ok (s, d.setSession g s))
    (roster : Entries) (links : List DeviceLinkWire) (revocations : List RevocationWire) :
    handleRequest V d (.setRoster g roster links revocations) =
      (.reconciled
          (s.applyRoster (effectiveRoster roster (registryAfter V d g links revocations).2)).1
          ((registryAfter V d g links revocations).1.map describeRejection),
        rostered V d g s roster links revocations) := by
  simp only [handleRequest, setRosterWithDevices, hg, hs]
  rw [applyRoster_of_getElem? (s := s) (by simp [setSession])]
  simp only [setSession, insert_insert]
  rfl

/-- A new roster is either refused, and nothing changes, or takes effect. -/
theorem handleRequest_setRoster_cases (V : LinkVerifier) (d : ClusterDaemon T) (g : String)
    (roster : Entries) (links : List DeviceLinkWire) (revocations : List RevocationWire) :
    (∃ e, handleRequest V d (.setRoster g roster links revocations) = (.error e, d)) ∨
      ∃ s, Opened d g s ∧ handleRequest V d (.setRoster g roster links revocations) =
        (.reconciled
            (s.applyRoster (effectiveRoster roster (registryAfter V d g links revocations).2)).1
            ((registryAfter V d g links revocations).1.map describeRejection),
          rostered V d g s roster links revocations) := by
  cases hg : d.ensureGroupAllowed g with
  | error e => exact .inl ⟨e, by simp only [handleRequest, setRosterWithDevices, hg]⟩
  | ok _ =>
    obtain ⟨e, he⟩ | ⟨s, hs, he⟩ := ensureSession_cases d g
    · exact .inl ⟨e, by simp only [handleRequest, setRosterWithDevices, hg, he]⟩
    · exact .inr ⟨s, hs, handleRequest_setRoster_of_ensureSession V hg he roster links revocations⟩

/-- A call that is answered with a reconciliation has taken effect. -/
theorem step_of_reconciled {roster : Entries} {links : List DeviceLinkWire}
    {revocations : List RevocationWire} {evicted rejected : List String}
    (h : (handleRequest V d (.setRoster g roster links revocations)).1 =
      .reconciled evicted rejected) :
    ∃ s, Opened d g s ∧ step V d (.request (.setRoster g roster links revocations)) =
      rostered V d g s roster links revocations := by
  obtain ⟨e, he⟩ | ⟨s, hs, he⟩ := handleRequest_setRoster_cases V d g roster links revocations
  · simp [he] at h
  · exact ⟨s, hs, by rw [step, he]⟩

theorem handleRequest_setRoster_of_getElem? (V : LinkVerifier)
    (hg : d.ensureGroupAllowed g = .ok ()) (hs : d.groups[g]? = some s)
    (roster : Entries) (links : List DeviceLinkWire) (revocations : List RevocationWire) :
    ∃ evicted rejected, handleRequest V d (.setRoster g roster links revocations) =
      (.reconciled evicted rejected, rostered V d g s roster links revocations) := by
  obtain ⟨e, he⟩ | ⟨s', hs', he⟩ := ensureSession_cases d g
  · simp [ensureSession, hs] at he
  · have hs' : s = s' := by simpa [Opened, hs] using hs'
    subst hs'
    exact ⟨_, _, handleRequest_setRoster_of_ensureSession V hg he roster links revocations⟩

/-- The requests that touch no device state and end no session. -/
def Plain : Request → Prop
  | .setRoster _ _ _ _ | .leave _ => False
  | _ => True

theorem touched_join (d : ClusterDaemon T) (g : String) :
    Touched g SessionOp.IsRequest d (d.join g).2 := by
  rw [join]
  split
  · exact .refl d
  · split
    · exact .refl d
    · next s d' h =>
      obtain ⟨hs, rfl⟩ := opened_of_ensureSession h
      exact ⟨.inr ⟨s, [], hs, by simp, rfl⟩, rfl, rfl⟩

theorem touched_seed (d : ClusterDaemon T) (g : String) :
    Touched g SessionOp.IsRequest d (d.seed g).2 := by
  rw [seed]
  split
  · exact .refl d
  · next s hs =>
    have h : Touched g SessionOp.IsRequest d _ := touched_setSession (.inl hs) .seedAddrs trivial
    dsimp only
    split
    · exact h
    · split
      · exact h
      · split <;> exact h

theorem touched_addSeed (d : ClusterDaemon T) (g text : String) :
    Touched g SessionOp.IsRequest d (d.addSeed g text).2 := by
  rw [addSeed]
  split
  · exact .refl d
  · next seed _ =>
    split
    · exact .refl d
    · split
      · exact .refl d
      · next s hs => exact touched_setSession (.inl hs) (.addPeers seed.addrs) trivial

theorem touched_status (d : ClusterDaemon T) (g : String) :
    Touched g SessionOp.IsRequest d (d.status g).2 := by
  have h := (touched_syncAdmission d g).trans (touched_drainIntoShared _ g)
  simp only [status]
  split
  · exact h.trans (touched_readConnected _ g)
  · exact h

theorem touched_peers (d : ClusterDaemon T) (g : String) :
    Touched g SessionOp.IsRequest d (d.peers g).2 := by
  simp only [peers]
  split
  · exact touched_syncAdmission d g
  · exact (touched_syncAdmission d g).trans (touched_readConnected _ g)

theorem touched_devices (d : ClusterDaemon T) (g : String) :
    Touched g SessionOp.IsRequest d (d.devices g).2 := by
  simp only [devices]
  split
  · exact touched_syncAdmission d g
  · exact (touched_syncAdmission d g).trans (touched_readConnected _ g)

theorem touched_shareFile (d : ClusterDaemon T) (g cid : String) :
    Touched g SessionOp.IsRequest d (d.shareFile g cid).2 := by
  rw [shareFile]
  split
  · exact .refl d
  · next s hs =>
    split
    · exact .refl d
    · dsimp only
      split
      · exact .refl d
      · have h : Touched g SessionOp.IsRequest d _ :=
          touched_setSession (.inl hs) (.publish d.selfAddress cid) trivial
        exact ⟨h.groups, h.deviceState, h.makeTransport⟩

theorem touched_sharedFilesPage (d : ClusterDaemon T) (g : String) (offset limit : Nat) :
    Touched g SessionOp.IsRequest d (d.sharedFilesPage g offset limit).2 := by
  simp only [sharedFilesPage]
  split <;> exact touched_drainIntoShared d g

theorem touched_handleRequest (V : LinkVerifier) (d : ClusterDaemon T) {r : Request}
    (hr : Plain r) : Touched r.group SessionOp.IsRequest d (handleRequest V d r).2 := by
  cases r with
  | setRoster => exact hr.elim
  | leave => exact hr.elim
  | devices g => exact touched_devices d g
  | join g =>
    have h := touched_join d g
    simp only [handleRequest]
    split <;> simp_all [Request.group]
  | status g => exact touched_status d g
  | peers g => exact touched_peers d g
  | shareFile g cid =>
    have h := touched_shareFile d g cid
    simp only [handleRequest]
    split <;> simp_all [Request.group]
  | poll g => exact (touched_syncAdmission d g).trans (touched_drainIntoShared _ g)
  | sharedFiles g offset limit => exact touched_sharedFilesPage d g offset _
  | seed g =>
    have h := touched_seed d g
    simp only [handleRequest]
    split <;> simp_all [Request.group]
  | addSeed g text =>
    have h := touched_addSeed d g text
    simp only [handleRequest]
    split <;> simp_all [Request.group]

/-- The events that set no roster, end no session and leave the factory alone. -/
def Quiet : Event T → Prop
  | .request r => Plain r
  | .factory _ => False
  | _ => True

/-- The operations on a session that an event may cause besides a new roster. -/
def Allows : Event T → SessionOp T → Prop
  | .request _, op => op.IsRequest
  | .admitPeer _ address role, op => op = .join address role
  | .dropPeer _ address, op => op = .leave address
  | .transport _ f, op => op = .change f
  | .factory _, _ => False

/-- What one event does to a daemon. -/
inductive Effect (V : LinkVerifier) (d : ClusterDaemon T) : Event T → ClusterDaemon T → Prop where
  | refused {g : String} {roster : Entries} {links : List DeviceLinkWire}
      {revocations : List RevocationWire} {message : String}
      (h : (handleRequest V d (.setRoster g roster links revocations)).1 = .error message) :
      Effect V d (.request (.setRoster g roster links revocations)) d
  | rostered {g : String} {s : ClusterSession T} {roster : Entries} {links : List DeviceLinkWire}
      {revocations : List RevocationWire} {evicted rejected : List String} (hs : Opened d g s)
      (h : (handleRequest V d (.setRoster g roster links revocations)).1 =
        .reconciled evicted rejected) :
      Effect V d (.request (.setRoster g roster links revocations))
        (rostered V d g s roster links revocations)
  | left (g : String) : Effect V d (.request (.leave g)) (d.leave g)
  | factory (makeTransport : String → Except String T) :
      Effect V d (.factory makeTransport) { d with makeTransport }
  | quiet {e : Event T} {g : String} {d' : ClusterDaemon T} (he : Quiet e)
      (h : Touched g (Allows e) d d') : Effect V d e d'

theorem touched_admitPeer (d : ClusterDaemon T) (g address role : String) :
    Touched g (fun op => op = .join address role) d (d.admitPeer g address role).2 := by
  rw [ClusterDaemon.admitPeer]
  split
  · exact .refl d
  · split
    · exact .refl d
    · next s d' h =>
      obtain ⟨hs, rfl⟩ := opened_of_ensureSession h
      refine ⟨.inr ⟨s, [.join address role], hs, by simp, ?_⟩, rfl, rfl⟩
      simp only [setSession, insert_insert]
      rfl

theorem effect_step (V : LinkVerifier) (d : ClusterDaemon T) (e : Event T) :
    Effect V d e (step V d e) := by
  cases e with
  | request r =>
    by_cases hr : Plain r
    · exact .quiet hr (touched_handleRequest V d hr)
    · cases r with
      | setRoster g roster links revocations =>
        obtain ⟨m, hm⟩ | ⟨s, hs, hm⟩ :=
          handleRequest_setRoster_cases V d g roster links revocations
        · rw [step, hm]
          exact .refused (congrArg Prod.fst hm)
        · rw [step, hm]
          exact .rostered hs (congrArg Prod.fst hm)
      | leave g => exact .left g
      | _ => exact absurd trivial hr
  | admitPeer g address role => exact .quiet trivial (touched_admitPeer d g address role)
  | dropPeer g address =>
    refine .quiet (show Quiet (.dropPeer g address) from trivial) (g := g) ?_
    rw [step, ClusterDaemon.dropPeer]
    split
    · next s hs => exact touched_setSession (.inl hs) (.leave address) rfl
    · exact .refl d
  | transport g f =>
    refine .quiet (show Quiet (.transport g f) from trivial) (g := g) ?_
    rw [step]
    split
    · next s hs => exact touched_setSession (.inl hs) (.change f) rfl
    · exact .refl d
  | factory makeTransport => exact .factory makeTransport

/-- What holds of the factory keeps holding, if it holds of every factory that an event brings. -/
theorem Effect.factory_induction {e : Event T} {P : (String → Except String T) → Prop}
    (he : Effect V d e d') (hnew : ∀ makeTransport, e = .factory makeTransport → P makeTransport)
    (h : P d.makeTransport) : P d'.makeTransport := by
  cases he with
  | factory makeTransport => exact hnew makeTransport rfl
  | quiet _ ht => exact ht.makeTransport ▸ h
  | _ => exact h

/-- Every session of a daemon has a property. -/
def AllSessions (P : ClusterSession T → Prop) (d : ClusterDaemon T) : Prop :=
  ∀ (g : String) (s : ClusterSession T), d.groups[g]? = some s → P s

omit [MeshTransport T] in
theorem allSessions_of_initial {P : ClusterSession T → Prop} (h : Initial d) : AllSessions P d := by
  intro g s hs
  simp [h.groups] at hs

omit [MeshTransport T] in
theorem AllSessions.opened {P : ClusterSession T → Prop} (h : AllSessions P d)
    (hnew : ∀ g transport, d.makeTransport g = .ok transport → P (.new [] transport))
    (hs : Opened d g s) : P s := by
  obtain hs | ⟨_, transport, ht, rfl⟩ := hs
  · exact h g s hs
  · exact hnew g transport ht

/-- What a fresh session of a group has, what the operations an event allows preserve and what a new
roster preserves holds of the group's session after the event. -/
theorem session_step {P : ClusterSession T → Prop} {e : Event T}
    (h : ∀ s, d.groups[g]? = some s → P s) (he : Effect V d e d')
    (hnew : ∀ transport, d.makeTransport g = .ok transport → P (.new [] transport))
    (hop : ∀ op, Allows e op → ∀ s, P s → P (op.run s))
    (hroster : ∀ s roster, P s → d'.groups[g]? = some (s.applyRoster roster).2 →
      P (s.applyRoster roster).2) (hs : d'.groups[g]? = some s) : P s := by
  have hopened : ∀ s, Opened d g s → P s := by
    rintro s (hs | ⟨_, transport, ht, rfl⟩)
    · exact h s hs
    · exact hnew transport ht
  cases he with
  | refused => exact h s hs
  | @rostered k s₀ roster links revocations _ _ hs₀ _ =>
    by_cases hk : k = g
    · subst hk
      have hs' : (rostered V d k s₀ roster links revocations).groups[k]? = some
          (s₀.applyRoster (effectiveRoster roster (registryAfter V d k links revocations).2)).2 := by
        simp [rostered]
      cases hs'.symm.trans hs
      exact hroster s₀ _ (hopened s₀ hs₀) hs'
    · refine h s ?_
      simpa only [rostered, ExtTreeMap.getElem?_insert, compare_eq_iff_eq, hk, if_false] using hs
  | left k =>
    simp only [ClusterDaemon.leave, ExtTreeMap.getElem?_erase] at hs
    split at hs
    · cases hs
    · exact h s hs
  | factory => exact h s hs
  | @quiet _ k _ _ ht =>
    obtain hg | ⟨s₀, ops, hs₀, hops, hg⟩ := ht.groups
    · exact h s (hg ▸ hs)
    · rw [hg, ExtTreeMap.getElem?_insert] at hs
      split at hs
      · next hk =>
        cases compare_eq_iff_eq.mp hk
        cases hs
        exact SessionOp.runAll_induction (fun op hmem => hop op (hops op hmem)) (hopened s₀ hs₀)
      · exact h s hs

/-- What a fresh session has, what the operations an event allows preserve and what a new roster
preserves holds of every session after the event. -/
theorem AllSessions.step {P : ClusterSession T → Prop} {e : Event T} (h : AllSessions P d)
    (he : Effect V d e d')
    (hnew : ∀ g transport, d.makeTransport g = .ok transport → P (.new [] transport))
    (hop : ∀ op, Allows e op → ∀ s, P s → P (op.run s))
    (hroster : ∀ s roster, P s → P (s.applyRoster roster).2) :
    AllSessions P d' := by
  intro g s hs
  exact session_step (h g) he (hnew g) hop (fun s roster hs _ => hroster s roster hs) hs

end CitrateCluster.DaemonStep
