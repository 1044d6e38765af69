import CitrateCluster.GroupState
import CitrateCluster.Schedule
import CitrateCluster.StateWrites

namespace CitrateCluster.Offboarding

open Std (ExtTreeMap ExtTreeSet)
open CitrateCluster.Membership Runs Roster Collections Device Registry EffectiveRoster Transport
  PeerAddrs Session Daemon ClusterDaemon Ipc DaemonStep GroupState StateWrites SwarmLoop
  SwarmConnected Authorization MeshRun Schedule

variable {Key : Type} {I : Libp2p Key} {w w' : Wire} {a : String}

section Silence

/-- The wire does not authorize an address, and no message of it waits. -/
structure Silent (a : String) (w : Wire) : Prop where
  unauthorized : a ∉ w.authorized
  waiting : ∀ m ∈ waiting w, m.sender ≠ a

theorem silent_new (topic : String) (localPeer : PeerId) : Silent a (.new topic localPeer) where
  unauthorized := by simp [Wire.new]
  waiting := by simp [Schedule.waiting, Wire.new, Provenance.pending]

theorem Silent.taskRun (h : Silent a w) (hr : TaskRun I w w') : Silent a w' := by
  obtain ⟨acts, hs⟩ := hr
  refine hs.invariant (I := Silent a) ?_ h
  rintro w e w' h ⟨hs, he⟩
  have hauth : w'.authorized = w.authorized :=
    (TaskRun.shared (I := I) ⟨[e], .single ⟨hs, he⟩⟩).1
  refine ⟨hauth ▸ h.unauthorized, fun m hm => ?_⟩
  obtain hm | hm := mem_waiting_task he hs hm
  · exact h.waiting m hm
  · rintro rfl
    exact h.unauthorized hm

theorem persists_silent : Persists a fun t : Scheduled I => Silent a t.wire where
  pause := fun t h => h.taskRun (taskRun_pause t)
  withdraw := fun t b h => ⟨fun ha => h.unauthorized (mem_erase_iff.mp ha).2, h.waiting⟩
  send := fun t cmd h => ⟨h.unauthorized, h.waiting⟩
  authorize := by
    intro t peer hc h
    change Silent a (t.wire.authorize peer)
    rw [Wire.authorize]
    split
    · next b hb =>
      refine ⟨fun ha => ?_, h.waiting⟩
      obtain rfl | ha := mem_insert_iff.mp ha
      · exact hc hb
      · exact h.unauthorized ha
    · exact h
  drain := fun t h => ⟨h.unauthorized, fun m hm => h.waiting m (List.mem_append_right _ hm)⟩

/-- The address was caught with a message on its way, or is silent. -/
def Settled (a : String) (t : Scheduled I) : Prop := a ∈ t.caught ∨ Silent a t.wire

/-- Once an address is deauthorized, only a message that was waiting then can still come from it. -/
theorem settled_withdraw (a : String) (t : Scheduled I) : Settled a (t.withdraw a) := by
  by_cases hw : (waiting t.wire).any (·.sender == a) = true
  · left
    simp only [Scheduled.withdraw, hw, if_true]
    exact ExtTreeSet.mem_insert_self
  · right
    refine ⟨fun ha => (mem_erase_iff.mp ha).1 rfl, fun m hm he => hw ?_⟩
    exact List.any_eq_true.mpr ⟨m, hm, beq_iff_eq.mpr he⟩

theorem persists_settled : Persists a (Settled a : Scheduled I → Prop) where
  pause := fun t h => h.imp (fun ha => (caught_pause t).symm ▸ ha) (persists_silent.pause t)
  withdraw := by
    intro t b h
    by_cases hb : b = a
    · exact hb ▸ settled_withdraw b t
    · refine h.imp (fun ha => ?_) (persists_silent.withdraw t b)
      simp only [Scheduled.withdraw]
      split
      · exact mem_insert_iff.mpr (.inr ha)
      · exact mem_erase_iff.mpr ⟨Ne.symm hb, ha⟩
  send := fun t cmd h => h.imp id (persists_silent.send t cmd)
  authorize := fun t peer hc h => h.imp id (persists_silent.authorize t peer hc)
  drain := fun t h => h.imp id (persists_silent.drain t)

theorem settled_foldl_disconnect (hcanon : canonicalAddress a = some a) {l : List String}
    (ha : a ∈ l) (t : Scheduled I) : Settled a (l.foldl Transport.disconnect t) := by
  induction l generalizing t with
  | nil => exact absurd ha List.not_mem_nil
  | cons peer l ih =>
    rw [List.foldl_cons]
    obtain rfl | ha := List.mem_cons.mp ha
    · apply persists_settled.foldl_disconnect
      change Settled a (t.disconnect a)
      rw [Scheduled.disconnect, hcanon]
      exact persists_settled.send _ _ (persists_settled.pause _ (settled_withdraw a _))
    · exact ih ha _

/-- A roster that removes an address withdraws its authorization and does not give it back. -/
theorem settled_applyRoster {s : ClusterSession (Scheduled I)} (hsafe : s.membership.Safe)
    {roster : Entries} (ha : a ∈ s.membership.allowed) (hn : a ∉ allowedSet roster) :
    Settled a (s.applyRoster roster).2.transport := by
  have hcanon := (hsafe.canonical a ha).canonicalAddress
  rw [applyRoster_transport]
  apply persists_settled.foldl_authorize (canonicalAddress_ne_of_allowedSet hn)
  exact settled_foldl_disconnect hcanon (mem_removed.mpr ⟨ha, hn⟩) _

/-- A roster that leaves an address out keeps it silent. -/
theorem Silent.applyRoster {s : ClusterSession (Scheduled I)} (h : Silent a s.transport.wire)
    {roster : Entries} (hn : a ∉ allowedSet roster) :
    Silent a (s.applyRoster roster).2.transport.wire := by
  have hp := persists_silent (I := I) (a := a)
  rw [applyRoster_transport]
  apply hp.foldl_authorize (canonicalAddress_ne_of_allowedSet hn)
  exact hp.foldl_disconnect _ (hp.foldl_disconnect _ h)

end Silence

section Reads

variable {T : Type} [MeshTransport T] {V : LinkVerifier} {d : ClusterDaemon T} {g cid : String}

/-- The shared set of a group, empty before its first file. -/
def sharedOf (d : ClusterDaemon T) (g : String) : ExtTreeSet String := d.sharedFiles[g]?.getD ∅

/-- The requests on a group that drain its mesh. -/
def Drains (g : String) : Request → Prop
  | .status k | .poll k | .sharedFiles k _ _ => k = g
  | _ => False

/-- The messages that a request drains. -/
def received (d : ClusterDaemon T) : Request → List MeshMessage
  | .status g | .poll g => ((d.syncAdmission g).drainIntoShared g).1
  | .sharedFiles g _ _ => (d.drainIntoShared g).1
  | _ => []

theorem mem_sharedOf_drainIntoShared (hm : cid ∈ sharedOf (d.drainIntoShared g).2 g) :
    cid ∈ sharedOf d g ∨ ∃ m ∈ (d.drainIntoShared g).1, m.data = cid := by
  rw [drainIntoShared] at hm ⊢
  split at hm
  · exact .inl hm
  · next s _ =>
    dsimp only at hm ⊢
    split at hm
    · exact .inl hm
    · next hne =>
      rw [if_neg hne]
      simp only [sharedOf, ExtTreeMap.getElem?_insert_self, Option.getD_some] at hm
      have hgrown := grows_foldl_keepShared
        (P := fun c => ∃ m ∈ (drain s.transport).1.filter fun m => isValidCid m.data, m.data = c)
        (fun m hm => ⟨m, hm, rfl⟩) (.refl (s := d.sharedFiles[g]?.getD ∅))
      exact hgrown.mem hm

theorem sharedOf_syncAdmission : sharedOf (d.syncAdmission g) g = sharedOf d g := by
  rw [syncAdmission]
  split <;> rfl

/-- A file that a request adds to the shared set came with a message that the request drained. -/
theorem mem_sharedOf_handleRequest {r : Request} (hr : Drains g r)
    (hm : cid ∈ sharedOf (handleRequest V d r).2 g) :
    cid ∈ sharedOf d g ∨ ∃ m ∈ received d r, m.data = cid := by
  cases r with
  | status k =>
    cases hr
    rw [← sharedOf_syncAdmission]
    apply mem_sharedOf_drainIntoShared
    simp only [handleRequest, status] at hm
    split at hm
    · rw [readConnected] at hm
      split at hm <;> exact hm
    · exact hm
  | poll k =>
    cases hr
    rw [← sharedOf_syncAdmission]
    exact mem_sharedOf_drainIntoShared hm
  | sharedFiles k offset limit =>
    cases hr
    apply mem_sharedOf_drainIntoShared
    simp only [handleRequest, sharedFilesPage] at hm
    split at hm <;> exact hm
  | _ => exact hr.elim

end Reads

section Runs

variable {V : LinkVerifier} {d d' : ClusterDaemon (Scheduled I)} {g : String}

/-- A factory whose meshes have just started. -/
def Starting (makeTransport : String → Except String (Scheduled I)) : Prop :=
  ∀ g t, makeTransport g = .ok t → ∃ localPeer, t.wire = .new g localPeer

/-- Requests and connection hooks, with the swarm tasks at work in and between them. -/
def Working (_ : ClusterDaemon (Scheduled I)) : Event (Scheduled I) → Prop
  | .transport _ f => ∀ t, TaskRun I t.wire (f t).wire
  | .factory makeTransport => Starting makeTransport
  | _ => True

/-- As `Working`, and the event leaves an address outside a group's allowed set. -/
def Excluding (V : LinkVerifier) (g a : String) (d : ClusterDaemon (Scheduled I))
    (e : Event (Scheduled I)) : Prop :=
  Working d e ∧ a ∉ allowedOf (step V d e) g

/-- The addresses of a group of which a message was waiting when they were last deauthorized. -/
def caughtOf (d : ClusterDaemon (Scheduled I)) (g : String) : AddressSet :=
  (d.groups[g]?.map fun s => s.transport.caught).getD ∅

/-- A group neither allows an address nor has a message of it on the way. -/
structure Offboarded (a g : String) (d : ClusterDaemon (Scheduled I)) : Prop where
  starting : Starting d.makeTransport
  session : ∀ s, d.groups[g]? = some s → a ∉ s.membership.allowed ∧ Silent a s.transport.wire

theorem starting_step {e : Event (Scheduled I)} (h : Starting d.makeTransport) (he : Working d e) :
    Starting (step V d e).makeTransport := by
  refine (effect_step V d e).factory_induction (fun makeTransport hf => ?_) h
  subst hf
  exact he

theorem Offboarded.step {e : Event (Scheduled I)} (h : Offboarded a g d)
    (hs : Meeting (total (step V)) (Excluding V g a) d e d') : Offboarded a g d' := by
  obtain ⟨rfl, he, hn⟩ := hs
  refine ⟨starting_step h.starting he, fun s hs => ?_⟩
  refine session_step (P := fun s => a ∉ s.membership.allowed ∧ Silent a s.transport.wire)
    h.session (effect_step V d e) (fun t ht => ?_) (fun op hop s hs => ?_)
    (fun s roster hs hg => ?_) hs
  · obtain ⟨localPeer, hw⟩ := h.starting g t ht
    refine ⟨by simp [ClusterSession.new, ClusterMembership.new, mem_allowedSet], ?_⟩
    exact hw ▸ silent_new g localPeer
  · refine ⟨(SessionOp.run_allowed op s).symm ▸ hs.1, ?_⟩
    apply persists_silent.run hs.2 hs.1
    rintro f rfl t ht
    cases e with
    | transport k f' =>
      cases hop
      exact ht.taskRun (he t)
    | request r => exact hop.elim
    | admitPeer => cases hop
    | dropPeer => cases hop
    | factory => exact hop.elim
  · rw [allowedOf_of_getElem? hg] at hn
    exact ⟨hn, hs.2.applyRoster hn⟩

theorem offboarded_of_setRoster (hsound : Sound d) (hstart : Starting d.makeTransport)
    (ha : a ∈ allowedOf d g) {roster : Entries} {links : List DeviceLinkWire}
    {revocations : List RevocationWire}
    (hd : (handleRequest V d (.setRoster g roster links revocations)).2 = d')
    (hremoved : a ∉ allowedOf d' g) (hclean : a ∉ caughtOf d' g) : Offboarded a g d' := by
  subst hd
  obtain ⟨e, he⟩ | ⟨s, hs, he⟩ := handleRequest_setRoster_cases V d g roster links revocations
  · rw [he] at hremoved
    exact absurd ha hremoved
  · rw [he] at hremoved hclean ⊢
    have hsafe : s.membership.Safe :=
      hsound.sessions.opened (fun _ _ _ => ClusterMembership.safe_new []) hs
    rw [← allowed_of_opened hs] at ha
    rw [allowedOf_rostered] at hremoved
    simp only [caughtOf, groups_rostered, Option.map_some, Option.getD_some] at hclean
    refine ⟨hstart, fun s' hs' => ?_⟩
    rw [groups_rostered] at hs'
    cases hs'
    exact ⟨hremoved, (settled_applyRoster hsafe ha hremoved).resolve_left hclean⟩

theorem Offboarded.syncAdmission (h : Offboarded a g d) : Offboarded a g (d.syncAdmission g) := by
  rw [ClusterDaemon.syncAdmission]
  split
  · next s hs =>
    obtain ⟨ha, hsilent⟩ := h.session s hs
    refine ⟨h.starting, fun s' hs' => ?_⟩
    rw [setSession, ExtTreeMap.getElem?_insert_self] at hs'
    cases hs'
    exact ⟨ha, persists_silent.pause _ hsilent⟩
  · exact h

theorem Offboarded.drained (h : Offboarded a g d) {m : MeshMessage}
    (hm : m ∈ (d.drainIntoShared g).1) : m.sender ≠ a := by
  rw [drainIntoShared] at hm
  split at hm
  · exact absurd hm List.not_mem_nil
  · next s hs =>
    have hinbox : m ∈ s.transport.pause.wire.inbox := by
      dsimp only at hm
      split at hm <;> exact (List.mem_filter.mp hm).1
    exact (persists_silent.pause _ (h.session s hs).2).waiting m (List.mem_append_left _ hinbox)

theorem Offboarded.received (h : Offboarded a g d) {r : Request} (hr : Drains g r)
    {m : MeshMessage} (hm : m ∈ received d r) : m.sender ≠ a := by
  cases r with
  | status k =>
    cases hr
    exact h.syncAdmission.drained hm
  | poll k =>
    cases hr
    exact h.syncAdmission.drained hm
  | sharedFiles k offset limit =>
    cases hr
    exact h.drained hm
  | _ => exact hr.elim

/-- In every run, whatever the swarm tasks do between and inside the requests: after a `SetRoster`
that removes an address from the allowed set of a group, and until the group allows it again, no
`Poll` returns a message of it and no request adds a file that it alone sent, provided that none of
its messages was waiting when it was deauthorized. -/
theorem offboarded_gossip_stays_out {d₀ d d' : ClusterDaemon (Scheduled I)}
    {es es' : List (Event (Scheduled I))} {roster : Entries} {links : List DeviceLinkWire}
    {revocations : List RevocationWire} (hd : Initial d₀) (hstart : Starting d₀.makeTransport)
    (h : Steps (Meeting (total (step V)) Working) d₀ es d) (ha : a ∈ allowedOf d g)
    (hremoved : a ∉ allowedOf (handleRequest V d (.setRoster g roster links revocations)).2 g)
    (hclean : a ∉ caughtOf (handleRequest V d (.setRoster g roster links revocations)).2 g)
    (h' : Steps (Meeting (total (step V)) (Excluding V g a))
      (handleRequest V d (.setRoster g roster links revocations)).2 es' d') :
    (∀ ms, (handleRequest V d' (.poll g)).1 = .messages ms → ∀ m ∈ ms, m.sender ≠ a) ∧
      ∀ r, Drains g r → ∀ cid ∈ sharedOf (handleRequest V d' r).2 g, cid ∉ sharedOf d' g →
        ∃ m ∈ received d' r, m.data = cid ∧ m.sender ≠ a := by
  have hstart' : Starting d.makeTransport :=
    h.invariant (I := fun d => Starting d.makeTransport)
      (fun _ _ _ hs hstep => hstep.1 ▸ starting_step hs hstep.2) hstart
  have hsound : Sound d := sound_of_steps hd (h.mono fun _ _ _ hstep => hstep.1)
  have hoff : Offboarded a g d' :=
    h'.invariant (I := Offboarded a g) (fun _ _ _ hoff hstep => hoff.step hstep)
      (offboarded_of_setRoster hsound hstart' ha rfl hremoved hclean)
  refine ⟨?_, fun r hr cid hm hn => ?_⟩
  · rintro ms hms m hm
    cases hms
    exact hoff.received (r := .poll g) rfl hm
  · obtain hold | ⟨m, hm, hdata⟩ := mem_sharedOf_handleRequest hr hm
    · exact absurd hold hn
    · exact ⟨m, hm, hdata, hoff.received hr hm⟩

/-- A daemon whose meshes work by a schedule. -/
def scheduledDaemon (schedule : List (List (TaskAction String))) :
    ClusterDaemon (Scheduled plainLibp2p) :=
  withFactory m2 fun group => .ok ⟨.new group m2, schedule, ∅⟩

/-- A peer connects and is admitted. -/
def meeting : List (TaskAction String) :=
  [⟨.established m1, trivial⟩, ⟨.identify m1 m1, trivial⟩, ⟨.resume, trivial⟩, ⟨.resume, trivial⟩]

/-- The peer shares a file. -/
def gossiping : List (TaskAction String) :=
  [⟨.message ⟨"group", some m1, Text.bytes (cidOf '1')⟩, trivial⟩, ⟨.resume, trivial⟩]

def allowing : Request := .setRoster "group" [(m1, "member")] [] []

theorem offboarded_gossip_stays_out_sample :
    let d := step plainVerifier (scheduledDaemon [[], meeting, gossiping]) (.request allowing)
    let d' := (handleRequest plainVerifier d (.setRoster "group" [] [] [])).2
    ∀ ms, (handleRequest plainVerifier d' (.poll "group")).1 = .messages ms →
      ∀ m ∈ ms, m.sender ≠ m1 := by
  intro d d'
  have ha : m1 ∈ allowedOf d "group" := by
    rw [← ExtTreeSet.contains_iff_mem]
    decide +kernel
  have hremoved : m1 ∉ allowedOf d' "group" := by
    rw [← ExtTreeSet.contains_iff_mem]
    decide +kernel
  have hclean : m1 ∉ caughtOf d' "group" := by
    rw [← ExtTreeSet.contains_iff_mem]
    decide +kernel
  have hstart : Starting (scheduledDaemon [[], meeting, gossiping]).makeTransport := by
    intro g t ht
    cases ht
    exact ⟨m2, rfl⟩
  have hrun : Steps (Meeting (total (step plainVerifier)) Working)
      (scheduledDaemon [[], meeting, gossiping]) [.request allowing] d := .single ⟨rfl, trivial⟩
  exact (offboarded_gossip_stays_out (initial_withFactory _ _) hstart hrun ha hremoved hclean
    (.nil d')).1

/-- A message that was waiting in the inbox when its sender was offboarded comes out later. -/
theorem offboarded_gossip_surfaces :
    let d := step plainVerifier (scheduledDaemon [[], meeting ++ gossiping]) (.request allowing)
    let d' := (handleRequest plainVerifier d (.setRoster "group" [] [] [])).2
    m1 ∈ allowedOf d "group" ∧ m1 ∉ allowedOf d' "group" ∧
      (handleRequest plainVerifier d' (.poll "group")).1 = .messages [⟨m1, cidOf '1'⟩] ∧
      cidOf '1' ∉ sharedOf d' "group" ∧
      cidOf '1' ∈ sharedOf (handleRequest plainVerifier d' (.poll "group")).2 "group" := by
  simp only [← ExtTreeSet.contains_iff_mem]
  decide +kernel

end Runs

end CitrateCluster.Offboarding
