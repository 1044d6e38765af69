import CitrateCluster.Admission

namespace CitrateCluster.InProcessWire

open Std (ExtTreeMap ExtTreeSet)
open CitrateCluster.Membership Runs Roster Collections Device Registry Transport Session Daemon
  ClusterDaemon Ipc DaemonStep

variable {V : LinkVerifier} {s : ClusterSession InProcessTransport} {roster : Entries} {a : String}

section Disconnecting

variable {t : InProcessTransport}

theorem mem_connected_foldl_disconnect {l : List String} :
    a ∈ (l.foldl disconnect t).connected ↔ a ∈ t.connected ∧ a ∉ l := by
  induction l generalizing t with
  | nil => simp
  | cons b l ih =>
    rw [List.foldl_cons, ih, List.mem_cons, not_or]
    change (a ∈ t.connected.erase b ∧ a ∉ l) ↔ _
    rw [mem_erase_iff]
    tauto

theorem foldl_authorize_eq (l : List String) (t : InProcessTransport) : l.foldl authorize t = t := by
  induction l with
  | nil => rfl
  | cons b l ih => exact ih

end Disconnecting

/-- The wire of a session holds the admitted peers and nobody else. -/
structure Wired (s : ClusterSession InProcessTransport) : Prop where
  safe : s.membership.Safe
  wire : ∀ a, a ∈ s.transport.connected ↔ a ∈ s.membership.admitted

theorem wired_new {transport : InProcessTransport} (h : transport.connected = ∅) :
    Wired (.new [] transport) where
  safe := ClusterMembership.safe_new []
  wire := by
    intro a
    simp [ClusterSession.new, ClusterMembership.new, h]

theorem Wired.join (h : Wired s) (address role : String) : Wired (s.join address role).2 where
  safe := by
    rw [SessionOp.join_membership]
    exact h.safe.join address role
  wire := by
    intro a
    obtain hs | ⟨b, _, _, hs⟩ := s.join_cases address role
    · rw [hs]
      exact h.wire a
    · rw [hs]
      change a ∈ s.transport.connected.insert b ↔ a ∈ s.membership.admitted.insert b
      rw [mem_insert_iff, mem_insert_iff, h.wire]

theorem Wired.leave (h : Wired s) (address : String) : Wired (s.leave address) where
  safe := by
    rw [SessionOp.leave_membership]
    exact h.safe.leave address
  wire := by
    intro a
    obtain hs | ⟨b, _, hs⟩ := s.leave_cases address
    · rw [hs]
      exact h.wire a
    · rw [hs]
      change a ∈ s.transport.connected.erase b ↔ a ∈ s.membership.admitted.erase b
      rw [mem_erase_iff, mem_erase_iff, h.wire]

/-- An address that leaves the allowed set leaves the wire, whether it is evicted or deauthorized,
and nobody else does. -/
theorem Wired.applyRoster (h : Wired s) : Wired (s.applyRoster roster).2 where
  safe := by
    rw [ClusterSession.applyRoster_membership]
    exact ClusterMembership.safe_reconcile _ _
  wire := by
    intro a
    rw [ClusterSession.applyRoster_membership, ClusterMembership.mem_reconcile_admitted]
    simp only [ClusterSession.applyRoster, ClusterSession.reconcile, foldl_authorize_eq,
      mem_connected_foldl_disconnect, ClusterMembership.mem_reconcile_evicted,
      ClusterMembership.reconcile_allowed, List.mem_filter, ExtTreeSet.mem_toList,
      Bool.not_eq_true', contains_eq_false_iff, h.wire]
    constructor
    · rintro ⟨⟨ha, hne⟩, _⟩
      exact ⟨ha, not_not.mp fun hn => hne ⟨ha, hn⟩⟩
    · rintro ⟨ha, hr⟩
      exact ⟨⟨ha, fun hn => hn.2 hr⟩, fun hn => hn.2 hr⟩

/-- Admission follows the wire, and the wire was within the allowed set. -/
theorem Wired.sync (h : Wired s) : Wired s.syncAdmittedFromWire where
  safe := h.safe.syncAdmitted _
  wire := by
    intro a
    have hwire : s.syncAdmittedFromWire.transport.connected = s.transport.connected := rfl
    have hlist : a ∈ ExtTreeSet.ofList (connected s.transport).1 ↔ a ∈ s.transport.connected := by
      rw [mem_ofList_iff]
      simp [connected]
    rw [hwire, h.wire]
    simp only [ClusterSession.syncAdmittedFromWire, ClusterMembership.mem_syncAdmitted_admitted,
      hlist, h.wire]
    exact ⟨fun ha => ⟨ha, h.safe.admitted_allowed a ha⟩, And.left⟩

/-- Requests and hooks, over transports that start with nobody connected and that nobody else
connects. -/
def Alone (_ : ClusterDaemon InProcessTransport) : Event InProcessTransport → Prop
  | .transport _ f => ∀ t, (f t).connected = t.connected
  | .factory makeTransport => ∀ g t, makeTransport g = .ok t → t.connected = ∅
  | _ => True

theorem Wired.run {d : ClusterDaemon InProcessTransport} {e : Event InProcessTransport}
    (h : Wired s) (he : Alone d e) {op : SessionOp InProcessTransport} (hop : Allows e op) :
    Wired (op.run s) := by
  cases op with
  | sync => exact h.sync
  | join address role => exact h.join address role
  | leave address => exact h.leave address
  | change f =>
    cases e with
    | transport g f' =>
      cases hop
      exact ⟨h.safe, fun a => by rw [SessionOp.run, he]; exact h.wire a⟩
    | request r => exact hop.elim
    | admitPeer => cases hop
    | dropPeer => cases hop
    | factory => exact hop.elim
  | _ => exact ⟨h.safe, h.wire⟩

variable {d d' : ClusterDaemon InProcessTransport} {g : String}

/-- Every session of a daemon is wired, and so is every session that it may start. -/
structure AllWired (d : ClusterDaemon InProcessTransport) : Prop where
  starts : ∀ g t, d.makeTransport g = .ok t → t.connected = ∅
  sessions : AllSessions Wired d

theorem AllWired.step {e : Event InProcessTransport} (h : AllWired d)
    (hs : Meeting (total (step V)) Alone d e d') : AllWired d' := by
  obtain ⟨rfl, he⟩ := hs
  have heff := effect_step V d e
  refine ⟨?_, h.sessions.step heff (fun g t ht => wired_new (h.starts g t ht))
    (fun op hop s hs => hs.run he hop) fun s roster hs => hs.applyRoster⟩
  refine heff.factory_induction (P := fun makeTransport =>
    ∀ g t, makeTransport g = .ok t → t.connected = ∅) (fun makeTransport hf => ?_) h.starts
  subst hf
  exact he

/-- What `Status` and `Peers` answer on a session. -/
theorem status_of_getElem? (hs : d.groups[g]? = some s) :
    ∃ files, (d.status g).1 = (s.transport.connected.size, s.membership.allowed.size, files) := by
  have hsync : (d.syncAdmission g).groups[g]? = some s.syncAdmittedFromWire := by
    simp [syncAdmission, hs, setSession]
  have hdrain : ((d.syncAdmission g).drainIntoShared g).2.groups[g]? =
      some { s.syncAdmittedFromWire with transport := { s.transport with inbox := [] } } := by
    simp only [drainIntoShared, hsync]
    split <;> simp [setSession, drain, ClusterSession.syncAdmittedFromWire, connected]
  simp only [status, hdrain, readConnected]
  refine ⟨_, Prod.ext ?_ rfl⟩
  exact ExtTreeSet.length_toList

theorem peers_of_getElem? (hs : d.groups[g]? = some s) :
    ∃ member : String → Option String, (d.peers g).1 = s.membership.allowed.toList.map fun a =>
      ⟨a, s.transport.connected.contains a, member a⟩ := by
  have hsync : (d.syncAdmission g).groups[g]? = some s.syncAdmittedFromWire := by
    simp [syncAdmission, hs, setSession]
  have hlist : ∀ t : InProcessTransport, ExtTreeSet.ofList (connected t).1 = t.connected := by
    intro t
    apply ExtTreeSet.ext_mem
    intro a
    rw [mem_ofList_iff]
    simp [connected]
  simp only [ClusterDaemon.peers, hsync, readConnected, hlist]
  exact ⟨_, rfl⟩

/-- In every run of requests and hooks over in-process transports the wire of each group is its
admitted set, and `Status` counts the peers that `Peers` lists, online and in all. -/
theorem wire_is_admitted_set {es : List (Event InProcessTransport)} (hd : Initial d)
    (hstart : ∀ g t, d.makeTransport g = .ok t → t.connected = ∅)
    (h : Steps (Meeting (total (step V)) Alone) d es d') :
    (∀ (g : String) (s : ClusterSession InProcessTransport), d'.groups[g]? = some s →
      s.transport.connected = s.membership.admitted) ∧
      ∀ g, ∃ online total files peers,
        (handleRequest V d' (.status g)).1 = .status online total files ∧
          (handleRequest V d' (.peers g)).1 = .peers peers ∧
          online = peers.countP (·.online) ∧ total = peers.length := by
  have hwired : AllWired d' :=
    h.invariant (I := AllWired) (fun _ _ _ hw hs => hw.step hs) ⟨hstart, allSessions_of_initial hd⟩
  have heq : ∀ (g : String) (s : ClusterSession InProcessTransport), d'.groups[g]? = some s →
      s.transport.connected = s.membership.admitted := by
    intro g s hs
    apply ExtTreeSet.ext_mem
    exact (hwired.sessions g s hs).wire
  refine ⟨heq, fun g => ?_⟩
  cases hs : d'.groups[g]? with
  | none =>
    refine ⟨0, 0, [], [], ?_, ?_, rfl, rfl⟩
    · simp [handleRequest, status, syncAdmission, drainIntoShared, hs]
    · simp [handleRequest, ClusterDaemon.peers, syncAdmission, hs]
  | some s =>
    obtain ⟨files, hstatus⟩ := status_of_getElem? hs
    obtain ⟨member, hpeers⟩ := peers_of_getElem? hs
    have hstatus' : (handleRequest V d' (.status g)).1 =
        .status s.transport.connected.size s.membership.allowed.size files := by
      simp only [handleRequest, hstatus]
    have hpeers' : (handleRequest V d' (.peers g)).1 =
        .peers (s.membership.allowed.toList.map fun a =>
          ⟨a, s.transport.connected.contains a, member a⟩) := by
      simp only [handleRequest, hpeers]
    refine ⟨_, _, files, _, hstatus', hpeers', ?_, ?_⟩
    · rw [List.countP_map]
      refine (countP_contains ?_).symm
      intro a ha
      have hsession := hwired.sessions g s hs
      exact hsession.safe.admitted_allowed a ((hsession.wire a).mp ha)
    · rw [List.length_map, ExtTreeSet.length_toList]

theorem wire_is_admitted_set_sample :
    ∃ s, (([.request (.setRoster "group" [(m1, "member"), (m2, "member")] [] []),
        .admitPeer "group" m1 "member"] : List (Event InProcessTransport)).foldl
          (step plainVerifier) Admission.nodeDaemon).groups["group"]? = some s ∧
      m1 ∈ s.membership.admitted ∧ s.transport.connected = s.membership.admitted := by
  have hrun : (([.request (.setRoster "group" [(m1, "member"), (m2, "member")] [] []),
      .admitPeer "group" m1 "member"] : List (Event InProcessTransport)).foldl
        (step plainVerifier) Admission.nodeDaemon).groups["group"]?.any
          (fun s => s.membership.admitted.contains m1) = true := by
    decide +kernel
  obtain ⟨s, hs, hm⟩ := (Option.any_eq_true _ _).mp hrun
  refine ⟨s, hs, ExtTreeSet.contains_iff_mem.mp hm, (wire_is_admitted_set (initial_withFactory _ _)
    ?_ (steps_meeting_total ?_ _)).1 "group" s hs⟩
  · rintro g t ⟨⟩
    rfl
  · intro e he _
    obtain rfl | rfl := List.mem_pair.mp he <;> trivial

end CitrateCluster.InProcessWire
