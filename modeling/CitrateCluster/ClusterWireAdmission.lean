import CitrateCluster.GroupEffect
import CitrateCluster.ScheduledMesh
import CitrateCluster.Simulation

namespace CitrateCluster.ClusterWireAdmission

open Std (ExtTreeMap ExtTreeSet)
open CitrateCluster.Membership Runs Simulation Roster Collections Device Registry EffectiveRoster
  Transport PeerAddrs Session Daemon ClusterDaemon Ipc DaemonStep GroupState StateWrites
  GroupEffect SwarmSafety Authorization MeshRun Schedule Offboarding ScheduledMesh
open SwarmLoop hiding Action

section Model

variable {P : Type}

/-- The state of the wire model: the allowed set, the set the transport authorizes, and the peers
that receive the group's gossip. -/
@[ext]
structure State (P : Type) where
  allowed : Set P
  authorized : Set P
  wire : Set P

inductive Action (P : Type) where
  | setRoster (na : Set P)
  | connect (p : P)
  | drop (p : P)

/-- The actions of single peers. -/
def Action.IsPeer : Action P → Prop
  | setRoster _ => False
  | _ => True

def init : State P := ⟨∅, ∅, ∅⟩

/-- The steps of the model, with and without the repair by which a roster takes authorizations back
from the addresses it drops. -/
inductive Next (revokeDeauthorizes : Bool) : State P → Action P → State P → Prop where
  | setRoster (s : State P) (na : Set P) : Next revokeDeauthorizes s (.setRoster na)
      ⟨na, if revokeDeauthorizes then na else s.authorized ∪ na, s.wire ∩ na⟩
  | connect {s : State P} {p : P} (h : p ∈ s.authorized) :
      Next revokeDeauthorizes s (.connect p) { s with wire := insert p s.wire }
  | drop {s : State P} {p : P} (h : p ∈ s.wire) :
      Next revokeDeauthorizes s (.drop p) { s with wire := s.wire \ {p} }

def AuthorizedIsAllowed (s : State P) : Prop := s.authorized = s.allowed

def WireSubsetAllowed (s : State P) : Prop := s.wire ⊆ s.allowed

structure Safe (s : State P) : Prop where
  authorized : AuthorizedIsAllowed s
  wire : WireSubsetAllowed s

theorem Safe.step {s t : State P} {a : Action P} (h : Safe s) (hs : Next true s a t) : Safe t := by
  cases hs with
  | setRoster na => exact ⟨rfl, Set.inter_subset_right⟩
  | connect hp => exact ⟨h.authorized, Set.insert_subset (h.authorized ▸ hp) h.wire⟩
  | drop => exact ⟨h.authorized, Set.sdiff_subset.trans h.wire⟩

theorem safe_of_steps {s : State P} {acts : List (Action P)} (h : Steps (Next true) init acts s) :
    Safe s :=
  h.invariant (fun _ _ _ => .step) ⟨rfl, Set.empty_subset _⟩

/-- Without the repair a peer comes back on the authorization it had before it was dropped. -/
theorem unsafe_unless_revoked (p : P) :
    ∃ s, Steps (Next false) init [.setRoster {p}, .setRoster ∅, .connect p] s ∧
      ¬ WireSubsetAllowed s := by
  refine ⟨_, .cons (.setRoster _ _) (.cons (.setRoster _ _) (.single (.connect ?_))), ?_⟩
  · simp [init]
  · intro h
    exact h (Set.mem_insert p _)

/-- Peers that connect and drop lead from one wire to any other that is authorized. -/
theorem leads_peers {s t : State P} (hallowed : t.allowed = s.allowed)
    (hauth : t.authorized = s.authorized) (ht : t.wire ⊆ t.authorized) (hs : s.wire.Finite)
    (hf : t.wire.Finite) :
    Leads (Next true) Action.IsPeer s (· = t) := by
  refine (leads_exchange (fun A u => u = ⟨s.allowed, s.authorized, A⟩) (· ∈ s.authorized) ?_ ?_
    hs hf (fun p hp => hauth ▸ ht hp) rfl).mono ?_
  · rintro A p _ rfl _ hp
    exact .single (a := .connect p) trivial (.connect hp) rfl
  · rintro A p _ rfl hp
    exact .single (a := .drop p) trivial (.drop hp) rfl
  · rintro _ rfl
    rw [← hallowed, ← hauth]

end Model

section Mesh

variable {Key : Type} {I : Libp2p Key} {w : Wire}

/-- The gate closes on a peer: an eviction of its address is on the way to the task, or the task is
carrying it out. -/
def Leaving (w : Wire) (p : PeerId) (a : String) : Prop :=
  w.surface = .disconnecting a ∨ .disconnect a ∈ w.queue ∨ Evicting w p a

/-- The addresses whose peers receive gossip, and go on receiving it. -/
def meshed (w : Wire) : Set String :=
  {a | ∃ p, w.Live p ∧ p ∉ w.blacklist ∧ w.peerAddr[p]? = some a ∧ ¬ Leaving w p a}

theorem meshed_subset (h : Guarded I w) : meshed w ⊆ {a | a ∈ w.authorized} := by
  rintro a ⟨p, _, hb, ha, hleaving⟩
  obtain (hauth | hsurf | hqueue) | hevict := h.covered p a ha hb
  · exact hauth
  · exact absurd (.inl hsurf) hleaving
  · exact absurd (.inr (.inl hqueue)) hleaving
  · exact absurd (.inr (.inr hevict)) hleaving

theorem finite_meshed (w : Wire) : (meshed w).Finite := by
  refine (List.finite_toSet (w.peerAddr.toList.map (·.2))).subset ?_
  rintro a ⟨p, _, _, ha, _⟩
  exact List.mem_map.mpr ⟨(p, a), ExtTreeMap.mem_toList_iff_getElem?_eq_some.mpr ha, rfl⟩

end Mesh

section Refinement

variable {Key : Type} {I : Libp2p Key} {V : LinkVerifier} {d d' : ClusterDaemon (Scheduled I)}
  {g : String}

def stateOf (s : ClusterSession (Scheduled I)) : State String :=
  ⟨{a | a ∈ s.membership.allowed}, {a | a ∈ s.transport.wire.authorized}, meshed s.transport.wire⟩

/-- What the model sees of a group: nobody, unless the daemon has a session of it. -/
def view (g : String) (d : ClusterDaemon (Scheduled I)) : State String :=
  match d.groups[g]? with
  | some s => stateOf s
  | none => init

/-- A new roster of the group that is not refused is one `SetRoster` with the addresses that the
roster and the registry allow, and leaving the group is one with nobody; apart from that its peers
connect and drop. -/
def explains (V : LinkVerifier) (g : String) : ClusterDaemon (Scheduled I) → Event (Scheduled I) →
    ClusterDaemon (Scheduled I) → List (Action String) → Prop :=
  ExplainedBy V g Action.IsPeer
    (fun roster registry acts => ∃ rest,
      acts = .setRoster {a | a ∈ allowedSet (effectiveRoster roster registry)} :: rest ∧
        ∀ a ∈ rest, a.IsPeer)
    (· = [.setRoster ∅])

theorem view_of_opened {s : ClusterSession (Scheduled I)} (h : Served d) (hs : Opened d g s) :
    view g d = stateOf s := by
  obtain hs | ⟨hn, transport, ht, rfl⟩ := hs
  · rw [view, hs]
  · obtain ⟨localPeer, hw⟩ := h.starting g transport ht
    rw [view, hn]
    ext a
    · simp [stateOf, init, ClusterSession.new, ClusterMembership.new, mem_allowedSet]
    · simp [stateOf, init, ClusterSession.new, hw, Wire.new]
    · simp [stateOf, init, ClusterSession.new, hw, Wire.new, meshed]

theorem view_of_getElem? {s : ClusterSession (Scheduled I)} (hs : d.groups[g]? = some s) :
    view g d = stateOf s := by
  rw [view, hs]

theorem view_congr (h : d'.groups[g]? = d.groups[g]?) : view g d' = view g d := by
  rw [view, h, view]

theorem safe_stateOf {s : ClusterSession (Scheduled I)} (h : Reached I s.transport.wire)
    (ht : Tracks s) : Safe (stateOf s) := by
  have hauth : AuthorizedIsAllowed (stateOf s) := by
    ext a
    exact ht.wire a
  exact ⟨hauth, (meshed_subset h.guarded.1).trans_eq hauth⟩

/-- One `SetRoster` and then peers that connect and drop lead from any state to any safe one. -/
theorem steps_setRoster {s t : State String} (ht : Safe t) (hs : s.wire.Finite)
    (hf : t.wire.Finite) :
    ∃ rest, (∀ a ∈ rest, a.IsPeer) ∧ Steps (Next true) s (.setRoster t.allowed :: rest) t := by
  obtain ⟨rest, t, hrest, hsteps, rfl⟩ :=
    leads_peers (s := ⟨t.allowed, t.allowed, s.wire ∩ t.allowed⟩) (t := t) rfl ht.authorized
      (ht.wire.trans_eq ht.authorized.symm) (hs.inter_of_left _) hf
  exact ⟨rest, hrest, .cons (.setRoster s t.allowed) hsteps⟩

theorem allowed_applyRoster (s : ClusterSession (Scheduled I)) (roster : Entries) :
    (stateOf (s.applyRoster roster).2).allowed = {a | a ∈ allowedSet roster} := by
  simp only [stateOf, ClusterSession.applyRoster_membership]
  rfl

/-- A daemon over meshes, and what the model sees of one of its groups. -/
structure Seen (g : String) (d : ClusterDaemon (Scheduled I)) (s : State String) : Prop where
  served : Served d
  view : s = view g d

theorem simulates (V : LinkVerifier) (g : String) :
    Simulates (Meeting (total (step V)) Serving) (Next true) (Seen (I := I) g) (explains V g) := by
  rintro d e d' _ ⟨hserved, rfl⟩ hs
  have hserved' := hserved.step hs
  obtain ⟨rfl, -⟩ := hs
  refine (?_ : ∃ acts, explains V g d e (step V d e) acts ∧ Steps (Next true) (view g d) acts
    (view g (step V d e))).imp fun acts h => ⟨_, h.1, h.2, hserved', rfl⟩
  have heff := onGroup_step V g d e
  generalize step V d e = d' at heff hserved'
  have hsafe : ∀ {s : ClusterSession (Scheduled I)}, d'.groups[g]? = some s → Safe (stateOf s) :=
    fun hs => safe_stateOf (hserved'.reached g _ hs) (hserved'.tracks g _ hs)
  cases heff with
  | apart he h => exact ⟨[], .apart he, view_congr h.groups ▸ .nil _⟩
  | refused h => exact ⟨[], .refused h, .nil _⟩
  | @rostered s roster links revocations _ _ hopen h =>
    rw [view_of_opened hserved hopen, view_of_getElem? groups_rostered]
    obtain ⟨rest, hrest, hsteps⟩ := steps_setRoster (s := stateOf s) (hsafe groups_rostered)
      (finite_meshed _) (finite_meshed _)
    rw [allowed_applyRoster] at hsteps
    exact ⟨_, .rostered h ⟨rest, rfl, hrest⟩, hsteps⟩
  | left =>
    have hview : view g (d.leave g) = ⟨∅, ∅, (view g d).wire ∩ ∅⟩ := by
      simp [view, ClusterDaemon.leave, init]
    rw [hview]
    exact ⟨_, .left rfl, .single (.setRoster _ _)⟩
  | unchanged he hgroup hg =>
    exact ⟨[], .quiet he hgroup (by simp), view_congr hg ▸ .nil _⟩
  | @worked _ _ s ops he hgroup hopen _ hg =>
    have hbefore : Safe (view g d) := by
      rw [view]
      split
      · next s hs => exact safe_stateOf (hserved.reached g _ hs) (hserved.tracks g _ hs)
      · exact ⟨rfl, Set.empty_subset _⟩
    have hafter := hsafe hg
    rw [view_of_opened hserved hopen] at hbefore ⊢
    have hallowed : (stateOf (SessionOp.runAll ops s)).allowed = (stateOf s).allowed := by
      simp only [stateOf, SessionOp.runAll_allowed]
    rw [view_of_getElem? hg]
    obtain ⟨acts, _, hacts, hsteps, rfl⟩ := leads_peers hallowed
      (hafter.authorized.trans (hallowed.trans hbefore.authorized.symm))
      (hafter.wire.trans_eq hafter.authorized.symm) (finite_meshed _) (finite_meshed _)
    exact ⟨acts, .quiet he hgroup hacts, hsteps⟩

theorem lockstep_seen {es : List (Event (Scheduled I))} (hd : Initial d)
    (hstart : Starting d.makeTransport) (h : Steps (Meeting (total (step V)) Serving) d es d')
    (g : String) :
    Lockstep (Meeting (total (step V)) Serving) (Next true) (Seen g) (explains V g) d init es d'
      (view g d') := by
  have hview : view g d = init := by simp [view, hd.groups]
  obtain ⟨s, hlock⟩ := (simulates V g).lockstep h ⟨served_of_initial hd hstart, hview.symm⟩
  obtain rfl := hlock.last.view
  exact hlock

/-- What holds of the model holds of the daemon: nobody receives the group's gossip that is not
allowed, and whom the transport authorizes is who is allowed. -/
theorem safe_view {es : List (Event (Scheduled I))} (hd : Initial d)
    (hstart : Starting d.makeTransport) (h : Steps (Meeting (total (step V)) Serving) d es d')
    (g : String) : Safe (view g d') := by
  obtain ⟨acts, hsteps⟩ := (lockstep_seen hd hstart h g).steps
  exact safe_of_steps hsteps

end Refinement

end CitrateCluster.ClusterWireAdmission
