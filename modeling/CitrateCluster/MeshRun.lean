import CitrateCluster.Authorization
import CitrateCluster.SwarmConnected

namespace CitrateCluster.MeshRun

open Std (ExtTreeMap ExtTreeSet)
open CitrateCluster.Membership Runs Roster Collections Device Transport PeerAddrs Session Daemon
  ClusterDaemon Ipc DaemonStep SwarmLoop SwarmSafety SwarmConnected SwarmSurface Authorization

variable {Key : Type} {I : Libp2p Key} {w w' : Wire}

/-- A run of the swarm task, between two calls of the daemon. -/
def TaskRun (I : Libp2p Key) (w w' : Wire) : Prop :=
  ∃ acts, Steps (Meeting (enabled (Wire.step I)) fun _ e => IsTask e) w acts w'

theorem TaskRun.shared (h : TaskRun I w w') :
    w'.authorized = w.authorized ∧ w'.surface = w.surface := by
  obtain ⟨acts, hs⟩ := h
  refine hs.invariant (I := fun t => t.authorized = w.authorized ∧ t.surface = w.surface) ?_
    ⟨rfl, rfl⟩
  rintro t e t' ⟨hauth, hsurf⟩ ⟨ht, he⟩
  obtain happart | ⟨_, hr⟩ := task_step he ht
  · exact ⟨happart.authorized.trans hauth, happart.surface.trans hsurf⟩
  · obtain ⟨hauth', hsurf', _⟩ := resume_shared hr
    exact ⟨hauth'.trans hauth, hsurf'.trans hsurf⟩

theorem TaskRun.surfaceRun (h : TaskRun I w w') (hidle : w.surface = .idle) :
    SurfaceRun I w w' := by
  have hsurf := h.shared.2
  obtain ⟨acts, hs⟩ := h
  exact ⟨hs.mono fun _ _ _ hr => hr.1, hsurf.trans hidle⟩

/-- A wire that surface and task have brought about, with no surface call halfway through. -/
def Reached (I : Libp2p Key) (w : Wire) : Prop :=
  ∃ topic localPeer, SurfaceRun I (.new topic localPeer) w

theorem Reached.run (h : Reached I w) (hr : w.surface = .idle → SurfaceRun I w w') :
    Reached I w' := by
  obtain ⟨topic, localPeer, h⟩ := h
  exact ⟨topic, localPeer, h.trans (hr h.idle)⟩

theorem Reached.guarded (h : Reached I w) : Guarded I w ∧ w.surface = .idle := by
  obtain ⟨_, _, ⟨hs, hidle⟩⟩ := h
  exact ⟨guarded_of_steps hs, hidle⟩

/-- What a call may do to a mesh, started between two surface calls. -/
def Called (t t' : Libp2pTransport I) : Prop :=
  t.wire.surface = .idle → SurfaceRun I t.wire t'.wire

theorem keptByCalls_called : KeptByCalls (Called (I := I)) where
  refl t hidle := .intro (.nil t.wire) hidle
  trans h h' hidle := (h hidle).trans (h' (h hidle).idle)
  authorize t a hidle := surfaceRun_authorize hidle a
  disconnect t a hidle := surfaceRun_evict hidle a
  connected t hidle := .intro (.nil t.wire) hidle
  publish t sender data hidle := by
    refine .intro (.single (e := .publish data) ?_) hidle
    rw [enabled, Wire.step, if_pos hidle]
    rfl
  drain t hidle := by
    refine .intro (.single (e := .drain) ?_) hidle
    rw [enabled, Wire.step, if_pos hidle]
    rfl
  addPeers t addrs hidle := surfaceRun_dialAll hidle addrs
  seedAddrs t hidle := .intro (.nil t.wire) hidle

/-- A factory whose transports are meshes that have just started. -/
def Starts (makeTransport : String → Except String (Libp2pTransport I)) : Prop :=
  ∀ g t, makeTransport g = .ok t → ∃ localPeer, t.wire = .new g localPeer

/-- Requests, with the swarm tasks at work between them. -/
def Meshing (_ : ClusterDaemon (Libp2pTransport I)) : Event (Libp2pTransport I) → Prop
  | .request _ => True
  | .transport _ f => ∀ t, TaskRun I t.wire (f t).wire
  | .factory makeTransport => Starts makeTransport
  | .admitPeer _ _ _ | .dropPeer _ _ => False

theorem fresh_of_starts {makeTransport : String → Except String (Libp2pTransport I)}
    (h : Starts makeTransport) : Fresh makeTransport := by
  intro g t ht
  obtain ⟨localPeer, hw⟩ := h g t ht
  ext a
  simp [authorized, hw, Wire.new]

theorem requestsOnly_of_meshing {d : ClusterDaemon (Libp2pTransport I)}
    {e : Event (Libp2pTransport I)} (h : Meshing d e) : RequestsOnly d e := by
  cases e with
  | request => trivial
  | transport g f =>
    intro t
    simp only [authorized, (h t).shared.1]
  | factory => exact fresh_of_starts h
  | _ => exact h.elim

section Runs

variable {V : LinkVerifier} {d d' : ClusterDaemon (Libp2pTransport I)}

/-- Every mesh of a daemon is one that its surface and its task have brought about. -/
structure Meshed (d : ClusterDaemon (Libp2pTransport I)) : Prop where
  starts : Starts d.makeTransport
  sessions : AllSessions (fun s => Reached I s.transport.wire) d

theorem Meshed.step {e : Event (Libp2pTransport I)} (h : Meshed d)
    (hs : Meeting (total (step V)) Meshing d e d') : Meshed d' := by
  obtain ⟨rfl, he⟩ := hs
  have heff := effect_step V d e
  refine ⟨?_, h.sessions.step heff (fun g t ht => ?_) (fun op hop s hs => ?_)
    fun s roster hs => hs.run (keptByCalls_called.applyRoster s roster)⟩
  · refine heff.factory_induction (fun makeTransport hf => ?_) h.starts
    subst hf
    exact he
  · obtain ⟨localPeer, hw⟩ := h.starts g t ht
    have hnew : SurfaceRun I (.new g localPeer) (.new g localPeer) := ⟨.nil _, rfl⟩
    exact ⟨g, localPeer, by simpa only [ClusterSession.new, hw] using hnew⟩
  · cases e with
    | request r => exact hs.run (keptByCalls_called.request s hop)
    | transport g f =>
      subst hop
      exact hs.run (he s.transport).surfaceRun
    | factory => exact hop.elim
    | _ => exact he.elim

/-- In every run of requests and swarm tasks, a live peer that is not gated is filed under the
address of its own key, and the group allows that address or is about to evict the peer. -/
theorem ungated_peer_is_allowed {es : List (Event (Libp2pTransport I))} (hd : Initial d)
    (hstart : Starts d.makeTransport) (h : Steps (Meeting (total (step V)) Meshing) d es d')
    {g : String} {s : ClusterSession (Libp2pTransport I)} (hs : d'.groups[g]? = some s)
    {p : PeerId} (hl : s.transport.wire.Live p) (hb : p ∉ s.transport.wire.blacklist) :
    ∃ a, s.transport.wire.peerAddr[p]? = some a ∧ I.OwnAddress p a ∧
      (a ∈ s.membership.allowed ∨ .disconnect a ∈ s.transport.wire.queue ∨
        ∃ ps, s.transport.wire.task = .evicting a ps) := by
  have hmeshed : Meshed d' :=
    h.invariant (I := Meshed) (fun _ _ _ hm hs => hm.step hs) ⟨hstart, allSessions_of_initial hd⟩
  have hrequests : Steps (Meeting (total (step V)) RequestsOnly) d es d' :=
    h.mono fun _ _ _ hr => ⟨hr.1, requestsOnly_of_meshing hr.2⟩
  have htracks := tracks_of_steps hd (fresh_of_starts hstart) hrequests
  obtain ⟨hguarded, hidle⟩ := (hmeshed.sessions g s hs).guarded
  obtain ⟨a, ha, hown, hcov⟩ := hguarded.exists_covered hidle hl hb
  refine ⟨a, ha, hown, ?_⟩
  obtain hauth | hcov := hcov
  · exact .inl (((htracks g s hs).wire a).mp hauth)
  · exact .inr hcov

end Runs

end CitrateCluster.MeshRun
