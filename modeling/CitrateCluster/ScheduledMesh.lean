import CitrateCluster.Offboarding

namespace CitrateCluster.ScheduledMesh

open Std (ExtTreeMap ExtTreeSet)
open CitrateCluster.Membership Runs Roster Collections Device Transport PeerAddrs Session Daemon
  ClusterDaemon Ipc DaemonStep SwarmLoop SwarmSafety SwarmSurface Authorization MeshRun Schedule
  Offboarding

variable {Key : Type} {I : Libp2p Key} {t : Scheduled I}

section Calls

/-- A call whose critical sections the task's work may come between. -/
def Called (t t' : Scheduled I) : Prop := t.wire.surface = .idle → SurfaceRun I t.wire t'.wire

theorem called_pause (t : Scheduled I) : Called t t.pause :=
  fun hidle => (taskRun_pause t).surfaceRun hidle

theorem Called.trans {t t' t'' : Scheduled I} (h : Called t t') (h' : Called t' t'') :
    Called t t'' :=
  fun hidle => (h hidle).trans (h' (h hidle).idle)

theorem called_send {e : Action Key} (t : Scheduled I) (cmd : SwarmCmd)
    (he : ∀ w : Wire, w.surface = .idle → w.step I e = some (w.send cmd)) :
    Called t (t.send cmd) := by
  intro hidle
  refine .intro (.single (e := e) ?_) rfl
  have hw : ({ t.wire.send cmd with surface := .idle } : Wire) = t.wire.send cmd := by
    rw [← hidle]
    rfl
  rw [enabled, he _ hidle, Scheduled.send, hw]

theorem called_authorize (t : Scheduled I) (peer : String) : Called t (authorize t peer) :=
  (called_pause t).trans fun hidle => surfaceRun_authorize hidle peer

/-- Between its two critical sections a `disconnect` leaves room for the task. -/
theorem called_disconnect (t : Scheduled I) (peer : String) : Called t (disconnect t peer) := by
  change Called t (t.disconnect peer)
  rw [Scheduled.disconnect]
  cases hc : canonicalAddress peer with
  | none => exact fun hidle => .intro (.nil _) hidle
  | some a =>
    refine (called_pause t).trans fun hidle => ?_
    have hwithdraw : enabled (Wire.step I) t.pause.wire (.disconnect peer)
        (t.pause.withdraw a).wire := by
      simp [enabled, Wire.step, hidle, hc, Scheduled.withdraw]
    obtain ⟨acts, hacts⟩ := taskRun_pause (t.pause.withdraw a)
    have hsurf : (t.pause.withdraw a).pause.wire.surface = .disconnecting a :=
      (taskRun_pause (t.pause.withdraw a)).shared.2
    have hsend : enabled (Wire.step I) (t.pause.withdraw a).pause.wire .send
        ((t.pause.withdraw a).pause.send (.disconnect a)).wire := by
      simp [enabled, Wire.step, hsurf, Scheduled.send]
    have hpause := hacts.mono (S := enabled (Wire.step I)) fun _ _ _ hr => hr.1
    exact .intro (.cons hwithdraw (hpause.append (.single hsend))) rfl

theorem called_dials (parsed : List Multiaddr) (t : Scheduled I) :
    Called t (parsed.foldl (fun t a => t.pause.send (.dial a)) t) := by
  induction parsed generalizing t with
  | nil => exact fun hidle => .intro (.nil _) hidle
  | cons addr parsed ih =>
    refine (called_pause t).trans ((called_send (e := .dial addr) _ (.dial addr) ?_).trans (ih _))
    intro w hidle
    simp [Wire.step, hidle]

theorem called_addPeers (t : Scheduled I) (addrs : List String) : Called t (addPeers t addrs).2 := by
  change Called t (t.addPeers addrs).2
  rw [Scheduled.addPeers]
  split
  · exact fun hidle => .intro (.nil _) hidle
  · exact called_dials _ t

theorem keptByCalls_called : KeptByCalls (Called (I := I)) where
  refl t hidle := .intro (.nil t.wire) hidle
  trans := Called.trans
  authorize := called_authorize
  disconnect := called_disconnect
  connected := called_pause
  publish t sender data := by
    refine (called_pause t).trans (called_send (e := .publish data) _ _ ?_)
    intro w hidle
    simp [Wire.step, hidle]
  drain t := by
    refine (called_pause t).trans fun hidle => .intro (.single (e := .drain) ?_) hidle
    rw [enabled, Wire.step, if_pos hidle]
    rfl
  addPeers := called_addPeers
  seedAddrs := called_pause

theorem authorized_pause (t : Scheduled I) : t.pause.wire.authorized = t.wire.authorized :=
  (taskRun_pause t).shared.1

theorem authorized_dials (parsed : List Multiaddr) (t : Scheduled I) :
    (parsed.foldl (fun t a => t.pause.send (.dial a)) t).wire.authorized = t.wire.authorized := by
  induction parsed generalizing t with
  | nil => rfl
  | cons addr parsed ih =>
    rw [List.foldl_cons, ih]
    exact authorized_pause t

theorem mem_authorize_pause {peer a : String} :
    a ∈ (t.pause.authorize peer).wire.authorized ↔
      a ∈ t.wire.authorized ∨ canonicalAddress peer = some a := by
  rw [← authorized_pause t]
  exact mem_authorize_iff

theorem mem_disconnect_iff {peer a : String} :
    a ∈ (t.disconnect peer).wire.authorized ↔
      a ∈ t.wire.authorized ∧ canonicalAddress peer ≠ some a := by
  rw [Scheduled.disconnect]
  cases canonicalAddress peer with
  | none => simp
  | some b =>
    change a ∈ (t.pause.withdraw b).pause.wire.authorized ↔ _
    rw [authorized_pause]
    change a ∈ t.pause.wire.authorized.erase b ↔ _
    rw [authorized_pause, mem_erase_iff, and_comm, ne_comm, ne_eq, ne_eq, Option.some.injEq]

instance : Authorizing (Scheduled I) where
  authorized t := {a | a ∈ t.wire.authorized}
  mem_dial := mem_authorize_pause
  mem_authorize := mem_authorize_pause
  mem_disconnect := mem_disconnect_iff
  authorized_connected {t} := congrArg (fun s : AddressSet => {a | a ∈ s}) (authorized_pause t)
  authorized_publish {t _ _} := congrArg (fun s : AddressSet => {a | a ∈ s}) (authorized_pause t)
  authorized_drain {t} := congrArg (fun s : AddressSet => {a | a ∈ s}) (authorized_pause t)
  authorized_addPeers {t addrs} := by
    change {a | a ∈ (t.addPeers addrs).2.wire.authorized} = {a | a ∈ t.wire.authorized}
    rw [Scheduled.addPeers]
    split
    · rfl
    · rw [authorized_dials]
  authorized_seedAddrs {t} := congrArg (fun s : AddressSet => {a | a ∈ s}) (authorized_pause t)

end Calls

section Runs

variable {V : LinkVerifier} {d d' : ClusterDaemon (Scheduled I)}

/-- Requests, with the swarm tasks at work in and between them. -/
def Serving (d : ClusterDaemon (Scheduled I)) : Event (Scheduled I) → Prop
  | .admitPeer _ _ _ | .dropPeer _ _ => False
  | e => Working d e

theorem working_of_serving {e : Event (Scheduled I)} (h : Serving d e) : Working d e := by
  cases e with
  | admitPeer => exact h.elim
  | dropPeer => exact h.elim
  | _ => exact h

/-- What every mesh of a daemon keeps: its wire is one that surface and task have brought about, and
it authorizes whom the group allows. -/
structure Served (d : ClusterDaemon (Scheduled I)) : Prop where
  starting : Starting d.makeTransport
  reached : AllSessions (fun s => Reached I s.transport.wire) d
  tracks : AllSessions Tracks d

theorem served_of_initial (hd : Initial d) (hstart : Starting d.makeTransport) : Served d :=
  ⟨hstart, allSessions_of_initial hd, allSessions_of_initial hd⟩

theorem Served.step {e : Event (Scheduled I)} (h : Served d)
    (hs : Meeting (total (step V)) Serving d e d') : Served d' := by
  obtain ⟨rfl, he⟩ := hs
  have heff := effect_step V d e
  refine ⟨starting_step h.starting (working_of_serving he), ?_, ?_⟩
  · refine h.reached.step heff (fun g t ht => ?_) (fun op hop s hs => ?_)
      fun s roster hs => hs.run (keptByCalls_called.applyRoster s roster)
    · obtain ⟨localPeer, hw⟩ := h.starting g t ht
      have hnew : SurfaceRun I (.new g localPeer) (.new g localPeer) := ⟨.nil _, rfl⟩
      exact ⟨g, localPeer, by simpa only [ClusterSession.new, hw] using hnew⟩
    · cases e with
      | request r => exact hs.run (keptByCalls_called.request s hop)
      | transport g f =>
        subst hop
        exact hs.run (he s.transport).surfaceRun
      | factory => exact hop.elim
      | _ => exact he.elim
  · refine h.tracks.step heff (fun g t ht => ?_) (fun op hop s hs => hs.run ?_)
      fun s roster hs => hs.applyRoster
    · obtain ⟨localPeer, hw⟩ := h.starting g t ht
      refine tracks_new ?_
      ext a
      simp [authorized, hw, Wire.new]
    · cases e with
      | request r => exact authorized_run hop
      | transport g f =>
        subst hop
        simp only [SessionOp.run, authorized, (he s.transport).shared.1]
      | factory => exact hop.elim
      | _ => exact he.elim

end Runs

end CitrateCluster.ScheduledMesh
