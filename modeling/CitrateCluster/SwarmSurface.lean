import CitrateCluster.SwarmLoop

namespace CitrateCluster.SwarmSurface

open Std (ExtTreeMap ExtTreeSet)
open Roster Collections Transport PeerAddrs Runs SwarmLoop

variable {Key : Type} {I : Libp2p Key}

/-- The mesh of one group as the daemon drives it: each surface call runs to its end. -/
structure Libp2pTransport (I : Libp2p Key) where
  wire : Wire

/-- `disconnect`, its critical section and the command it sends. -/
def evict (w : Wire) (peer : String) : Wire :=
  match canonicalAddress peer with
  | some a => (w.deauthorize a).send (.disconnect a)
  | none => w

def dialAll (I : Libp2p Key) (w : Wire) (addrs : List String) : Except String Nat × Wire :=
  match parsePeerAddrs I.parseMultiaddr w.localPeer addrs with
  | .error e => (.error e, w)
  | .ok parsed => (.ok parsed.length, parsed.foldl (fun w a => w.send (.dial a)) w)

instance : MeshTransport (Libp2pTransport I) where
  dial t peer := ⟨t.wire.authorize peer⟩
  disconnect t peer := ⟨evict t.wire peer⟩
  connected t := (t.wire.connected.toList, t)
  publish t _ data := ⟨t.wire.send (.publish data)⟩
  drain t := (t.wire.inbox, ⟨{ t.wire with inbox := [] }⟩)
  authorize t addr := ⟨t.wire.authorize addr⟩
  addPeers t addrs := ((dialAll I t.wire addrs).1, ⟨(dialAll I t.wire addrs).2⟩)
  seedAddrs t := (.ok t.wire.seedAddrs, t)

theorem mem_authorize_iff {w : Wire} {peer a : String} :
    a ∈ (w.authorize peer).authorized ↔ a ∈ w.authorized ∨ canonicalAddress peer = some a := by
  rw [Wire.authorize]
  cases canonicalAddress peer with
  | none => simp
  | some b =>
    rw [Option.some.injEq, mem_insert_iff, or_comm, eq_comm]

theorem mem_evict_iff {w : Wire} {peer a : String} :
    a ∈ (evict w peer).authorized ↔ a ∈ w.authorized ∧ canonicalAddress peer ≠ some a := by
  rw [evict]
  cases canonicalAddress peer with
  | none => simp
  | some b =>
    rw [ne_eq, Option.some.injEq, eq_comm, and_comm]
    exact mem_erase_iff

/-- Commands leave the shared sets and the inbox alone. -/
theorem foldl_send_eq (l : List Multiaddr) (w : Wire) :
    l.foldl (fun w a => w.send (.dial a)) w =
      { w with queue := w.queue ++ l.map SwarmCmd.dial } := by
  induction l generalizing w with
  | nil => simp
  | cons a l ih =>
    rw [List.foldl_cons, ih]
    simp [Wire.send]

instance : Authorizing (Libp2pTransport I) where
  authorized t := {a | a ∈ t.wire.authorized}
  mem_dial := mem_authorize_iff
  mem_authorize := mem_authorize_iff
  mem_disconnect := mem_evict_iff
  authorized_connected := rfl
  authorized_publish := rfl
  authorized_drain := rfl
  authorized_addPeers := by
    intro t addrs
    change {a | a ∈ (dialAll I t.wire addrs).2.authorized} = {a | a ∈ t.wire.authorized}
    rw [dialAll]
    split
    · rfl
    · rw [foldl_send_eq]
  authorized_seedAddrs := rfl

/-- A run of the two parties that ends between two surface calls. -/
inductive SurfaceRun (I : Libp2p Key) : Wire → Wire → Prop where
  | intro {w w' : Wire} {acts : List (Action Key)} (h : Steps (enabled (Wire.step I)) w acts w')
      (hidle : w'.surface = .idle) : SurfaceRun I w w'

variable {w w' w'' : Wire}

theorem SurfaceRun.idle (h : SurfaceRun I w w') : w'.surface = .idle := by
  obtain ⟨_, hidle⟩ := h
  exact hidle

theorem SurfaceRun.trans (h : SurfaceRun I w w') (h' : SurfaceRun I w' w'') :
    SurfaceRun I w w'' := by
  obtain ⟨hs, _⟩ := h
  obtain ⟨hs', hidle⟩ := h'
  exact ⟨hs.append hs', hidle⟩

theorem surfaceRun_authorize (hidle : w.surface = .idle) (peer : String) :
    SurfaceRun I w (w.authorize peer) := by
  refine .intro (.single (e := .authorize peer) ?_) ?_
  · simp [enabled, Wire.step, hidle]
  · rw [Wire.authorize]
    split <;> exact hidle

theorem surfaceRun_evict (hidle : w.surface = .idle) (peer : String) :
    SurfaceRun I w (evict w peer) := by
  rw [evict]
  cases hc : canonicalAddress peer with
  | none =>
    refine .intro (.single (e := .disconnect peer) ?_) hidle
    simp [enabled, Wire.step, hidle, hc]
  | some a =>
    refine .intro (.cons (e := .disconnect peer)
      (t := { w.deauthorize a with surface := .disconnecting a }) ?_ (.single (e := .send) ?_)) hidle
    · simp [enabled, Wire.step, hidle, hc]
    · simp [enabled, Wire.step, Wire.send, Wire.deauthorize, hidle]

theorem steps_dial (hidle : w.surface = .idle) (parsed : List Multiaddr) :
    Steps (enabled (Wire.step I)) w (parsed.map .dial)
      (parsed.foldl (fun w a => w.send (.dial a)) w) := by
  induction parsed generalizing w with
  | nil => exact .nil w
  | cons a parsed ih =>
    refine .cons (t := w.send (.dial a)) ?_ (ih hidle)
    simp [enabled, Wire.step, hidle]

theorem surfaceRun_dialAll (hidle : w.surface = .idle) (addrs : List String) :
    SurfaceRun I w (dialAll I w addrs).2 := by
  rw [dialAll]
  split
  · exact .intro (.nil w) hidle
  · next parsed _ =>
    exact .intro (steps_dial hidle parsed) (by rw [foldl_send_eq]; exact hidle)

end CitrateCluster.SwarmSurface
