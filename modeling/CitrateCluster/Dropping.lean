import CitrateCluster.Evictions
import CitrateCluster.MeshRun

namespace CitrateCluster.Dropping

open Std (ExtTreeMap ExtTreeSet)
open CitrateCluster.Membership Runs Roster Collections Device Registry Transport PeerAddrs Session
  Daemon ClusterDaemon Ipc DaemonStep GroupState SwarmLoop SwarmSurface Authorization
open Evictions (admittedOf)

/-- A transport as the peers of its group meet it: the addresses that it admits at the next handshake,
and those that are online. -/
class Handshaking (T : Type) extends MeshTransport T where
  admits : T → Set String
  online : T → AddressSet
  online_disconnect {t : T} {a : String} (ha : Canonical a) :
    online (disconnect t a) = (online t).erase a

export Handshaking (admits online)

/-- The in-process transport turns nobody away. -/
instance : Handshaking InProcessTransport where
  admits _ := Set.univ
  online := InProcessTransport.connected
  online_disconnect _ := rfl

section Libp2p

variable {Key : Type} {I : Libp2p Key}

theorem evict_of_canonical (w : Wire) {a : String} (ha : Canonical a) :
    evict w a = (w.deauthorize a).send (.disconnect a) := by
  rw [evict, ha.canonicalAddress]

instance : Handshaking (Libp2pTransport I) where
  admits t := {a | a ∈ t.wire.authorized}
  online t := t.wire.connected
  online_disconnect {t _} ha := congrArg Wire.connected (evict_of_canonical t.wire ha)

/-- At a handshake a peer is admitted if its own address is authorized. -/
theorem identify_admits_iff (w : Wire) {p : PeerId} {key : Key} {a : String}
    (hp : I.toPeerId key = p) (ha : I.addressFromPublicKey key = some a) :
    (w.identify I p key).task = .admitting p a ↔ a ∈ w.authorized := by
  simp only [Wire.identify, hp, ha, ne_eq, not_true_eq_false, if_false,
    ExtTreeSet.contains_iff_mem]
  split
  · next hm => simp [hm]
  · next hm => simp [hm]

end Libp2p

section Drop

variable {T : Type} [Handshaking T] {d : ClusterDaemon T} {g a : String} {s : ClusterSession T}

/-- The addresses that the transport of a group admits at the next handshake. -/
def admitsOf (d : ClusterDaemon T) (g : String) : Set String :=
  (d.groups[g]?.map fun s => admits s.transport).getD ∅

def onlineOf (d : ClusterDaemon T) (g : String) : AddressSet :=
  (d.groups[g]?.map fun s => online s.transport).getD ∅

/-- `dropPeer` takes one address offline and does nothing else. -/
structure OnlyDrops (d : ClusterDaemon T) (g a : String) : Prop where
  frame : ∀ k ≠ g, (d.dropPeer g a).groups[k]? = d.groups[k]?
  sharedFiles : (d.dropPeer g a).sharedFiles = d.sharedFiles
  deviceState : (d.dropPeer g a).deviceState = d.deviceState
  allowed : allowedOf (d.dropPeer g a) g = allowedOf d g
  gate : ∀ b role, ((d.dropPeer g a).admitPeer g b role).1 = (d.admitPeer g b role).1
  handshake : admitsOf (d.dropPeer g a) g = admitsOf d g
  admitted : ∀ b, b ∈ admittedOf (d.dropPeer g a) g ↔
    b ∈ admittedOf d g ∧ canonicalAddress a ≠ some b
  online : ∀ b, b ∈ onlineOf (d.dropPeer g a) g ↔ b ∈ onlineOf d g ∧ canonicalAddress a ≠ some b

/-- Disconnecting the address does not change whom the transport of the group admits. -/
def SparesHandshake (d : ClusterDaemon T) (g a : String) : Prop :=
  ∀ s c, d.groups[g]? = some s → canonicalAddress a = some c →
    admits (disconnect s.transport c) = admits s.transport

theorem leave_of_canonicalAddress {c : String} (hc : canonicalAddress a = some c) :
    s.leave a = ⟨{ s.membership with admitted := s.membership.admitted.erase c },
      disconnect s.transport c⟩ := by
  simp only [ClusterSession.leave, ClusterMembership.leave, hc]

theorem leave_of_eq_none (hc : canonicalAddress a = none) : s.leave a = s := by
  simp only [ClusterSession.leave, ClusterMembership.leave, hc]

theorem mem_admitted_leave {b : String} : b ∈ (s.leave a).membership.admitted ↔
    b ∈ s.membership.admitted ∧ canonicalAddress a ≠ some b := by
  cases hc : canonicalAddress a with
  | none => simp [leave_of_eq_none hc]
  | some c =>
    rw [leave_of_canonicalAddress hc, mem_erase_iff, ne_eq, ne_eq, Option.some.injEq, eq_comm,
      and_comm]

theorem mem_online_leave {b : String} : b ∈ online (s.leave a).transport ↔
    b ∈ online s.transport ∧ canonicalAddress a ≠ some b := by
  cases hc : canonicalAddress a with
  | none => simp [leave_of_eq_none hc]
  | some c =>
    rw [leave_of_canonicalAddress hc,
      Handshaking.online_disconnect (canonical_of_canonicalAddress hc), mem_erase_iff, ne_eq,
      ne_eq, Option.some.injEq, eq_comm, and_comm]

theorem admits_leave_iff : admits (s.leave a).transport = admits s.transport ↔
    ∀ c, canonicalAddress a = some c →
      admits (disconnect s.transport c) = admits s.transport := by
  cases hc : canonicalAddress a with
  | none => simp [leave_of_eq_none hc]
  | some c => simp [leave_of_canonicalAddress hc]

theorem dropPeer_of_eq_none (h : d.groups[g]? = none) : d.dropPeer g a = d := by
  rw [ClusterDaemon.dropPeer, h]

theorem dropPeer_of_eq_some (h : d.groups[g]? = some s) :
    d.dropPeer g a = d.setSession g (s.leave a) := by
  rw [ClusterDaemon.dropPeer, h]

theorem fst_join (s : ClusterSession T) (b role : String) :
    (s.join b role).1 = (s.membership.join b role).1 := by
  simp only [ClusterSession.join]
  split
  · split <;> rfl
  · rfl

theorem fst_join_congr {m m' : ClusterMembership} (h : m'.allowed = m.allowed) (b role : String) :
    (m'.join b role).1 = (m.join b role).1 := by
  simp only [ClusterMembership.join, h]
  split
  · rfl
  · split
    · split <;> rfl
    · rfl

theorem fst_admitPeer (h : d.groups[g]? = some s) (b role : String) : (d.admitPeer g b role).1 =
    match d.ensureGroupAllowed g with
    | .error _ => false
    | .ok () => (s.membership.join b role).1 := by
  rw [ClusterDaemon.admitPeer]
  cases d.ensureGroupAllowed g with
  | error e => rfl
  | ok _ => simp only [ensureSession, h, fst_join]

/-- Whether the daemon admits a peer depends on the roster alone. -/
theorem admitPeer_setSession_leave (h : d.groups[g]? = some s) (b role : String) :
    ((d.setSession g (s.leave a)).admitPeer g b role).1 = (d.admitPeer g b role).1 := by
  have hgroup : (d.setSession g (s.leave a)).groups[g]? = some (s.leave a) := by
    rw [setSession, ExtTreeMap.getElem?_insert_self]
  have hallowed : (s.leave a).membership.allowed = s.membership.allowed := by
    rw [SessionOp.leave_membership, ClusterMembership.leave_allowed]
  rw [fst_admitPeer hgroup, fst_admitPeer h, fst_join_congr hallowed]
  rfl

theorem onlyDrops_iff : OnlyDrops d g a ↔ SparesHandshake d g a := by
  cases hs : d.groups[g]? with
  | none =>
    have hd : d.dropPeer g a = d := dropPeer_of_eq_none hs
    constructor
    · rintro _ s c h
      simp [hs] at h
    · intro _
      refine ⟨?_, ?_, ?_, ?_, ?_, ?_, ?_, ?_⟩ <;>
        simp [hd, admittedOf, onlineOf, hs]
  | some s =>
    have hgroup : (d.setSession g (s.leave a)).groups[g]? = some (s.leave a) := by
      rw [setSession, ExtTreeMap.getElem?_insert_self]
    have hadmits : admitsOf (d.dropPeer g a) g = admitsOf d g ↔ SparesHandshake d g a := by
      rw [dropPeer_of_eq_some hs, admitsOf, admitsOf, hgroup, hs, Option.map_some, Option.map_some,
        Option.getD_some, Option.getD_some, admits_leave_iff]
      constructor
      · rintro h s' c hs' hc
        rw [hs] at hs'
        cases hs'
        exact h c hc
      · exact fun h c hc => h s c hs hc
    rw [← hadmits]
    refine ⟨OnlyDrops.handshake, fun h => ⟨?_, ?_, ?_, ?_, ?_, h, ?_, ?_⟩⟩ <;>
      rw [dropPeer_of_eq_some hs]
    · intro k hk
      rw [setSession, ExtTreeMap.getElem?_insert, if_neg (by simpa using hk.symm)]
    · rfl
    · rfl
    · rw [allowedOf_of_getElem? hgroup, allowedOf_of_getElem? hs, SessionOp.leave_membership,
        ClusterMembership.leave_allowed]
    · exact admitPeer_setSession_leave hs
    · intro b
      simp only [admittedOf, hgroup, hs, Option.map_some, Option.getD_some, mem_admitted_leave]
    · intro b
      simp only [onlineOf, hgroup, hs, Option.map_some, Option.getD_some, mem_online_leave]

end Drop

section Transports

variable {Key : Type} {I : Libp2p Key} {V : LinkVerifier} {g a : String}

theorem onlyDrops_inProcess (d : ClusterDaemon InProcessTransport) : OnlyDrops d g a :=
  onlyDrops_iff.mpr fun _ _ _ _ => rfl

/-- The address that a call drops is not authorized in the mesh of its group. -/
def Spared (d : ClusterDaemon (Libp2pTransport I)) (g a : String) : Prop :=
  ∀ s c, d.groups[g]? = some s → canonicalAddress a = some c → c ∉ s.transport.wire.authorized

theorem admits_disconnect_iff {t : Libp2pTransport I} {c : String} (hc : Canonical c) :
    admits (disconnect t c) = admits t ↔ c ∉ t.wire.authorized := by
  have hmem : ∀ b, b ∈ admits (disconnect t c) ↔ b ∈ t.wire.authorized ∧ c ≠ b := by
    intro b
    have h : b ∈ authorized (disconnect t c) ↔ _ := Authorizing.mem_disconnect
    rw [hc.canonicalAddress, ne_eq, Option.some.injEq] at h
    exact h
  constructor
  · intro h hm
    have hm' : c ∈ admits (disconnect t c) := h ▸ hm
    exact ((hmem c).mp hm').2 rfl
  · intro hn
    ext b
    rw [hmem]
    refine ⟨And.left, fun hb => ⟨hb, ?_⟩⟩
    rintro rfl
    exact hn hb

theorem mem_authorized_leave {s : ClusterSession (Libp2pTransport I)} {b : String} :
    b ∈ (s.leave a).transport.wire.authorized ↔
      b ∈ s.transport.wire.authorized ∧ canonicalAddress a ≠ some b := by
  cases hc : canonicalAddress a with
  | none => simp [leave_of_eq_none hc]
  | some c =>
    have h : b ∈ authorized (disconnect s.transport c) ↔ _ := Authorizing.mem_disconnect
    rw [(canonical_of_canonicalAddress hc).canonicalAddress] at h
    rw [leave_of_canonicalAddress hc]
    exact h

/-- A peer that reconnects after a drop, whatever the swarm task did meanwhile, is admitted if its
address was authorized before and is not the one that was dropped. -/
theorem identify_after_leave {s : ClusterSession (Libp2pTransport I)} {w : Wire}
    (hw : MeshRun.TaskRun I (s.leave a).transport.wire w) {p : PeerId} {key : Key} {b : String}
    (hp : I.toPeerId key = p) (hb : I.addressFromPublicKey key = some b) :
    (w.identify I p key).task = .admitting p b ↔
      b ∈ admits s.transport ∧ canonicalAddress a ≠ some b := by
  rw [identify_admits_iff w hp hb, hw.shared.1, mem_authorized_leave]
  rfl

theorem onlyDrops_libp2p_iff {d : ClusterDaemon (Libp2pTransport I)} :
    OnlyDrops d g a ↔ Spared d g a := by
  rw [onlyDrops_iff]
  apply forall_congr'
  intro s
  apply forall_congr'
  intro c
  apply forall_congr'
  intro _
  apply forall_congr'
  intro hc
  exact admits_disconnect_iff (canonical_of_canonicalAddress hc)

/-- What a call of `dropPeer` does, in a run. -/
def Drops (d : ClusterDaemon (Libp2pTransport I)) : Event (Libp2pTransport I) → Prop
  | .dropPeer g a => OnlyDrops d g a
  | _ => True

/-- Requests, connection hooks and an environment that leaves the authorized sets alone. No call
drops an authorized address. -/
def Sparing (d : ClusterDaemon (Libp2pTransport I)) : Event (Libp2pTransport I) → Prop
  | .dropPeer g a => Spared d g a
  | .transport _ f => ∀ t, authorized (f t) = authorized t
  | .factory makeTransport => Fresh makeTransport
  | _ => True

theorem authorized_join {s : ClusterSession (Libp2pTransport I)} (h : Tracks s) (b role : String) :
    authorized (s.join b role).2.transport = authorized s.transport := by
  obtain hs | ⟨c, hc, _, hs⟩ := s.join_cases b role
  · rw [hs]
  · rw [hs]
    ext x
    rw [Authorizing.mem_dial, (h.safe.canonical c hc).canonicalAddress, Option.some.injEq]
    constructor
    · rintro (hx | rfl)
      · exact hx
      · exact (h.wire c).mpr hc
    · exact .inl

theorem tracks_dropPeer {d : ClusterDaemon (Libp2pTransport I)} (h : AllSessions Tracks d)
    (hspared : Spared d g a) : AllSessions Tracks (d.dropPeer g a) := by
  cases hs : d.groups[g]? with
  | none => rwa [dropPeer_of_eq_none hs]
  | some s =>
    intro k s' hs'
    rw [dropPeer_of_eq_some hs, setSession, getElem?_insert_eq_some] at hs'
    obtain ⟨_, rfl⟩ | ⟨_, hs'⟩ := hs'
    · have hadmits : admits (s.leave a).transport = admits s.transport := by
        rw [admits_leave_iff]
        intro c hc
        exact (admits_disconnect_iff (canonical_of_canonicalAddress hc)).mpr (hspared s c hs hc)
      have hrun : Tracks ((SessionOp.leave a).run s) := (h g s hs).run hadmits
      exact hrun
    · exact h k s' hs'

theorem tracks_step {d d' : ClusterDaemon (Libp2pTransport I)} {e : Event (Libp2pTransport I)}
    (h : Fresh d.makeTransport ∧ AllSessions Tracks d)
    (hs : Meeting (total (step V)) Sparing d e d') :
    Fresh d'.makeTransport ∧ AllSessions Tracks d' := by
  obtain ⟨rfl, he⟩ := hs
  have heff := effect_step V d e
  refine ⟨heff.factory_induction (fun makeTransport hf => ?_) h.1, ?_⟩
  · subst hf
    exact he
  · have hother (hop : ∀ op, Allows e op → ∀ s, Tracks s → Tracks (op.run s)) :
        AllSessions Tracks (step V d e) :=
      h.2.step heff (fun g t ht => tracks_new (h.1 g t ht)) hop fun _ _ hs => hs.applyRoster
    cases e with
    | request r => exact hother fun op hop s hs => hs.run (authorized_run hop)
    | admitPeer g b role =>
      apply hother
      rintro op rfl s hs
      exact hs.run (authorized_join hs b role)
    | dropPeer g a => exact tracks_dropPeer h.2 he
    | transport g f =>
      apply hother
      rintro op rfl s hs
      exact hs.run (he s.transport)
    | factory makeTransport => exact hother fun op hop _ _ => hop.elim

theorem tracks_of_steps {d d' : ClusterDaemon (Libp2pTransport I)}
    {es : List (Event (Libp2pTransport I))} (hd : Initial d) (hfresh : Fresh d.makeTransport)
    (h : Steps (Meeting (total (step V)) Sparing) d es d') : AllSessions Tracks d' :=
  (h.invariant (I := fun d => Fresh d.makeTransport ∧ AllSessions Tracks d)
    (fun _ _ _ => tracks_step) ⟨hfresh, allSessions_of_initial hd⟩).2

theorem drops_of_sparing {d : ClusterDaemon (Libp2pTransport I)} {e : Event (Libp2pTransport I)}
    (h : Sparing d e) : Drops d e := by
  cases e with
  | dropPeer g a => exact onlyDrops_libp2p_iff.mpr h
  | _ => trivial

/-- In process `dropPeer` only ever takes a peer offline. Over a libp2p mesh it does so if and only if
the address that it drops was not authorized; in every run in which that always holds, every call only
takes a peer offline, and whom a group allows is admitted at the next handshake. -/
theorem dropPeer_only_drops_iff (V : LinkVerifier) (g a : String)
    (inProcess : ClusterDaemon InProcessTransport) (d : ClusterDaemon (Libp2pTransport I)) :
    OnlyDrops inProcess g a ∧ (OnlyDrops d g a ↔ Spared d g a) ∧
      ∀ d₀ es, Initial d₀ → Fresh d₀.makeTransport →
        Steps (Meeting (total (step V)) Sparing) d₀ es d →
          Steps (Meeting (total (step V)) Drops) d₀ es d ∧
            ∀ s, d.groups[g]? = some s →
              ∀ b, b ∈ admits s.transport ↔ b ∈ s.membership.allowed := by
  refine ⟨onlyDrops_inProcess inProcess, onlyDrops_libp2p_iff, fun d₀ es hd hfresh h => ⟨?_, ?_⟩⟩
  · exact h.mono fun _ _ _ hr => ⟨hr.1, drops_of_sparing hr.2⟩
  · exact fun s hs => (tracks_of_steps hd hfresh h g s hs).wire

end Transports

section Samples

open Evictions MeshRun Schedule Offboarding

/-- The daemon after a peer was allowed and has connected. -/
def joinedDaemon : ClusterDaemon (Libp2pTransport plainLibp2p) :=
  step plainVerifier (step plainVerifier libp2pDaemon (.request allowing))
    (.transport "group" joining)

/-- A peer that is dropped is not admitted at its next handshake, though the group still allows it. -/
theorem dropped_peer_is_deauthorized :
    ¬ ∀ (V : LinkVerifier) (d₀ d : ClusterDaemon (Libp2pTransport plainLibp2p)) es g a, Initial d₀ →
      Starts d₀.makeTransport → Steps (Meeting (total (step V)) Meshing) d₀ es d →
        OnlyDrops d g a := by
  intro h
  have hauthorized : (joinedDaemon.groups["group"]?.any fun s =>
      s.transport.wire.authorized.contains m1) = true := by
    decide +kernel
  obtain ⟨s, hs, hm⟩ := (Option.any_eq_true _ _).mp hauthorized
  have hdrop := h plainVerifier libp2pDaemon joinedDaemon _ "group" m1 (initial_withFactory _ _)
    starts_libp2pDaemon steps_joining
  have hm1 : canonicalAddress m1 = some m1 := (canonical_address rfl rfl).canonicalAddress
  exact onlyDrops_libp2p_iff.mp hdrop s m1 hs hm1 (ExtTreeSet.contains_iff_mem.mp hm)

end Samples

end CitrateCluster.Dropping
