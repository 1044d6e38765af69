import CitrateCluster.PeerAddrs
import Mathlib.Data.List.Dedup
import Std.Data.ExtTreeMap

namespace CitrateCluster.Redial

open Std (ExtTreeMap)
open PeerAddrs

def maxBootstrap : Nat := 64

def maxRedialPerTick : Nat := 16

/-- Keep an address for re-dial. A full list drops its oldest entry first. -/
def rememberBootstrap (bootstrap : List Multiaddr) (addr : Multiaddr) : List Multiaddr :=
  if bootstrap.contains addr then bootstrap
  else (if bootstrap.length ≥ maxBootstrap then bootstrap.tail else bootstrap) ++ [addr]

/-- The list that the swarm starts with, after it was asked to dial some addresses. -/
def remembered (initial addrs : List Multiaddr) : List Multiaddr :=
  addrs.foldl rememberBootstrap (initial.take maxBootstrap)

/-- How a dial is made: the peer that has to answer, if one is named, the addresses to try, and whether
from a new local port. -/
structure DialOpts where
  peerId : Option PeerId
  addresses : List Multiaddr
  allocateNewPort : Bool
  deriving DecidableEq, Repr

def redialOpts (addr : Multiaddr) : DialOpts :=
  match bootstrapPeerId addr with
  | some id => ⟨some id, [addr], true⟩
  | none => ⟨none, [addr], true⟩

/-- What a tick finds: the peers that are connected, whether one is admitted, and the peers that the
group authorizes. -/
structure Connectivity where
  isConnected : PeerId → Bool
  anyAdmitted : Bool
  isAuthorized : PeerId → Bool

namespace Connectivity

variable (c : Connectivity)

/-- An address that names a peer is due while the peer is not connected, another one while nobody is
admitted. -/
def addrDue (addr : Multiaddr) : Bool :=
  match bootstrapPeerId addr with
  | some id => !c.isConnected id
  | none => !c.anyAdmitted

def peerDue (entry : PeerId × List Multiaddr) : Bool :=
  !c.isConnected entry.1 && c.isAuthorized entry.1

end Connectivity

def redialTargets (bootstrap : List Multiaddr) (c : Connectivity) : List Multiaddr :=
  (bootstrap.filter c.addrDue).take maxRedialPerTick

/-- A table lists its entries in the order of their peers. -/
def discoveryTargets (discovered : ExtTreeMap PeerId (List Multiaddr)) (c : Connectivity) :
    List (PeerId × List Multiaddr) :=
  (discovered.toList.filter c.peerDue).take maxRedialPerTick

section Lists

variable {bootstrap initial addrs : List Multiaddr} {addr : Multiaddr}

theorem mem_rememberBootstrap : addr ∈ rememberBootstrap bootstrap addr := by
  rw [rememberBootstrap]
  split
  · next h => exact List.contains_iff_mem.mp h
  · exact List.mem_append_right _ List.mem_cons_self

theorem length_rememberBootstrap (h : bootstrap.length ≤ maxBootstrap) :
    (rememberBootstrap bootstrap addr).length ≤ maxBootstrap := by
  have hpos : 0 < maxBootstrap := by decide
  rw [rememberBootstrap]
  split
  · exact h
  · split
    · rw [List.length_append, List.length_tail, List.length_singleton]
      omega
    · rw [List.length_append, List.length_singleton]
      omega

theorem nodup_rememberBootstrap (h : bootstrap.Nodup) :
    (rememberBootstrap bootstrap addr).Nodup := by
  rw [rememberBootstrap]
  split
  · exact h
  · next hnot =>
    have hnew : addr ∉ bootstrap := fun hm => hnot (List.contains_iff_mem.mpr hm)
    refine List.Nodup.append ?_ (List.nodup_singleton addr) ?_
    · split
      · exact h.tail
      · exact h
    · rw [List.disjoint_singleton]
      split
      · exact fun hm => hnew (List.mem_of_mem_tail hm)
      · exact hnew

theorem nodup_remembered (h : initial.Nodup) : (remembered initial addrs).Nodup :=
  List.foldlRecOn addrs rememberBootstrap (h.sublist (List.take_sublist _ _))
    fun _ hl _ _ => nodup_rememberBootstrap hl

/-- The address remembered last is kept. -/
theorem mem_remembered (h : addrs.getLast? = some addr) : addr ∈ remembered initial addrs := by
  obtain ⟨earlier, rfl⟩ := List.getLast?_eq_some_iff.mp h
  rw [remembered, List.foldl_append]
  exact mem_rememberBootstrap

end Lists

section Ticks

/-- The ticks it takes to serve a number of entries, a tick's bound at a time. -/
def ticksFor (n : Nat) : Nat := (n + maxRedialPerTick - 1) / maxRedialPerTick

/-- What consecutive ticks return together, while nothing changes that they read. -/
def overTicks {α : Type} (n : Nat) (targets : List α) : List α :=
  (List.replicate n targets).flatten

/-- Over the ticks that the due addresses of a list take, they are what is returned. -/
def BootstrapServed (bootstrap : List Multiaddr) (c : Connectivity) : Prop :=
  ∀ a, a ∈ overTicks (ticksFor (bootstrap.filter c.addrDue).dedup.length)
      (redialTargets bootstrap c) ↔
    a ∈ bootstrap.filter c.addrDue

/-- Over the ticks that the due peers of a table take, they are what is returned. -/
def DiscoveredServed (discovered : ExtTreeMap PeerId (List Multiaddr)) (c : Connectivity) : Prop :=
  ∀ e, e ∈ overTicks (ticksFor (discovered.toList.filter c.peerDue).length)
      (discoveryTargets discovered c) ↔
    e ∈ discovered.toList.filter c.peerDue

variable {α : Type} {due : List α}

theorem mem_overTicks {n : Nat} {targets : List α} {a : α} :
    a ∈ overTicks n targets ↔ 0 < n ∧ a ∈ targets := by
  simp [overTicks, List.mem_replicate, Nat.pos_iff_ne_zero]

theorem ticksFor_pos {n : Nat} (h : 0 < n) : 0 < ticksFor n := by
  rw [ticksFor, maxRedialPerTick]
  omega

/-- However many ticks there are, only what the first one returns is ever returned. -/
theorem served_iff {n : Nat} (hn : due ≠ [] → 0 < n) :
    (∀ a, a ∈ overTicks n (due.take maxRedialPerTick) ↔ a ∈ due) ↔
      ∀ a ∈ due.drop maxRedialPerTick, a ∈ due.take maxRedialPerTick := by
  simp only [mem_overTicks]
  constructor
  · intro h a ha
    exact ((h a).mpr (List.mem_of_mem_drop ha)).2
  · refine fun h a => ⟨fun ha => List.mem_of_mem_take ha.2, fun ha => ?_⟩
    refine ⟨hn (List.ne_nil_of_mem ha), ?_⟩
    rw [← List.take_append_drop maxRedialPerTick due, List.mem_append] at ha
    exact ha.elim id (h a)

theorem repeats_iff_of_nodup (h : due.Nodup) :
    (∀ a ∈ due.drop maxRedialPerTick, a ∈ due.take maxRedialPerTick) ↔
      due.length ≤ maxRedialPerTick := by
  rw [← List.drop_eq_nil_iff, List.eq_nil_iff_forall_not_mem]
  constructor
  · intro hrepeat a ha
    exact List.disjoint_take_drop h (Nat.le_refl _) (hrepeat a ha) ha
  · intro hnone a ha
    exact absurd ha (hnone a)

theorem nodup_toList (discovered : ExtTreeMap PeerId (List Multiaddr)) :
    discovered.toList.Nodup := by
  refine discovered.distinct_keys_toList.imp ?_
  rintro e _ hne rfl
  exact hne Std.ReflCmp.compare_self

theorem bootstrapServed_iff {bootstrap : List Multiaddr} {c : Connectivity} :
    BootstrapServed bootstrap c ↔ ∀ a ∈ (bootstrap.filter c.addrDue).drop maxRedialPerTick,
      a ∈ (bootstrap.filter c.addrDue).take maxRedialPerTick := by
  refine served_iff fun hne => ticksFor_pos (List.length_pos_iff.mpr ?_)
  rwa [ne_eq, List.dedup_eq_nil]

theorem discoveredServed_iff {discovered : ExtTreeMap PeerId (List Multiaddr)} {c : Connectivity} :
    DiscoveredServed discovered c ↔
      (discovered.toList.filter c.peerDue).length ≤ maxRedialPerTick := by
  rw [← repeats_iff_of_nodup ((nodup_toList discovered).filter _)]
  exact served_iff fun hne => ticksFor_pos (List.length_pos_iff.mpr hne)

/-- The due addresses are served if and only if those after the first sixteen repeat these, which
without repetitions says that at most sixteen are due; and the due peers if and only if at most
sixteen are. -/
theorem redial_serves_iff (initial addrs : List Multiaddr) (c : Connectivity)
    (discovered : ExtTreeMap PeerId (List Multiaddr)) :
    (∀ a, addrs.getLast? = some a → a ∈ remembered initial addrs) ∧
    (BootstrapServed (remembered initial addrs) c ↔
      ∀ a ∈ ((remembered initial addrs).filter c.addrDue).drop maxRedialPerTick,
        a ∈ ((remembered initial addrs).filter c.addrDue).take maxRedialPerTick) ∧
    (initial.Nodup → (BootstrapServed (remembered initial addrs) c ↔
      ((remembered initial addrs).filter c.addrDue).length ≤ maxRedialPerTick)) ∧
    (DiscoveredServed discovered c ↔
      (discovered.toList.filter c.peerDue).length ≤ maxRedialPerTick) := by
  refine ⟨fun a => mem_remembered, bootstrapServed_iff, fun h => ?_, discoveredServed_iff⟩
  rw [bootstrapServed_iff]
  exact repeats_iff_of_nodup ((nodup_remembered h).filter _)

end Ticks

/-- An address on a dead peer. -/
def deadAddr (i : Nat) : Multiaddr := [.other "ip4/10.0.0.2", .other "tcp/4001", .p2p (toString i)]

/-- Nothing is connected. -/
def offline : Connectivity := ⟨fun _ => false, false, fun _ => true⟩

/-- Sixteen dead peers at the start of the list shut out the peer that is dialed after them. -/
theorem late_peer_is_shut_out :
    ¬ ∀ initial addrs c, BootstrapServed (remembered initial addrs) c := by
  intro h
  have hserved := h ((List.range 16).map deadAddr) [deadAddr 16] offline
  rw [bootstrapServed_iff] at hserved
  exact absurd (hserved (deadAddr 16) (by decide +kernel)) (by decide +kernel)

end CitrateCluster.Redial
