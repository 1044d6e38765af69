import CitrateCluster.InProcessWire
import CitrateCluster.Leaving
import CitrateCluster.Offboarding

namespace CitrateCluster.Evictions

open Std (ExtTreeMap ExtTreeSet)
open CitrateCluster.Membership Runs Roster Collections Device Registry EffectiveRoster Transport
  Session Daemon ClusterDaemon Ipc DaemonStep GroupState

section Reports

variable {T : Type} [MeshTransport T] {V : LinkVerifier} {d d' : ClusterDaemon T} {g : String}
  {s : ClusterSession T} {roster : Entries} {links : List DeviceLinkWire}
  {revocations : List RevocationWire}

/-- The peers that the transport of a group reports as connected. -/
def connectedOf (d : ClusterDaemon T) (g : String) : AddressSet :=
  ExtTreeSet.ofList ((d.groups[g]?.map fun s => (connected s.transport).1).getD [])

/-- The peers that are admitted to a group as far as the daemon knows. -/
def admittedOf (d : ClusterDaemon T) (g : String) : AddressSet :=
  (d.groups[g]?.map fun s => s.membership.admitted).getD ∅

/-- The allowed set that a new roster gives a group. -/
def allowedAfter (V : LinkVerifier) (d : ClusterDaemon T) (g : String) (roster : Entries)
    (links : List DeviceLinkWire) (revocations : List RevocationWire) : AddressSet :=
  allowedSet (effectiveRoster roster (registryAfter V d g links revocations).2)

/-- A new roster that takes effect reports, sorted, the peers that were connected before it and are
outside the new allowed set. -/
def ReportsEvictions (V : LinkVerifier) (d : ClusterDaemon T) : Event T → Prop
  | .request (.setRoster g roster links revocations) => ∀ evicted rejected,
    (handleRequest V d (.setRoster g roster links revocations)).1 = .reconciled evicted rejected →
      evicted = (connectedOf d g).toList.filter fun a =>
        !(allowedOf (step V d (.request (.setRoster g roster links revocations))) g).contains a
  | _ => True

/-- When a new roster arrives, the daemon knows which of the peers outside its allowed set are
connected. -/
def SnapshotCurrent (V : LinkVerifier) (d : ClusterDaemon T) : Event T → Prop
  | .request (.setRoster g roster links revocations) =>
    ∀ a, a ∉ allowedAfter V d g roster links revocations → (a ∈ admittedOf d g ↔ a ∈ connectedOf d g)
  | _ => True

omit [MeshTransport T] in
theorem admitted_of_opened (hs : Opened d g s) : s.membership.admitted = admittedOf d g := by
  obtain hs | ⟨hnone, transport, _, rfl⟩ := hs
  · simp only [admittedOf, hs, Option.map_some, Option.getD_some]
  · simp only [admittedOf, hnone, Option.map_none, Option.getD_none]
    rfl

/-- What is reported comes from the admitted set. -/
theorem evicted_eq {evicted rejected : List String}
    (h : (handleRequest V d (.setRoster g roster links revocations)).1 =
      .reconciled evicted rejected) :
    evicted = (admittedOf d g).toList.filter
        (fun a => !(allowedAfter V d g roster links revocations).contains a) ∧
      allowedOf (step V d (.request (.setRoster g roster links revocations))) g =
        allowedAfter V d g roster links revocations := by
  obtain ⟨e, he⟩ | ⟨s, hs, he⟩ := handleRequest_setRoster_cases V d g roster links revocations
  · rw [he] at h
    cases h
  · rw [he] at h
    obtain ⟨rfl, _⟩ := Response.reconciled.inj h
    rw [step, he, ← admitted_of_opened hs]
    exact ⟨rfl, allowedOf_rostered⟩

theorem toList_filter_eq_iff {s t : AddressSet} {p : String → Bool} :
    s.toList.filter p = t.toList.filter p ↔ ∀ a, p a = true → (a ∈ s ↔ a ∈ t) := by
  rw [← ExtTreeSet.toList_filter, ← ExtTreeSet.toList_filter, ExtTreeSet.toList_inj]
  constructor
  · intro h a hp
    have hmem : a ∈ s.filter p ↔ a ∈ t.filter p := by rw [h]
    simpa [ExtTreeSet.mem_filter, hp] using hmem
  · intro h
    apply ExtTreeSet.ext_mem
    intro a
    cases hp : p a with
    | false => simp [ExtTreeSet.mem_filter, hp]
    | true => simpa [ExtTreeSet.mem_filter, hp] using h a hp

theorem evicted_eq_connected_iff {evicted rejected : List String}
    (h : (handleRequest V d (.setRoster g roster links revocations)).1 =
      .reconciled evicted rejected) :
    (evicted = (connectedOf d g).toList.filter fun a =>
        !(allowedOf (step V d (.request (.setRoster g roster links revocations))) g).contains a) ↔
      ∀ a, a ∉ allowedAfter V d g roster links revocations →
        (a ∈ admittedOf d g ↔ a ∈ connectedOf d g) := by
  obtain ⟨rfl, hallowed⟩ := evicted_eq h
  rw [hallowed, toList_filter_eq_iff]
  simp only [Bool.not_eq_true', contains_eq_false_iff]

theorem reports_of_current {e : Event T} (h : SnapshotCurrent V d e) : ReportsEvictions V d e := by
  cases e with
  | request r =>
    cases r with
    | setRoster g roster links revocations =>
      intro evicted rejected hr
      exact (evicted_eq_connected_iff hr).mpr h
    | _ => trivial
  | _ => trivial

/-- A new roster reports exactly the peers it cuts off if and only if the daemon knows which of the
peers outside the new allowed set are connected; so it does in every run in which it always knows. -/
theorem evictions_reported_iff (V : LinkVerifier) :
    (∀ (d : ClusterDaemon T) g roster links revocations evicted rejected,
      (handleRequest V d (.setRoster g roster links revocations)).1 =
          .reconciled evicted rejected →
        (evicted = ((connectedOf d g).toList.filter fun a => !(allowedOf
            (step V d (.request (.setRoster g roster links revocations))) g).contains a) ↔
          SnapshotCurrent V d (.request (.setRoster g roster links revocations)))) ∧
      ∀ (d₀ : ClusterDaemon T) es d, Steps (Meeting (total (step V)) (SnapshotCurrent V)) d₀ es d →
        Steps (Meeting (total (step V)) (ReportsEvictions V)) d₀ es d := by
  refine ⟨fun d g roster links revocations evicted rejected => evicted_eq_connected_iff, ?_⟩
  intro d₀ es d h
  exact h.mono fun _ _ _ hr => ⟨hr.1, reports_of_current hr.2⟩

end Reports

section Meshes

open SwarmLoop SwarmSurface MeshRun Schedule Offboarding

/-- A daemon over libp2p meshes. -/
def libp2pDaemon : ClusterDaemon (Libp2pTransport plainLibp2p) :=
  withFactory m2 fun group => .ok ⟨.new group m2⟩

/-- A peer connects and is admitted at the handshake. -/
def joining (t : Libp2pTransport plainLibp2p) : Libp2pTransport plainLibp2p :=
  ⟨meeting.foldl (attempt plainLibp2p) t.wire⟩

theorem starts_libp2pDaemon : Starts libp2pDaemon.makeTransport := by
  intro g t ht
  cases ht
  exact ⟨m2, rfl⟩

theorem steps_joining : Steps (Meeting (total (step plainVerifier)) Meshing) libp2pDaemon
    [.request allowing, .transport "group" joining]
    (step plainVerifier (step plainVerifier libp2pDaemon (.request allowing))
      (.transport "group" joining)) :=
  .cons ⟨rfl, trivial⟩ (.single ⟨rfl, fun t => taskRun_attempts meeting t.wire⟩)

/-- The peer is allowed, connects while nobody reads the group, and is then removed: it is cut off,
and no eviction is reported. -/
theorem unread_peer_is_not_reported :
    ¬ ∀ (V : LinkVerifier) (d₀ d : ClusterDaemon (Libp2pTransport plainLibp2p)) es e, Initial d₀ →
      Starts d₀.makeTransport → Steps (Meeting (total (step V)) Meshing) d₀ es d →
        ReportsEvictions V d e := by
  intro h
  have hreport := h plainVerifier libp2pDaemon _ _ (.request (.setRoster "group" [] [] []))
    (initial_withFactory _ _) starts_libp2pDaemon steps_joining [] [] (by decide +kernel)
  exact absurd hreport (by decide +kernel)

end Meshes

section InProcess

open InProcessWire

/-- The in-process transport connects nobody by itself, so that the reports are always exact. -/
theorem snapshotCurrent_of_wired {V : LinkVerifier} {d : ClusterDaemon InProcessTransport}
    (h : AllSessions Wired d) (e : Event InProcessTransport) : SnapshotCurrent V d e := by
  cases e with
  | request r =>
    cases r with
    | setRoster g roster links revocations =>
      intro a _
      rw [admittedOf, connectedOf]
      cases hs : d.groups[g]? with
      | none => simp
      | some s =>
        rw [Option.map_some, Option.map_some, Option.getD_some, Option.getD_some,
          ← (h g s hs).wire a, mem_ofList_iff]
        simp [connected]
    | _ => trivial
  | _ => trivial

end InProcess

end CitrateCluster.Evictions
