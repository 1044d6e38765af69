import CitrateCluster.Roster

namespace CitrateCluster.Membership

open Std (ExtTreeSet)
open Roster Collections

/-- The role-gated allowed set of a roster, and the peers that are currently admitted. -/
structure ClusterMembership where
  allowed : AddressSet
  admitted : AddressSet
  deriving Inhabited

namespace ClusterMembership

def new (roster : Entries) : ClusterMembership := ⟨allowedSet roster, ∅⟩

def join (m : ClusterMembership) (address role : String) : Bool × ClusterMembership :=
  if roleRank role < minClusterRank then (false, m)
  else
    match canonicalAddress address with
    | some a =>
      if m.allowed.contains a then (true, { m with admitted := m.admitted.insert a })
      else (false, m)
    | none => (false, m)

def leave (m : ClusterMembership) (address : String) : ClusterMembership :=
  match canonicalAddress address with
  | some a => { m with admitted := m.admitted.erase a }
  | none => m

/-- Take the allowed set of a new roster and evict, in the same step, every admitted peer
outside it. -/
def reconcile (m : ClusterMembership) (roster : Entries) : List String × ClusterMembership :=
  let allowed := allowedSet roster
  let evicted := m.admitted.toList.filter fun a => !allowed.contains a
  (evicted, ⟨allowed, evicted.foldl ExtTreeSet.erase m.admitted⟩)

def invariantHolds (m : ClusterMembership) : Bool := m.admitted.toList.all m.allowed.contains

/-- Admit what the transport reports as connected, as far as the roster allows it. -/
def syncAdmitted (m : ClusterMembership) (candidates : AddressSet) : ClusterMembership :=
  { m with admitted := candidates.filter m.allowed.contains }

@[simp] theorem join_allowed (m : ClusterMembership) (address role : String) :
    (m.join address role).2.allowed = m.allowed := by
  simp only [join]
  split
  · rfl
  · split
    · split <;> rfl
    · rfl

@[simp] theorem leave_allowed (m : ClusterMembership) (address : String) :
    (m.leave address).allowed = m.allowed := by
  simp only [leave]
  split <;> rfl

@[simp] theorem reconcile_allowed (m : ClusterMembership) (roster : Entries) :
    (m.reconcile roster).2.allowed = allowedSet roster := rfl

@[simp] theorem syncAdmitted_allowed (m : ClusterMembership) (candidates : AddressSet) :
    (m.syncAdmitted candidates).allowed = m.allowed := rfl

theorem mem_join_admitted {m : ClusterMembership} {address role a : String}
    (h : a ∈ (m.join address role).2.admitted) : a ∈ m.admitted ∨ a ∈ m.allowed := by
  simp only [join] at h
  split at h
  · exact .inl h
  · split at h
    · next b _ =>
      split at h
      · next hb =>
        rcases mem_insert_iff.mp h with rfl | ha
        · exact .inr (ExtTreeSet.contains_iff_mem.mp hb)
        · exact .inl ha
      · exact .inl h
    · exact .inl h

theorem mem_leave_admitted {m : ClusterMembership} {address a : String}
    (h : a ∈ (m.leave address).admitted) : a ∈ m.admitted := by
  simp only [leave] at h
  split at h
  · exact (mem_erase_iff.mp h).2
  · exact h

theorem mem_reconcile_evicted {m : ClusterMembership} {roster : Entries} {a : String} :
    a ∈ (m.reconcile roster).1 ↔ a ∈ m.admitted ∧ a ∉ allowedSet roster := by
  simp [reconcile]

theorem mem_reconcile_admitted {m : ClusterMembership} {roster : Entries} {a : String} :
    a ∈ (m.reconcile roster).2.admitted ↔ a ∈ m.admitted ∧ a ∈ allowedSet roster := by
  change a ∈ (m.reconcile roster).1.foldl ExtTreeSet.erase m.admitted ↔ _
  rw [mem_foldl_erase, mem_reconcile_evicted]
  tauto

theorem mem_syncAdmitted_admitted {m : ClusterMembership} {candidates : AddressSet} {a : String} :
    a ∈ (m.syncAdmitted candidates).admitted ↔ a ∈ candidates ∧ a ∈ m.allowed := by
  simp [syncAdmitted, ExtTreeSet.mem_filter]

/-- The safety property of the admission boundary: only allowed peers are admitted, and every
address is in canonical form. -/
structure Safe (m : ClusterMembership) : Prop where
  admitted_allowed : ∀ a ∈ m.admitted, a ∈ m.allowed
  canonical : ∀ a ∈ m.allowed, Canonical a

theorem safe_new (roster : Entries) : (new roster).Safe :=
  ⟨fun a ha => by simp [new] at ha, fun _ ha => canonical_of_mem_allowedSet ha⟩

theorem Safe.join {m : ClusterMembership} (h : m.Safe) (address role : String) :
    (m.join address role).2.Safe := by
  refine ⟨fun a ha => ?_, by simpa using h.canonical⟩
  rw [join_allowed]
  exact (mem_join_admitted ha).elim (h.admitted_allowed a) id

theorem Safe.leave {m : ClusterMembership} (h : m.Safe) (address : String) :
    (m.leave address).Safe := by
  refine ⟨fun a ha => ?_, by simpa using h.canonical⟩
  rw [leave_allowed]
  exact h.admitted_allowed a (mem_leave_admitted ha)

theorem safe_reconcile (m : ClusterMembership) (roster : Entries) :
    (m.reconcile roster).2.Safe :=
  ⟨fun _ ha => (mem_reconcile_admitted.mp ha).2, fun _ ha => canonical_of_mem_allowedSet ha⟩

theorem Safe.syncAdmitted {m : ClusterMembership} (h : m.Safe) (candidates : AddressSet) :
    (m.syncAdmitted candidates).Safe :=
  ⟨fun _ ha => (mem_syncAdmitted_admitted.mp ha).2, h.canonical⟩

theorem invariantHolds_iff {m : ClusterMembership} :
    m.invariantHolds = true ↔ ∀ a ∈ m.admitted, a ∈ m.allowed := by
  simp [invariantHolds]

end ClusterMembership

end CitrateCluster.Membership
