import CitrateCluster.Membership
import CitrateCluster.Transport

namespace CitrateCluster.Session

open Std (ExtTreeSet)
open CitrateCluster.Membership Roster Collections Transport

variable {T : Type} [MeshTransport T]

/-- The admission state of a group bound to its transport. -/
structure ClusterSession (T : Type) where
  membership : ClusterMembership
  transport : T

namespace ClusterSession

def new (roster : Entries) (transport : T) : ClusterSession T := ⟨.new roster, transport⟩

def join (s : ClusterSession T) (address role : String) : Bool × ClusterSession T :=
  let (admitted, membership) := s.membership.join address role
  if admitted then
    match canonicalAddress address with
    | some a => (admitted, ⟨membership, dial s.transport a⟩)
    | none => (admitted, ⟨membership, s.transport⟩)
  else (admitted, ⟨membership, s.transport⟩)

def leave (s : ClusterSession T) (address : String) : ClusterSession T :=
  let membership := s.membership.leave address
  match canonicalAddress address with
  | some a => ⟨membership, disconnect s.transport a⟩
  | none => ⟨membership, s.transport⟩

def reconcile (s : ClusterSession T) (roster : Entries) : List String × ClusterSession T :=
  let (evicted, membership) := s.membership.reconcile roster
  (evicted, ⟨membership, evicted.foldl disconnect s.transport⟩)

/-- Record in `admitted` what the transport has meshed, without touching the wire. -/
def syncAdmittedFromWire (s : ClusterSession T) : ClusterSession T :=
  let (peers, transport) := connected s.transport
  ⟨s.membership.syncAdmitted (ExtTreeSet.ofList peers), transport⟩

/-- What `apply_roster` does to a session: reconcile, deauthorize every address that left the
allowed set, authorize the rest. -/
def applyRoster (s : ClusterSession T) (roster : Entries) : List String × ClusterSession T :=
  let before := s.membership.allowed
  let (evicted, s) := s.reconcile roster
  let allowed := s.membership.allowed
  let removed := before.toList.filter fun a => !allowed.contains a
  let transport := removed.foldl disconnect s.transport
  (evicted, { s with transport := allowed.toList.foldl authorize transport })

@[simp] theorem applyRoster_allowed (s : ClusterSession T) (roster : Entries) :
    (s.applyRoster roster).2.membership.allowed = allowedSet roster := rfl

/-- A peer joins under its canonical address if the group allows it, and otherwise not at all. -/
theorem join_cases (s : ClusterSession T) (address role : String) :
    (s.join address role).2 = s ∨
      ∃ a ∈ s.membership.allowed, canonicalAddress address = some a ∧ (s.join address role).2 =
        ⟨{ s.membership with admitted := s.membership.admitted.insert a }, dial s.transport a⟩ := by
  simp only [join, ClusterMembership.join]
  split
  · exact .inl rfl
  · cases hc : canonicalAddress address with
    | none => exact .inl rfl
    | some a =>
      dsimp only
      split
      · next ha => exact .inr ⟨a, ExtTreeSet.contains_iff_mem.mp ha, rfl, rfl⟩
      · exact .inl rfl

theorem leave_cases (s : ClusterSession T) (address : String) :
    s.leave address = s ∨ ∃ a, canonicalAddress address = some a ∧
      s.leave address =
        ⟨{ s.membership with admitted := s.membership.admitted.erase a },
          disconnect s.transport a⟩ := by
  simp only [leave, ClusterMembership.leave]
  cases hc : canonicalAddress address with
  | none => exact .inl rfl
  | some a => exact .inr ⟨a, rfl, rfl⟩

theorem applyRoster_membership (s : ClusterSession T) (roster : Entries) :
    (s.applyRoster roster).2.membership = (s.membership.reconcile roster).2 := rfl

end ClusterSession

/-- What the daemon and its environment do to a session between two rosters. -/
inductive SessionOp (T : Type) where
  | sync
  | connected
  | publish (sender data : String)
  | drain
  | addPeers (addrs : List String)
  | seedAddrs
  | join (address role : String)
  | leave (address : String)
  | change (f : T → T)

namespace SessionOp

def run : SessionOp T → ClusterSession T → ClusterSession T
  | sync, s => s.syncAdmittedFromWire
  | connected, s => { s with transport := (Transport.connected s.transport).2 }
  | publish sender data, s => { s with transport := Transport.publish s.transport sender data }
  | drain, s => { s with transport := (Transport.drain s.transport).2 }
  | addPeers addrs, s => { s with transport := (Transport.addPeers s.transport addrs).2 }
  | seedAddrs, s => { s with transport := (Transport.seedAddrs s.transport).2 }
  | join address role, s => (s.join address role).2
  | leave address, s => s.leave address
  | change f, s => { s with transport := f s.transport }

def runAll (ops : List (SessionOp T)) (s : ClusterSession T) : ClusterSession T :=
  ops.foldl (fun s op => op.run s) s

/-- The operations that a request may cause besides a new roster. -/
def IsRequest : SessionOp T → Prop
  | join _ _ | leave _ | change _ => False
  | _ => True

theorem join_membership (s : ClusterSession T) (address role : String) :
    (s.join address role).2.membership = (s.membership.join address role).2 := by
  simp only [ClusterSession.join]
  split
  · split <;> rfl
  · rfl

theorem leave_membership (s : ClusterSession T) (address : String) :
    (s.leave address).membership = s.membership.leave address := by
  simp only [ClusterSession.leave]
  split <;> rfl

theorem run_allowed (op : SessionOp T) (s : ClusterSession T) :
    (op.run s).membership.allowed = s.membership.allowed := by
  cases op with
  | join address role => rw [run, join_membership, ClusterMembership.join_allowed]
  | leave address => rw [run, leave_membership, ClusterMembership.leave_allowed]
  | _ => rfl

theorem run_safe (op : SessionOp T) {s : ClusterSession T} (h : s.membership.Safe) :
    (op.run s).membership.Safe := by
  cases op with
  | sync => exact h.syncAdmitted _
  | join address role => rw [run, join_membership]; exact h.join address role
  | leave address => rw [run, leave_membership]; exact h.leave address
  | _ => exact h

/-- What every operation in a list preserves, the whole list preserves. -/
theorem runAll_induction {P : ClusterSession T → Prop} {ops : List (SessionOp T)}
    (hstep : ∀ op ∈ ops, ∀ s, P s → P (op.run s)) {s : ClusterSession T} (h : P s) :
    P (runAll ops s) := by
  induction ops generalizing s with
  | nil => exact h
  | cons op ops ih =>
    exact ih (fun o ho => hstep o (List.mem_cons_of_mem op ho)) (hstep op List.mem_cons_self s h)

theorem runAll_allowed (ops : List (SessionOp T)) (s : ClusterSession T) :
    (runAll ops s).membership.allowed = s.membership.allowed :=
  runAll_induction (P := fun t => t.membership.allowed = s.membership.allowed)
    (fun op _ t ht => (run_allowed op t).trans ht) rfl

end SessionOp

end CitrateCluster.Session
