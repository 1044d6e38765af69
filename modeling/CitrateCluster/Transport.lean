import CitrateCluster.Roster

namespace CitrateCluster.Transport

open Std (ExtTreeSet)
open Roster Collections

structure MeshMessage where
  sender : String
  data : String
  deriving DecidableEq, Repr

/-- The connection seam. A transport shares state with tasks of its own, so reading it may leave it
in another state. -/
class ClusterTransport (T : Type) where
  dial : T → String → T
  disconnect : T → String → T
  connected : T → List String × T

/-- The transport the daemon drives: the connection seam and the topic of the group. -/
class MeshTransport (T : Type) extends ClusterTransport T where
  publish : T → String → String → T
  drain : T → List MeshMessage × T
  authorize : T → String → T
  addPeers : T → List String → Except String Nat × T
  seedAddrs : T → Except String (List String) × T

export ClusterTransport (dial disconnect connected)
export MeshTransport (publish drain authorize addPeers seedAddrs)

/-- A transport that keeps a set of authorized addresses, which its `dial`, `authorize` and
`disconnect` alone change. -/
class Authorizing (T : Type) extends MeshTransport T where
  authorized : T → Set String
  mem_dial {t : T} {peer a : String} :
    a ∈ authorized (dial t peer) ↔ a ∈ authorized t ∨ canonicalAddress peer = some a
  mem_authorize {t : T} {peer a : String} :
    a ∈ authorized (authorize t peer) ↔ a ∈ authorized t ∨ canonicalAddress peer = some a
  mem_disconnect {t : T} {peer a : String} :
    a ∈ authorized (disconnect t peer) ↔ a ∈ authorized t ∧ canonicalAddress peer ≠ some a
  authorized_connected {t : T} : authorized (connected t).2 = authorized t
  authorized_publish {t : T} {sender data : String} :
    authorized (publish t sender data) = authorized t
  authorized_drain {t : T} : authorized (drain t).2 = authorized t
  authorized_addPeers {t : T} {addrs : List String} :
    authorized (addPeers t addrs).2 = authorized t
  authorized_seedAddrs {t : T} : authorized (seedAddrs t).2 = authorized t

export Authorizing (authorized)

section Folds

variable {T : Type} [Authorizing T]

theorem mem_authorized_foldl_disconnect {l : List String} (hl : ∀ x ∈ l, Canonical x) {t : T}
    {a : String} : a ∈ authorized (l.foldl disconnect t) ↔ a ∈ authorized t ∧ a ∉ l := by
  induction l generalizing t with
  | nil => simp
  | cons x l ih =>
    rw [List.foldl_cons, ih fun y hy => hl y (List.mem_cons_of_mem x hy), Authorizing.mem_disconnect,
      (hl x List.mem_cons_self).canonicalAddress, List.mem_cons, not_or, ne_eq, Option.some.injEq,
      eq_comm, and_assoc]

theorem mem_authorized_foldl_authorize {l : List String} (hl : ∀ x ∈ l, Canonical x) {t : T}
    {a : String} : a ∈ authorized (l.foldl authorize t) ↔ a ∈ authorized t ∨ a ∈ l := by
  induction l generalizing t with
  | nil => simp
  | cons x l ih =>
    rw [List.foldl_cons, ih fun y hy => hl y (List.mem_cons_of_mem x hy), Authorizing.mem_authorize,
      (hl x List.mem_cons_self).canonicalAddress, List.mem_cons, Option.some.injEq, or_assoc,
      eq_comm (a := x)]

end Folds

def noMesh : String :=
  "this node runs without the cross-machine mesh, so it has no address to share or dial"

/-- The single-node transport: connection bookkeeping and an inbox, no mesh. -/
structure InProcessTransport where
  connected : AddressSet
  inbox : List MeshMessage
  deriving Inhabited

namespace InProcessTransport

def new : InProcessTransport := ⟨∅, []⟩

def deliver (t : InProcessTransport) (sender data : String) : InProcessTransport :=
  { t with inbox := t.inbox ++ [⟨sender, data⟩] }

instance : MeshTransport InProcessTransport where
  dial t peer := { t with connected := t.connected.insert peer }
  disconnect t peer := { t with connected := t.connected.erase peer }
  connected t := (t.connected.toList, t)
  publish t _ _ := t
  drain t := (t.inbox, { t with inbox := [] })
  authorize t _ := t
  addPeers t _ := (.error noMesh, t)
  seedAddrs t := (.error noMesh, t)

end InProcessTransport

end CitrateCluster.Transport
