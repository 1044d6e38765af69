import CitrateCluster.Seed

namespace CitrateCluster.PeerAddrs

open Text Seed

/-- The bytes of a peer's identity, as text. -/
abbrev PeerId := String

/-- One component of a multiaddr: the peer it names, or any other protocol as text. -/
inductive Protocol where
  | p2p (id : PeerId)
  | other (text : String)
  deriving DecidableEq, Repr

abbrev Multiaddr := List Protocol

/-- The peer a multiaddr names: the first `/p2p/` component in it. -/
def bootstrapPeerId (addr : Multiaddr) : Option PeerId :=
  addr.findSome? fun
    | .p2p id => some id
    | .other _ => none

/-- Check one seeded address; `i` is its position, `parse` is the multiaddr parser of libp2p. -/
def parsePeerAddr (parse : String → Option Multiaddr) (local_ : PeerId) (i : Nat) (a : String) :
    Except String Multiaddr :=
  match parse (trim a) with
  | none => .error ("peer address " ++ toString (i + 1) ++ " is not a multiaddr")
  | some ma =>
    match bootstrapPeerId ma with
    | none => .error ("peer address " ++ toString (i + 1) ++ " names no /p2p/ peer")
    | some p =>
      if p = local_ then .error ("peer address " ++ toString (i + 1) ++ " is this node")
      else .ok ma

/-- All addresses or none, with the reason of the first one refused. -/
def parsePeerAddrs (parse : String → Option Multiaddr) (local_ : PeerId) (addrs : List String) :
    Except String (List Multiaddr) :=
  if addrs.isEmpty || addrs.length > maxSeedAddrs then
    .error ("between 1 and " ++ toString maxSeedAddrs ++ " peer addresses, got " ++
      toString addrs.length)
  else addrs.zipIdx.mapM fun (a, i) => parsePeerAddr parse local_ i a

end CitrateCluster.PeerAddrs
