import CitrateCluster.Session
import CitrateCluster.EffectiveRoster
import CitrateCluster.Seed

namespace CitrateCluster.Daemon

open Std (ExtTreeMap ExtTreeSet)
open Text Roster Collections Device EffectiveRoster Transport Session Seed

def maxSharedFiles : Nat := 4096

def maxSharedFilesPage : Nat := 1024

def maxGroups : Nat := 32

/-- A signed link as it crosses the IPC. -/
structure DeviceLinkWire where
  member : String
  device : String
  wallet : String
  index : Nat
  label : String
  issuedAt : Nat
  memberSig : String
  deviceSig : String
  walletSig : String
  deriving DecidableEq, Repr

def DeviceLinkWire.toSigned (w : DeviceLinkWire) : SignedDeviceLink :=
  ⟨⟨w.member, w.device, w.wallet, w.index, w.label, w.issuedAt⟩, w.memberSig, w.deviceSig,
    w.walletSig⟩

structure RevocationWire where
  member : String
  device : String
  revokedAt : Nat
  memberSig : String
  deriving DecidableEq, Repr

def RevocationWire.toSigned (w : RevocationWire) : SignedRevocation :=
  ⟨⟨w.member, w.device, w.revokedAt⟩, w.memberSig⟩

structure DeviceViewWire where
  device : String
  index : Nat
  label : String
  issuedAt : Nat
  online : Bool
  deriving DecidableEq, Repr

structure MemberDevicesWire where
  member : String
  role : String
  online : Bool
  devices : List DeviceViewWire
  deriving DecidableEq, Repr

def MemberDevicesWire.fromCore (m : MemberDevices) (connected : AddressSet) : MemberDevicesWire where
  member := m.member
  role := m.role
  online := connected.contains m.member
  devices := m.devices.map fun d =>
    ⟨d.device, d.index, d.label, d.issuedAt, connected.contains d.device⟩

def describeRejection : LinkRejection → String
  | .malformed device => device ++ ": malformed link"
  | .badSignature device which => device ++ ": " ++ which ++ " signature does not verify"
  | .conflict device => device ++ ": conflicting links"
  | .revoked device => device ++ ": revoked"
  | .badRevocation device => device ++ ": revocation signature does not verify"
  | .tooMany => "too many links in one update"

structure PeerView where
  address : String
  online : Bool
  member : Option String
  deriving DecidableEq, Repr

/-- The member roster of a group, as the client sent it, and its verified links. -/
structure GroupDevices where
  roster : Entries
  registry : DeviceRegistry
  deriving Inhabited

/-- One daemon process: a session for each group, the co-pinned files of each group and the device
state of each group, which outlives the session. -/
structure ClusterDaemon (T : Type) where
  selfAddress : String
  makeTransport : String → Except String T
  singleGroup : Option String
  groups : ExtTreeMap String (ClusterSession T)
  sharedFiles : ExtTreeMap String (ExtTreeSet String)
  deviceState : ExtTreeMap String GroupDevices

variable {T : Type} [MeshTransport T]

namespace ClusterDaemon

def withFactory (selfAddress : String) (makeTransport : String → Except String T) :
    ClusterDaemon T where
  selfAddress := (canonicalAddress selfAddress).getD ""
  makeTransport := makeTransport
  singleGroup := none
  groups := ∅
  sharedFiles := ∅
  deviceState := ∅

def new (selfAddress : String) (makeTransport : T) : ClusterDaemon T :=
  withFactory selfAddress fun _ => .ok makeTransport

def withFactorySingleGroup (selfAddress : String) (makeTransport : String → Except String T)
    (group : String) : ClusterDaemon T :=
  { withFactory selfAddress makeTransport with singleGroup := some group }

def setSession (d : ClusterDaemon T) (group : String) (s : ClusterSession T) : ClusterDaemon T :=
  { d with groups := d.groups.insert group s }

def ensureGroupAllowed (d : ClusterDaemon T) (group : String) : Except String Unit :=
  match d.singleGroup with
  | some g =>
    if g ≠ group then
      .error ("this daemon serves only group " ++ debug g ++
        " (libp2p one-group-per-daemon, S1); refusing group " ++ debug group)
    else .ok ()
  | none => .ok ()

def syncAdmission (d : ClusterDaemon T) (group : String) : ClusterDaemon T :=
  match d.groups[group]? with
  | some s => d.setSession group s.syncAdmittedFromWire
  | none => d

/-- Past the cap a new file is dropped. -/
def keepShared (set : ExtTreeSet String) (m : MeshMessage) : ExtTreeSet String :=
  if set.size < maxSharedFiles then set.insert m.data else set

def drainIntoShared (d : ClusterDaemon T) (group : String) : List MeshMessage × ClusterDaemon T :=
  match d.groups[group]? with
  | none => ([], d)
  | some s =>
    let (inbox, transport) := drain s.transport
    let messages := inbox.filter fun m => isValidCid m.data
    let d := d.setSession group { s with transport }
    if messages.isEmpty then (messages, d)
    else
      let set := messages.foldl keepShared (d.sharedFiles[group]?.getD ∅)
      (messages, { d with sharedFiles := d.sharedFiles.insert group set })

/-- The session of a group, created with its transport on first use. -/
def ensureSession (d : ClusterDaemon T) (group : String) :
    Except String (ClusterSession T × ClusterDaemon T) :=
  match d.groups[group]? with
  | some s => .ok (s, d)
  | none =>
    if (trim group).isEmpty then .error "empty group id"
    else if d.groups.size ≥ maxGroups then
      .error ("this daemon already serves " ++ toString maxGroups ++ " groups; leave one first")
    else
      match d.makeTransport group with
      | .error e => .error ("starting the mesh for group " ++ debug group ++ ": " ++ e)
      | .ok transport =>
        let s := ClusterSession.new [] transport
        .ok (s, d.setSession group s)

def applyRoster (d : ClusterDaemon T) (group : String) (roster : Entries) :
    Except String (List String) × ClusterDaemon T :=
  match d.ensureSession group with
  | .error e => (.error e, d)
  | .ok (s, d) =>
    let (evicted, s) := s.applyRoster roster
    (.ok evicted, d.setSession group s)

def setRosterWithDevices (V : LinkVerifier) (d : ClusterDaemon T) (group : String)
    (roster : Entries) (links : List DeviceLinkWire) (revocations : List RevocationWire) :
    Except String (List String × List String) × ClusterDaemon T :=
  match d.ensureGroupAllowed group with
  | .error e => (.error e, d)
  | .ok () =>
    match d.ensureSession group with
    | .error e => (.error e, d)
    | .ok (_, d) =>
      let state := d.deviceState[group]?.getD default
      let (rejected, registry) := state.registry.update (links.map DeviceLinkWire.toSigned)
        (revocations.map RevocationWire.toSigned) V
      let d := { d with deviceState := d.deviceState.insert group ⟨roster, registry⟩ }
      let (evicted, d) := d.applyRoster group (effectiveRoster roster registry)
      (evicted.map fun e => (e, rejected.map describeRejection), d)

def setRoster (V : LinkVerifier) (d : ClusterDaemon T) (group : String) (roster : Entries) :
    Except String (List String) × ClusterDaemon T :=
  let (result, d) := d.setRosterWithDevices V group roster [] []
  (result.map (·.1), d)

def join (d : ClusterDaemon T) (group : String) : Except String Unit × ClusterDaemon T :=
  match d.ensureGroupAllowed group with
  | .error e => (.error e, d)
  | .ok () =>
    match d.ensureSession group with
    | .error e => (.error e, d)
    | .ok (_, d) => (.ok (), d)

def seed (d : ClusterDaemon T) (group : String) :
    Except String (String × List String) × ClusterDaemon T :=
  match d.groups[group]? with
  | none => (.error ("not in group " ++ group), d)
  | some s =>
    let (result, transport) := seedAddrs s.transport
    let d := d.setSession group { s with transport }
    match result with
    | .error e => (.error e, d)
    | .ok addrs =>
      if addrs.isEmpty then (.error "no shareable listen address yet; try again in a moment", d)
      else
        match GroupSeed.new group addrs with
        | .error e => (.error e.text, d)
        | .ok seed => (.ok (seed.encode, addrs), d)

def addSeed (d : ClusterDaemon T) (group seedText : String) :
    Except String Nat × ClusterDaemon T :=
  match GroupSeed.decode seedText with
  | .error e => (.error e.text, d)
  | .ok seed =>
    if seed.group ≠ group then (.error "the seed is for a different group", d)
    else
      match d.groups[group]? with
      | none => (.error ("not in group " ++ group), d)
      | some s =>
        let (result, transport) := addPeers s.transport seed.addrs
        (result, d.setSession group { s with transport })

def leave (d : ClusterDaemon T) (group : String) : ClusterDaemon T :=
  { d with groups := d.groups.erase group, sharedFiles := d.sharedFiles.erase group }

/-- The transport's connected peers. -/
def readConnected (d : ClusterDaemon T) (group : String) : List String × ClusterDaemon T :=
  match d.groups[group]? with
  | none => ([], d)
  | some s =>
    let (peers, transport) := connected s.transport
    (peers, d.setSession group { s with transport })

def status (d : ClusterDaemon T) (group : String) : (Nat × Nat × List String) × ClusterDaemon T :=
  let d := d.syncAdmission group
  let (_, d) := d.drainIntoShared group
  match d.groups[group]? with
  | some s =>
    let shared := ((d.sharedFiles[group]?).map (·.toList)).getD []
    let (peers, d) := d.readConnected group
    ((peers.length, s.membership.allowed.size, shared), d)
  | none => ((0, 0, []), d)

def peers (d : ClusterDaemon T) (group : String) : List PeerView × ClusterDaemon T :=
  let d := d.syncAdmission group
  match d.groups[group]? with
  | none => ([], d)
  | some s =>
    let registry := (d.deviceState[group]?).map (·.registry)
    let (peers, d) := d.readConnected group
    let connected : AddressSet := ExtTreeSet.ofList peers
    (s.membership.allowed.toList.map fun address =>
      ⟨address, connected.contains address, registry.bind (·.memberOf address)⟩, d)

def devices (d : ClusterDaemon T) (group : String) : List MemberDevicesWire × ClusterDaemon T :=
  let d := d.syncAdmission group
  match d.deviceState[group]? with
  | none => ([], d)
  | some state =>
    let (peers, d) := d.readConnected group
    let connected : AddressSet := ExtTreeSet.ofList peers
    ((deviceRoster state.roster state.registry).map (MemberDevicesWire.fromCore · connected), d)

def shareFile (d : ClusterDaemon T) (group cid : String) : Except String Unit × ClusterDaemon T :=
  match d.groups[group]? with
  | none => (.error ("not in group " ++ group), d)
  | some s =>
    if !isValidCid cid then (.error "not a well-formed CID", d)
    else
      let set := d.sharedFiles[group]?.getD ∅
      if !set.contains cid && set.size ≥ maxSharedFiles then
        (.error ("shared file set for " ++ group ++ " is full (" ++ toString maxSharedFiles ++
          " CIDs)"), d)
      else
        let d := d.setSession group { s with transport := publish s.transport d.selfAddress cid }
        (.ok (), { d with sharedFiles := d.sharedFiles.insert group (set.insert cid) })

def sharedFilesPage (d : ClusterDaemon T) (group : String) (offset limit : Nat) :
    (List String × Nat) × ClusterDaemon T :=
  let (_, d) := d.drainIntoShared group
  match d.sharedFiles[group]? with
  | none => (([], 0), d)
  | some set => (((set.toList.drop offset).take (min limit maxSharedFilesPage), set.size), d)

def poll (d : ClusterDaemon T) (group : String) : List MeshMessage × ClusterDaemon T :=
  (d.syncAdmission group).drainIntoShared group

/-- The hook for a peer that connected. -/
def admitPeer (d : ClusterDaemon T) (group address role : String) : Bool × ClusterDaemon T :=
  match d.ensureGroupAllowed group with
  | .error _ => (false, d)
  | .ok () =>
    match d.ensureSession group with
    | .error _ => (false, d)
    | .ok (s, d) =>
      let (admitted, s) := s.join address role
      (admitted, d.setSession group s)

/-- The hook for a peer that disconnected. -/
def dropPeer (d : ClusterDaemon T) (group address : String) : ClusterDaemon T :=
  match d.groups[group]? with
  | some s => d.setSession group (s.leave address)
  | none => d

end ClusterDaemon

end CitrateCluster.Daemon
