import CitrateCluster.Runs
import CitrateCluster.Daemon

namespace CitrateCluster.Ipc

open Std (ExtTreeMap ExtTreeSet)
open Runs Roster Collections Device EffectiveRoster Transport Session Daemon ClusterDaemon

inductive Request where
  | setRoster (group : String) (roster : Entries) (devices : List DeviceLinkWire)
      (revocations : List RevocationWire)
  | devices (group : String)
  | join (group : String)
  | leave (group : String)
  | status (group : String)
  | peers (group : String)
  | shareFile (group cid : String)
  | poll (group : String)
  | sharedFiles (group : String) (offset : Nat) (limit : Option Nat)
  | seed (group : String)
  | addSeed (group seed : String)
  deriving DecidableEq, Repr

inductive Response where
  | ok
  | reconciled (evicted rejected : List String)
  | devices (members : List MemberDevicesWire)
  | status (online total : Nat) (sharedFiles : List String)
  | peers (peers : List PeerView)
  | messages (messages : List MeshMessage)
  | sharedFiles (files : List String) (offset total : Nat)
  | seed (seed : String) (addrs : List String)
  | seeded (dialing : Nat)
  | error (message : String)
  deriving DecidableEq, Repr

def Request.group : Request → String
  | setRoster group _ _ _ | devices group | join group | leave group | status group | peers group
  | shareFile group _ | poll group | sharedFiles group _ _ | seed group | addSeed group _ => group

variable {T : Type} [MeshTransport T]

def handleRequest (V : LinkVerifier) (d : ClusterDaemon T) : Request → Response × ClusterDaemon T
  | .setRoster group roster devices revocations =>
    match d.setRosterWithDevices V group roster devices revocations with
    | (.ok (evicted, rejected), d) => (.reconciled evicted rejected, d)
    | (.error e, d) => (.error e, d)
  | .devices group =>
    let (members, d) := d.devices group
    (.devices members, d)
  | .join group =>
    match d.join group with
    | (.ok (), d) => (.ok, d)
    | (.error e, d) => (.error e, d)
  | .leave group => (.ok, d.leave group)
  | .status group =>
    let ((online, total, sharedFiles), d) := d.status group
    (.status online total sharedFiles, d)
  | .peers group =>
    let (peers, d) := d.peers group
    (.peers peers, d)
  | .shareFile group cid =>
    match d.shareFile group cid with
    | (.ok (), d) => (.ok, d)
    | (.error e, d) => (.error e, d)
  | .poll group =>
    let (messages, d) := d.poll group
    (.messages messages, d)
  | .sharedFiles group offset limit =>
    let ((files, total), d) := d.sharedFilesPage group offset (limit.getD maxSharedFilesPage)
    (.sharedFiles files offset total, d)
  | .seed group =>
    match d.seed group with
    | (.ok (seed, addrs), d) => (.seed seed addrs, d)
    | (.error e, d) => (.error e, d)
  | .addSeed group seed =>
    match d.addSeed group seed with
    | (.ok dialing, d) => (.seeded dialing, d)
    | (.error e, d) => (.error e, d)

/-- What may happen to a daemon: a request, a connection hook, and what its environment does
between two of them, which is to change a transport or the factory. -/
inductive Event (T : Type) where
  | request (r : Request)
  | admitPeer (group address role : String)
  | dropPeer (group address : String)
  | transport (group : String) (f : T → T)
  | factory (makeTransport : String → Except String T)

def step (V : LinkVerifier) (d : ClusterDaemon T) : Event T → ClusterDaemon T
  | .request r => (handleRequest V d r).2
  | .admitPeer group address role => (d.admitPeer group address role).2
  | .dropPeer group address => d.dropPeer group address
  | .transport group f =>
    match d.groups[group]? with
    | some s => d.setSession group { s with transport := f s.transport }
    | none => d
  | .factory makeTransport => { d with makeTransport }

omit [MeshTransport T]

/-- A daemon that has not served a group yet. -/
structure Initial (d : ClusterDaemon T) : Prop where
  groups : d.groups = ∅
  sharedFiles : d.sharedFiles = ∅
  deviceState : d.deviceState = ∅

theorem initial_withFactory (selfAddress : String) (makeTransport : String → Except String T) :
    Initial (withFactory selfAddress makeTransport) := ⟨rfl, rfl, rfl⟩

theorem initial_withFactorySingleGroup (selfAddress : String)
    (makeTransport : String → Except String T) (group : String) :
    Initial (withFactorySingleGroup selfAddress makeTransport group) := ⟨rfl, rfl, rfl⟩

end CitrateCluster.Ipc
