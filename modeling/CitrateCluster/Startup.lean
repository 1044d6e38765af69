import CitrateCluster.Bounds
import CitrateCluster.Hex
import CitrateCluster.MeshRun

namespace CitrateCluster.Startup

open Std (ExtTreeMap)
open Text Runs Roster Device Transport PeerAddrs Session Daemon ClusterDaemon Ipc SwarmLoop
  SwarmSurface MeshRun Authorization DaemonStep StateWrites Bounds

section Fallible

variable {ε ε' α β : Type}

def okOr (o : Option α) (e : ε) : Except ε α := o.elim (.error e) .ok

def refuseIf (c : Prop) [Decidable c] (e : ε) : Except ε Unit := if c then .error e else .ok ()

theorem bind_eq_ok_iff {x : Except ε α} {f : α → Except ε β} {b : β} :
    x >>= f = .ok b ↔ ∃ a, x = .ok a ∧ f a = .ok b := by
  cases x <;> simp [bind, Except.bind]

theorem mapError_eq_ok_iff {x : Except ε α} {f : ε → ε'} {a : α} :
    x.mapError f = .ok a ↔ x = .ok a := by
  cases x <;> simp [Except.mapError]

theorem okOr_eq_ok_iff {o : Option α} {e : ε} {a : α} : okOr o e = .ok a ↔ o = some a := by
  cases o <;> simp [okOr]

theorem refuseIf_eq_ok_iff {c : Prop} [Decidable c] {e : ε} {u : Unit} :
    refuseIf c e = .ok u ↔ ¬ c := by
  rw [refuseIf]
  split <;> simp_all

end Fallible

structure Metadata where
  isFile : Bool
  mode : Nat
  uid : Nat
  deriving DecidableEq, Repr

/-- An open file: what it is, and at most so many of its bytes. -/
structure OpenFile where
  metadata : Except String Metadata
  take : Nat → Except String (List UInt8)

/-- What the process finds around it: variables, files opened without following links, its user, and
what libp2p makes of a secret and of texts. -/
structure System (Key : Type) where
  env : String → Option String
  openFile : String → Except String OpenFile
  euid : Nat
  libp2p : Libp2p Key
  publicKeyOf : Vector UInt8 32 → Except String Key
  parseMultiaddr : String → Except String Multiaddr
  showMultiaddr : Multiaddr → String
  tcpPort : Protocol → Option Nat
  tcp : Nat → Protocol
  keccak256 : List UInt8 → Vector UInt8 32
  mdnsBuiltIn : Bool
  runtime : Except String Unit

section Files

variable {Key : Type} (Y : System Key)

def maxSecretFile : Nat := 4096

/-- The `{:04o}` form of a mode. -/
def octal (mode : Nat) : String :=
  let digits := Nat.toDigits 8 mode
  String.ofList (List.replicate (4 - digits.length) '0' ++ digits)

def readCapped (f : OpenFile) (path : String) : Except String String := do
  let buf ← (f.take (maxSecretFile + 1)).mapError ("reading secret file " ++ path ++ ": " ++ ·)
  refuseIf (buf.length > maxSecretFile)
    ("secret file " ++ path ++ " exceeds " ++ toString maxSecretFile ++ " bytes — fail closed")
  okOr (fromUtf8 buf) ("secret file " ++ path ++ " is not UTF-8")

/-- Read a secret file, if it is a regular one that nobody else can access. -/
def readSecretFile (path : String) : Except String String := do
  let f ← (Y.openFile path).mapError fun e =>
    "open secret file " ++ path ++ ": " ++ e ++ " (symlinks are refused)"
  let md ← f.metadata.mapError ("stat secret file " ++ path ++ ": " ++ ·)
  refuseIf (!md.isFile) ("secret file " ++ path ++ " is not a regular file — fail closed")
  let mode := md.mode &&& 0o777
  refuseIf (mode &&& 0o077 ≠ 0) ("secret file " ++ path ++
    " is group/world-accessible (mode " ++ octal mode ++ "); it must be 0600 — fail closed")
  refuseIf (md.uid ≠ Y.euid) ("secret file " ++ path ++ " is owned by uid " ++ toString md.uid ++
    " not the daemon's uid " ++ toString Y.euid ++ " — fail closed")
  readCapped f path

end Files

section Config

variable {Key : Type} (Y : System Key)

/-- The node-wide settings. -/
structure NodeConfig where
  secret : Vector UInt8 32
  listen : Multiaddr
  pinnedGroup : Option String
  bootstrap : List Multiaddr
  mdns : Bool

def noMdnsBuild : String :=
  "this cluster-daemon was built without mDNS (cargo feature `mdns`); unset CITRATE_CLUSTER_MDNS"

/-- Unset or empty is off, and a value that is neither on nor off is refused. -/
def parseFlag (v : Option String) : Except String Bool :=
  match v.map fun s => String.ofList ((trim s).toList.map toAsciiLowercase) with
  | none => .ok false
  | some s =>
    if s ∈ ["", "0", "false", "off"] then .ok false
    else if s ∈ ["1", "true", "on"] then .ok true
    else .error ("CITRATE_CLUSTER_MDNS must be 1 or 0, got " ++ debug s)

def toVector (n : Nat) (bs : List UInt8) : Option (Vector UInt8 n) :=
  if h : bs.length = n then some ⟨bs.toArray, h⟩ else none

theorem toVector_eq_some_iff {n : Nat} {bs : List UInt8} {v : Vector UInt8 n} :
    toVector n bs = some v ↔ bs = v.toList := by
  rw [toVector]
  split
  · rw [Option.some.injEq, ← Vector.toList_inj, Vector.toList_mk]
  · next h =>
    apply iff_of_false (by simp)
    rintro rfl
    exact h v.length_toList

/-- The 32 bytes that a seed file holds. -/
def parseSeed (text : String) : Except String (Vector UInt8 32) := do
  let bs ← okOr (Hex.decode (trim text).toList) "seed must be hex"
  okOr (toVector 32 bs) "seed must be 32 bytes"

def parseBootstrap (list : Option String) : Except String (List Multiaddr) :=
  match list with
  | none => .ok []
  | some list =>
    if (trim list).isEmpty then .ok []
    else ((list.toList.splitOn ',').map String.ofList).mapM fun s =>
      match Y.parseMultiaddr (trim s) with
      | .ok addr => .ok addr
      | .error e => .error ("bad bootstrap multiaddr " ++ debug s ++ ": " ++ e)

def required (key : String) : Except String String := okOr (Y.env key) (key ++ " is required")

namespace NodeConfig

def fromEnv : Except String NodeConfig := do
  let seedFile ← okOr ((Y.env "CITRATE_CLUSTER_SEED_FILE").filter fun p => !p.isEmpty)
    "CITRATE_CLUSTER_SEED_FILE is required for the libp2p transport"
  let seedHex ← readSecretFile Y seedFile
  refuseIf (trim seedHex).isEmpty "seed file is empty (fail closed)"
  let secret ← parseSeed seedHex
  let listen ← required Y "CITRATE_CLUSTER_LISTEN"
  let listen ← (Y.parseMultiaddr listen).mapError
    ("CITRATE_CLUSTER_LISTEN is not a multiaddr: " ++ ·)
  let pinnedGroup := Y.env "CITRATE_CLUSTER_GROUP"
  refuseIf (pinnedGroup.any fun g => (trim g).isEmpty) "CITRATE_CLUSTER_GROUP is empty"
  let bootstrap ← parseBootstrap Y (Y.env "CITRATE_CLUSTER_BOOTSTRAP")
  let mdns ← parseFlag (Y.env "CITRATE_CLUSTER_MDNS")
  refuseIf (mdns && !Y.mdnsBuiltIn) noMdnsBuild
  return { secret, listen, pinnedGroup, bootstrap, mdns }

end NodeConfig

end Config

section Swarms

variable {Key : Type} (Y : System Key)

inductive TransportError where
  | badSecret (e : String)
  | selfAddress
  | runtime (e : String)
  | build (e : String)
  | subscribe (e : String)
  | listen (addr : Multiaddr) (reason : String)
  | closed

def TransportError.text : TransportError → String
  | .badSecret e => "invalid secp256k1 secret: " ++ e
  | .selfAddress => "could not derive this node's address from its key"
  | .runtime e => "tokio runtime: " ++ e
  | .build e => "swarm build: " ++ e
  | .subscribe e => "subscribe to group topic: " ++ e
  | .listen addr reason => "listen on " ++ Y.showMultiaddr addr ++ ": " ++ reason
  | .closed => "swarm task is gone"

/-- The address and the peer that a secret stands for. -/
def identityFromSecret (secret : Vector UInt8 32) : Except TransportError (String × PeerId) := do
  let key ← (Y.publicKeyOf secret).mapError .badSecret
  let address ← okOr (Y.libp2p.addressFromPublicKey key) .selfAddress
  return (address, Y.libp2p.toPeerId key)

def groupPortSpan : Nat := 1024

/-- A fixed port moves by an offset that the group's name hashes to; past the last port it becomes
ephemeral. -/
def groupListen (base : Multiaddr) (group : String) : Multiaddr :=
  base.map fun p =>
    match Y.tcpPort p with
    | none => p
    | some 0 => Y.tcp 0
    | some port =>
      let h := Y.keccak256 (bytes group)
      let off := (256 * h[0].toNat + h[1].toNat) % groupPortSpan
      Y.tcp (if port + off ≤ 65535 then port + off else 0)

def ephemeral (addr : Multiaddr) : Multiaddr :=
  addr.map fun p => if (Y.tcpPort p).isSome then Y.tcp 0 else p

structure Libp2pConfig where
  secret : Vector UInt8 32
  listen : Multiaddr
  groupId : String
  bootstrap : List Multiaddr
  mdns : Bool

/-- What the machine answers a swarm that starts. -/
structure Sockets where
  build : Libp2pConfig → Except String Unit
  subscribe : String → Except String Unit
  listen : Multiaddr → Except String Unit

/-- A group's mesh, and the settings it was started with. -/
structure Swarm (I : Libp2p Key) where
  config : Libp2pConfig
  mesh : Libp2pTransport I

instance {I : Libp2p Key} : MeshTransport (Swarm I) where
  dial t peer := { t with mesh := dial t.mesh peer }
  disconnect t peer := { t with mesh := disconnect t.mesh peer }
  connected t := ((connected t.mesh).1, { t with mesh := (connected t.mesh).2 })
  publish t sender data := { t with mesh := publish t.mesh sender data }
  drain t := ((drain t.mesh).1, { t with mesh := (drain t.mesh).2 })
  authorize t addr := { t with mesh := authorize t.mesh addr }
  addPeers t addrs := ((addPeers t.mesh addrs).1, { t with mesh := (addPeers t.mesh addrs).2 })
  seedAddrs t := ((seedAddrs t.mesh).1, { t with mesh := (seedAddrs t.mesh).2 })

def newOn (N : Sockets) (cfg : Libp2pConfig) : Except TransportError (Swarm Y.libp2p) := do
  refuseIf (cfg.mdns && !Y.mdnsBuiltIn) (.build noMdnsBuild)
  let (_, localPeer) ← identityFromSecret Y cfg.secret
  (N.build cfg).mapError .build
  (N.subscribe cfg.groupId).mapError .subscribe
  (N.listen cfg.listen).mapError (.listen cfg.listen)
  return ⟨cfg, ⟨.new cfg.groupId localPeer⟩⟩

/-- Start a group's swarm. Only the pinned group has the configured address and bootstrap list. -/
def transportFor (N : Sockets) (node : NodeConfig) (group : String) :
    Except String (Swarm Y.libp2p) :=
  if (trim group).isEmpty then .error "empty group id"
  else
    let pinned := node.pinnedGroup = some group
    let listen := if pinned then node.listen else groupListen Y node.listen group
    let bootstrap := if pinned then node.bootstrap else []
    let cfg := fun listen => Libp2pConfig.mk node.secret listen group bootstrap node.mdns
    match newOn Y N (cfg listen) with
    | .ok t => .ok t
    | .error (.listen addr reason) =>
      if pinned then .error ((TransportError.listen addr reason).text Y)
      else (newOn Y N (cfg (ephemeral Y listen))).mapError (·.text Y)
    | .error e => .error (e.text Y)

end Swarms

section Main

variable {Key : Type} (Y : System Key)

/-- A daemon on either transport. -/
inductive Daemon (I : Libp2p Key) where
  | mesh (d : ClusterDaemon (Swarm I))
  | inProcess (d : ClusterDaemon InProcessTransport)

/-- What the server is started with. -/
structure Served (I : Libp2p Key) where
  socket : String
  bearer : String
  daemon : Daemon I

/-- A daemon whose factory starts every group's swarm under one identity. -/
def meshDaemon (N : Sockets) (selfAddr : String) (node : NodeConfig) :
    ClusterDaemon (Swarm Y.libp2p) :=
  match node.pinnedGroup with
  | some group => .withFactorySingleGroup selfAddr (transportFor Y N node) group
  | none => .withFactory selfAddr (transportFor Y N node)

/-- The daemon on libp2p, if the configuration is for the address it is told is its own. -/
def startMesh (N : Sockets) (selfAddr want : String) : Except String (Daemon Y.libp2p) := do
  let node ← (NodeConfig.fromEnv Y).mapError ("libp2p transport config: " ++ ·)
  let (derived, _) ← (identityFromSecret Y node.secret).mapError fun e =>
    "deriving identity from the seed: " ++ e.text Y
  refuseIf (derived ≠ want) ("CITRATE_CLUSTER_SELF_ADDR (" ++ want ++
    ") does not match the address derived from the seed file (" ++ derived ++ ") — fail closed")
  Y.runtime.mapError fun e => "libp2p runtime: " ++ (TransportError.runtime e).text Y
  return .mesh (meshDaemon Y N selfAddr node)

/-- With `--print-identity` the process reports its identity and starts nothing. -/
def printIdentity : Except String (String × PeerId) := do
  let seedFile ← required Y "CITRATE_CLUSTER_SEED_FILE"
  let secret ← parseSeed (← readSecretFile Y seedFile)
  (identityFromSecret Y secret).mapError (·.text Y)

def main (N : Sockets) : Except String (Served Y.libp2p) := do
  let socket ← required Y "CITRATE_CLUSTER_SOCKET"
  let bearerFile ← required Y "CITRATE_CLUSTER_BEARER_FILE"
  let bearer := trim (← readSecretFile Y bearerFile)
  refuseIf bearer.isEmpty "bearer file is empty (fail closed)"
  let selfAddr ← required Y "CITRATE_CLUSTER_SELF_ADDR"
  let want ← okOr (canonicalAddress selfAddr)
    "CITRATE_CLUSTER_SELF_ADDR is not a 20-byte hex address"
  if (Y.env "CITRATE_CLUSTER_LISTEN").isSome then
    return ⟨socket, bearer, ← startMesh Y N selfAddr want⟩
  else return ⟨socket, bearer, .inProcess (.new selfAddr .new)⟩

end Main

section Checks

variable {Key : Type} {Y : System Key} {N : Sockets} {node : NodeConfig} {path text : String}

/-- A regular file of the daemon's own user, closed to everybody else and not too long. -/
def PrivateFile (Y : System Key) (path text : String) : Prop :=
  ∃ f md buf, Y.openFile path = .ok f ∧ f.metadata = .ok md ∧ md.isFile = true ∧
    md.mode &&& 0o077 = 0 ∧ md.uid = Y.euid ∧ f.take (maxSecretFile + 1) = .ok buf ∧
      buf.length ≤ maxSecretFile ∧ fromUtf8 buf = some text

theorem readSecretFile_ok_iff : readSecretFile Y path = .ok text ↔ PrivateFile Y path text := by
  have hmode : ∀ mode : Nat, mode &&& 0o777 &&& 0o077 = mode &&& 0o077 := fun mode =>
    Nat.and_assoc mode 0o777 0o077
  simp [readSecretFile, readCapped, PrivateFile, bind_eq_ok_iff, mapError_eq_ok_iff,
    refuseIf_eq_ok_iff, okOr_eq_ok_iff, hmode]

theorem parseSeed_ok_iff {secret : Vector UInt8 32} :
    parseSeed text = .ok secret ↔ Hex.decode (trim text).toList = some secret.toList := by
  simp only [parseSeed, bind_eq_ok_iff, okOr_eq_ok_iff, toVector_eq_some_iff, exists_eq_right]

/-- The settings that the environment spells. -/
structure Configured (Y : System Key) (node : NodeConfig) : Prop where
  seed : ∃ path text, Y.env "CITRATE_CLUSTER_SEED_FILE" = some path ∧ path.isEmpty = false ∧
    PrivateFile Y path text ∧ Hex.decode (trim text).toList = some node.secret.toList
  listen : ∃ text, Y.env "CITRATE_CLUSTER_LISTEN" = some text ∧
    Y.parseMultiaddr text = .ok node.listen
  pinnedGroup : Y.env "CITRATE_CLUSTER_GROUP" = node.pinnedGroup
  named : ∀ g, node.pinnedGroup = some g → (trim g).isEmpty = false
  bootstrap : parseBootstrap Y (Y.env "CITRATE_CLUSTER_BOOTSTRAP") = .ok node.bootstrap
  mdns : parseFlag (Y.env "CITRATE_CLUSTER_MDNS") = .ok node.mdns
  mdnsBuiltIn : node.mdns = true → Y.mdnsBuiltIn = true

theorem trim_ne_of_decode {bs : List UInt8} (h : Hex.decode (trim text).toList = some bs)
    (hbs : bs ≠ []) : ¬ (trim text).isEmpty = true := by
  intro he
  rw [String.isEmpty_iff.mp he] at h
  apply hbs
  simpa [Hex.decode, eq_comm] using h

theorem fromEnv_ok_iff : NodeConfig.fromEnv Y = .ok node ↔ Configured Y node := by
  have hany : ∀ o : Option String, ¬ (o.any fun g => (trim g).isEmpty) = true ↔
      ∀ g, o = some g → (trim g).isEmpty = false := by
    intro o
    cases o <;> simp
  simp only [NodeConfig.fromEnv, required, bind_eq_ok_iff, mapError_eq_ok_iff, refuseIf_eq_ok_iff,
    okOr_eq_ok_iff, parseSeed_ok_iff, readSecretFile_ok_iff, Option.filter_eq_some_iff, pure,
    Except.pure, Except.ok.injEq, hany]
  constructor
  · rintro ⟨path, ⟨hpath, hne⟩, text, hfile, _, _, secret, hsecret, ltext, hl, listen, hlisten, _,
      hnamed, bootstrap, hbootstrap, mdns, hmdns, _, hbuilt, rfl⟩
    refine ⟨⟨path, text, hpath, by simpa using hne, hfile, hsecret⟩, ⟨ltext, hl, hlisten⟩, rfl,
      hnamed, hbootstrap, hmdns, ?_⟩
    simpa using hbuilt
  · intro h
    obtain ⟨path, text, hpath, hne, hfile, hsecret⟩ := h.seed
    obtain ⟨ltext, hl, hlisten⟩ := h.listen
    have htrim := trim_ne_of_decode hsecret (by simp)
    refine ⟨path, ⟨hpath, by simpa using hne⟩, text, hfile, (), htrim, node.secret, hsecret, ltext,
      hl, node.listen, hlisten, (), ?_, node.bootstrap, h.bootstrap, node.mdns, h.mdns, (), ?_, ?_⟩
    · rw [h.pinnedGroup]
      exact h.named
    · simpa using h.mdnsBuiltIn
    · rw [h.pinnedGroup]

theorem identityFromSecret_ok_iff {secret : Vector UInt8 32} {address : String} {peer : PeerId} :
    identityFromSecret Y secret = .ok (address, peer) ↔ ∃ key, Y.publicKeyOf secret = .ok key ∧
      Y.libp2p.addressFromPublicKey key = some address ∧ Y.libp2p.toPeerId key = peer := by
  simp only [identityFromSecret, bind_eq_ok_iff, mapError_eq_ok_iff, okOr_eq_ok_iff, pure,
    Except.pure, Except.ok.injEq, Prod.mk.injEq]
  constructor
  · rintro ⟨key, hkey, a, ha, rfl, hp⟩
    exact ⟨key, hkey, ha, hp⟩
  · rintro ⟨key, hkey, ha, hp⟩
    exact ⟨key, hkey, address, ha, rfl, hp⟩

theorem startMesh_ok_iff {selfAddr want : String} {D : Daemon Y.libp2p} :
    startMesh Y N selfAddr want = .ok D ↔ ∃ node peer, Configured Y node ∧
      identityFromSecret Y node.secret = .ok (want, peer) ∧ Y.runtime = .ok () ∧
        D = .mesh (meshDaemon Y N selfAddr node) := by
  simp only [startMesh, bind_eq_ok_iff, mapError_eq_ok_iff, refuseIf_eq_ok_iff, fromEnv_ok_iff, pure,
    Except.pure, Except.ok.injEq]
  constructor
  · rintro ⟨node, hnode, ⟨derived, peer⟩, hid, _, hwant, _, hrt, rfl⟩
    obtain rfl : derived = want := not_not.mp hwant
    exact ⟨node, peer, hnode, hid, hrt, rfl⟩
  · rintro ⟨node, peer, hnode, hid, hrt, rfl⟩
    exact ⟨node, hnode, (want, peer), hid, (), not_not.mpr rfl, (), hrt, rfl⟩

/-- The process starts a daemon on libp2p exactly when it is told its socket, both of its secret
files are its own and closed to everybody else, the bearer is not blank, every setting reads, the
swarm runtime starts, and the address it is told is its own is the one that its seed spells. -/
theorem main_starts_mesh_iff {socket bearer : String} {d : ClusterDaemon (Swarm Y.libp2p)} :
    main Y N = .ok ⟨socket, bearer, .mesh d⟩ ↔
      Y.env "CITRATE_CLUSTER_SOCKET" = some socket ∧
      (∃ file text, Y.env "CITRATE_CLUSTER_BEARER_FILE" = some file ∧ PrivateFile Y file text ∧
        trim text = bearer ∧ bearer.isEmpty = false) ∧
      ∃ selfAddr a node peer, Y.env "CITRATE_CLUSTER_SELF_ADDR" = some selfAddr ∧
        canonicalAddress selfAddr = some a ∧ Configured Y node ∧
          identityFromSecret Y node.secret = .ok (a, peer) ∧ Y.runtime = .ok () ∧
            d = meshDaemon Y N selfAddr node := by
  simp only [main, required, bind_eq_ok_iff, okOr_eq_ok_iff, refuseIf_eq_ok_iff,
    readSecretFile_ok_iff]
  constructor
  · rintro ⟨_, hsocket, file, hfile, text, hp, _, hne, selfAddr, hself, a, ha, h⟩
    split at h
    · obtain ⟨D, hD, hs⟩ := bind_eq_ok_iff.mp h
      cases hs
      obtain ⟨node, peer, hnode, hid, hrt, hd⟩ := startMesh_ok_iff.mp hD
      cases hd
      exact ⟨hsocket, ⟨file, text, hfile, hp, rfl, by simpa using hne⟩, selfAddr, a, node, peer,
        hself, ha, hnode, hid, hrt, rfl⟩
    · cases h
  · rintro ⟨hsocket, ⟨file, text, hfile, hp, rfl, hne⟩, selfAddr, a, node, peer, hself, ha, hnode,
      hid, hrt, rfl⟩
    obtain ⟨ltext, hl, _⟩ := hnode.listen
    refine ⟨socket, hsocket, file, hfile, text, hp, (), by simpa using hne, selfAddr, hself, a, ha,
      ?_⟩
    rw [hl, if_pos Option.isSome_some, startMesh_ok_iff.mpr ⟨node, peer, hnode, hid, hrt, rfl⟩]
    rfl

end Checks

section Names

variable {Key : Type} {I : Libp2p Key}

/-- A mesh goes on being for its group, and the peer that it is to the others. -/
theorem named_of_surfaceRun {w : Wire} {g : String} {peer : PeerId}
    (h : SurfaceRun I (.new g peer) w) : w.topic = g ∧ w.localPeer = peer := by
  obtain ⟨hs, _⟩ := h
  refine hs.invariant (I := fun w => w.topic = g ∧ w.localPeer = peer) ?_ ⟨rfl, rfl⟩
  rintro w e w' ⟨htopic, hlocal⟩ hstep
  obtain ⟨htopic', hlocal'⟩ := SwarmSafety.name_of_step hstep
  exact ⟨htopic'.trans htopic, hlocal'.trans hlocal⟩

/-- What a call may do to a swarm: its mesh is driven on, under the settings it was started with. -/
def Driven (t t' : Swarm I) : Prop := t'.config = t.config ∧ Called t.mesh t'.mesh

theorem keptByCalls_driven : KeptByCalls (Driven (I := I)) where
  refl t := ⟨rfl, keptByCalls_called.refl t.mesh⟩
  trans h h' := ⟨h'.1.trans h.1, keptByCalls_called.trans h.2 h'.2⟩
  authorize t a := ⟨rfl, keptByCalls_called.authorize t.mesh a⟩
  disconnect t a := ⟨rfl, keptByCalls_called.disconnect t.mesh a⟩
  connected t := ⟨rfl, keptByCalls_called.connected t.mesh⟩
  publish t sender data := ⟨rfl, keptByCalls_called.publish t.mesh sender data⟩
  drain t := ⟨rfl, keptByCalls_called.drain t.mesh⟩
  addPeers t addrs := ⟨rfl, keptByCalls_called.addPeers t.mesh addrs⟩
  seedAddrs t := ⟨rfl, keptByCalls_called.seedAddrs t.mesh⟩

end Names

section Runs

variable {Key : Type} {Y : System Key} {N : Sockets} {node : NodeConfig} {V : LinkVerifier}
  {g a : String} {peer : PeerId} {t t' : Swarm Y.libp2p} {d d' : ClusterDaemon (Swarm Y.libp2p)}

theorem newOn_ok {cfg : Libp2pConfig} {s : Swarm Y.libp2p}
    (hid : identityFromSecret Y cfg.secret = .ok (a, peer)) (h : newOn Y N cfg = .ok s) :
    s.config = cfg ∧ s.mesh.wire = .new cfg.groupId peer := by
  simp only [newOn, bind_eq_ok_iff, hid, Except.ok.injEq] at h
  obtain ⟨_, _, _, rfl, _, _, _, _, _, _, h⟩ := h
  cases h
  exact ⟨rfl, rfl⟩

/-- The settings of a group's swarm: its own topic, the node's identity, and the configured address
and bootstrap list for the pinned group alone. -/
structure ConfiguredFor (Y : System Key) (node : NodeConfig) (g : String) (cfg : Libp2pConfig) :
    Prop where
  secret : cfg.secret = node.secret
  groupId : cfg.groupId = g
  mdns : cfg.mdns = node.mdns
  pinned : node.pinnedGroup = some g → cfg.listen = node.listen ∧ cfg.bootstrap = node.bootstrap
  other : node.pinnedGroup ≠ some g → cfg.bootstrap = [] ∧
    (cfg.listen = groupListen Y node.listen g ∨
      cfg.listen = ephemeral Y (groupListen Y node.listen g))

theorem transportFor_ok {s : Swarm Y.libp2p}
    (hid : identityFromSecret Y node.secret = .ok (a, peer)) (h : transportFor Y N node g = .ok s) :
    ConfiguredFor Y node g s.config ∧ s.mesh.wire = .new g peer := by
  rw [transportFor] at h
  split at h
  · cases h
  · dsimp only at h
    split at h
    · next s' hs =>
      cases h
      obtain ⟨hcfg, hw⟩ := newOn_ok (by exact hid) hs
      refine ⟨?_, hw⟩
      rw [hcfg]
      exact ⟨rfl, rfl, rfl, fun hpin => ⟨if_pos hpin, if_pos hpin⟩,
        fun hpin => ⟨if_neg hpin, .inl (if_neg hpin)⟩⟩
    · split at h
      · cases h
      · next hpin =>
        obtain ⟨hcfg, hw⟩ := newOn_ok (by exact hid) (mapError_eq_ok_iff.mp h)
        refine ⟨?_, hw⟩
        rw [hcfg]
        exact ⟨rfl, rfl, rfl, fun h => absurd h hpin, fun _ => ⟨rfl, .inr rfl⟩⟩
    · cases h

/-- The daemon's next event: a request, work of a swarm, or other answers of the machine. -/
def Serving (Y : System Key) (_ : ClusterDaemon (Swarm Y.libp2p)) :
    Event (Swarm Y.libp2p) → Prop
  | .request _ => True
  | .transport _ f => ∀ t, (f t).config = t.config ∧ TaskRun Y.libp2p t.mesh.wire (f t).mesh.wire
  | .factory makeTransport =>
    ∃ N node, NodeConfig.fromEnv Y = .ok node ∧ makeTransport = transportFor Y N node
  | .admitPeer _ _ _ | .dropPeer _ _ => False

/-- What the machine has answered with: as at the start, or as an event has brought it. -/
def Answered (Y : System Key) (N : Sockets) (node : NodeConfig)
    (es : List (Event (Swarm Y.libp2p))) (N' : Sockets) : Prop :=
  N' = N ∨ .factory (transportFor Y N' node) ∈ es

/-- A swarm that was started for a group, with the settings that it has, and driven on since. -/
def StartedFor (Y : System Key) (N : Sockets) (node : NodeConfig)
    (es : List (Event (Swarm Y.libp2p))) (g : String) (t : Swarm Y.libp2p) : Prop :=
  ∃ N' mesh, Answered Y N node es N' ∧ transportFor Y N' node g = .ok ⟨t.config, mesh⟩ ∧
    SurfaceRun Y.libp2p mesh.wire t.mesh.wire

theorem Answered.append {N' : Sockets} {es fs : List (Event (Swarm Y.libp2p))}
    (h : Answered Y N node es N') : Answered Y N node (es ++ fs) N' :=
  h.imp_right (List.mem_append_left fs)

theorem StartedFor.append {es fs : List (Event (Swarm Y.libp2p))}
    (h : StartedFor Y N node es g t) : StartedFor Y N node (es ++ fs) g t := by
  obtain ⟨N', mesh, hN, hstart, hrun⟩ := h
  exact ⟨N', mesh, hN.append, hstart, hrun⟩

theorem StartedFor.driven {es : List (Event (Swarm Y.libp2p))} (h : StartedFor Y N node es g t)
    (hd : Driven t t') : StartedFor Y N node es g t' := by
  obtain ⟨N', mesh, hN, hstart, hrun⟩ := h
  exact ⟨N', mesh, hN, by rw [hd.1, hstart], hrun.trans (hd.2 hrun.idle)⟩

theorem startedFor_transportFor {N' : Sockets} {es : List (Event (Swarm Y.libp2p))}
    (hid : identityFromSecret Y node.secret = .ok (a, peer)) (hN : Answered Y N node es N')
    (h : transportFor Y N' node g = .ok t) : StartedFor Y N node es g t := by
  refine ⟨N', t.mesh, hN, h, .intro (.nil _) ?_⟩
  rw [(transportFor_ok hid h).2]
  rfl

theorem sameConfig_step {e : Event (Swarm Y.libp2p)} :
    (step V d e).selfAddress = d.selfAddress ∧ (step V d e).singleGroup = d.singleGroup := by
  cases he : eventGroup e with
  | some g =>
    have hc := sameConfig_writes (writes_step (V := V) d he)
    exact ⟨hc.selfAddress, hc.singleGroup⟩
  | none =>
    cases e with
    | factory => exact ⟨rfl, rfl⟩
    | _ => cases he

/-- A daemon that runs under one identity, after some events. -/
structure Identified (Y : System Key) (N : Sockets) (node : NodeConfig) (a : String)
    (d : ClusterDaemon (Swarm Y.libp2p)) (es : List (Event (Swarm Y.libp2p))) : Prop where
  selfAddress : d.selfAddress = a
  singleGroup : d.singleGroup = node.pinnedGroup
  factory : ∃ N', Answered Y N node es N' ∧ d.makeTransport = transportFor Y N' node
  bounded : Bounded d
  swarms : ∀ g s, d.groups[g]? = some s → StartedFor Y N node es g s.transport

theorem identified_meshDaemon {selfAddr : String} (ha : canonicalAddress selfAddr = some a) :
    Identified Y N node a (meshDaemon Y N selfAddr node) [] := by
  have hinit : Initial (meshDaemon Y N selfAddr node) := by
    rw [meshDaemon]
    split
    · exact initial_withFactorySingleGroup _ _ _
    · exact initial_withFactory _ _
  have hmake : (meshDaemon Y N selfAddr node).makeTransport = transportFor Y N node := by
    rw [meshDaemon]
    split <;> simp only [withFactorySingleGroup, withFactory]
  refine ⟨?_, ?_, ⟨N, .inl rfl, hmake⟩, bounded_of_initial hinit, ?_⟩
  · rw [meshDaemon]
    split <;> simp [withFactorySingleGroup, withFactory, ha]
  · rw [meshDaemon]
    split <;> simp_all [withFactorySingleGroup, withFactory]
  · intro g s hs
    simp [hinit.groups] at hs

theorem Identified.step (hnode : NodeConfig.fromEnv Y = .ok node)
    (hid : identityFromSecret Y node.secret = .ok (a, peer))
    {e : Event (Swarm Y.libp2p)} {es : List (Event (Swarm Y.libp2p))}
    (h : Identified Y N node a d es) (hs : Meeting (total (Ipc.step V)) (Serving Y) d e d') :
    Identified Y N node a d' (es ++ [e]) := by
  obtain ⟨hstep, he⟩ := hs
  have hstep' := hstep
  subst hstep
  have heff := effect_step V d e
  obtain ⟨N', hN', hmake⟩ := h.factory
  refine ⟨sameConfig_step.1.trans h.selfAddress, sameConfig_step.2.trans h.singleGroup, ?_,
    h.bounded.step hstep', fun g s hg => ?_⟩
  · refine heff.factory_induction
      (P := fun f => ∃ N', Answered Y N node (es ++ [e]) N' ∧ f = transportFor Y N' node)
      (fun makeTransport hf => ?_) ⟨N', hN'.append, hmake⟩
    subst hf
    obtain ⟨N'', node', hnode', rfl⟩ := he
    rw [hnode] at hnode'
    cases hnode'
    exact ⟨N'', .inr (by simp), rfl⟩
  · refine session_step (P := fun s => StartedFor Y N node (es ++ [e]) g s.transport)
      (fun s hs => (h.swarms g s hs).append) heff (fun t ht => ?_) (fun op hop s hs => ?_)
      (fun s roster hs _ => hs.driven (keptByCalls_driven.applyRoster s roster)) hg
    · rw [hmake] at ht
      exact startedFor_transportFor hid hN'.append ht
    · cases e with
      | request r => exact hs.driven (keptByCalls_driven.request s hop)
      | transport g f =>
        subst hop
        obtain ⟨hconfig, hrun⟩ := he s.transport
        exact hs.driven ⟨hconfig, hrun.surfaceRun⟩
      | factory => exact hop.elim
      | _ => exact he.elim

theorem printIdentity_of_configured (h : Configured Y node)
    (hid : identityFromSecret Y node.secret = .ok (a, peer)) :
    printIdentity Y = .ok (a, peer) := by
  obtain ⟨path, text, hpath, _, hfile, hsecret⟩ := h.seed
  simp only [printIdentity, required, bind_eq_ok_iff, mapError_eq_ok_iff, okOr_eq_ok_iff]
  exact ⟨path, hpath, text, readSecretFile_ok_iff.mpr hfile, node.secret,
    parseSeed_ok_iff.mpr hsecret, hid⟩

/-- In every run of a daemon that the process has started on libp2p, each group's session is that of
a swarm started for that group alone, with the settings of the environment, under the peer that
`--print-identity` reports and whose own address is the daemon's; a pinned daemon has no other
group. -/
theorem swarms_run_as_configured {socket bearer : String} {es : List (Event (Swarm Y.libp2p))}
    (hstart : main Y N = .ok ⟨socket, bearer, .mesh d⟩)
    (h : Steps (Meeting (total (Ipc.step V)) (Serving Y)) d es d') :
    ∃ node peer, Configured Y node ∧ printIdentity Y = .ok (d'.selfAddress, peer) ∧
      Y.libp2p.OwnAddress peer d'.selfAddress ∧
      ∀ (g : String) (s : ClusterSession (Swarm Y.libp2p)), d'.groups[g]? = some s →
        (∀ p, node.pinnedGroup = some p → g = p) ∧ ConfiguredFor Y node g s.transport.config ∧
          StartedFor Y N node es g s.transport ∧
            s.transport.mesh.wire.topic = g ∧ s.transport.mesh.wire.localPeer = peer := by
  obtain ⟨_, _, selfAddr, a, node, peer, _, ha, hnode, hid, _, rfl⟩ :=
    main_starts_mesh_iff.mp hstart
  have hinv : Identified Y N node a d' es :=
    h.history (I := Identified Y N node a)
      (fun _ _ _ _ hi hs => hi.step (fromEnv_ok_iff.mpr hnode) hid hs) (identified_meshDaemon ha)
  obtain ⟨key, _, hkey, hpeer⟩ := identityFromSecret_ok_iff.mp hid
  refine ⟨node, peer, hnode, ?_, ?_, fun g s hg => ⟨fun p hp => ?_, ?_⟩⟩
  · rw [hinv.selfAddress]
    exact printIdentity_of_configured hnode hid
  · rw [hinv.selfAddress]
    exact ⟨key, hpeer, hkey⟩
  · exact hinv.bounded.pinned g (by simp [ExtTreeMap.mem_iff_isSome_getElem?, hg]) p
      (hinv.singleGroup.trans hp)
  · obtain ⟨N', mesh, _, hswarm, hrun⟩ := hinv.swarms g s hg
    obtain ⟨hcfg, hw⟩ := transportFor_ok hid hswarm
    exact ⟨hcfg, hinv.swarms g s hg, named_of_surfaceRun (hw ▸ hrun)⟩

end Runs

section Sample

/-- A file that holds a text and is its owner's alone. -/
def secretFile (text : String) : OpenFile :=
  ⟨.ok ⟨true, 0o600, 501⟩, fun n => .ok ((bytes text).take n)⟩

/-- A machine with the two files and the variables that a start on libp2p needs. -/
def plainSystem : System String where
  env
    | "CITRATE_CLUSTER_SOCKET" => some "socket"
    | "CITRATE_CLUSTER_BEARER_FILE" => some "bearer"
    | "CITRATE_CLUSTER_SELF_ADDR" => some m1
    | "CITRATE_CLUSTER_SEED_FILE" => some "seed"
    | "CITRATE_CLUSTER_LISTEN" => some "listen"
    | _ => none
  openFile
    | "bearer" => .ok (secretFile "token")
    | "seed" => .ok (secretFile (String.ofList (List.replicate 64 '1')))
    | _ => .error "no such file"
  euid := 501
  libp2p := plainLibp2p
  publicKeyOf _ := .ok m1
  parseMultiaddr text := .ok [.other text]
  showMultiaddr _ := "addr"
  tcpPort _ := none
  tcp n := .other (toString n)
  keccak256 _ := .replicate 32 0
  mdnsBuiltIn := false
  runtime := .ok ()

def openSockets : Sockets := ⟨fun _ => .ok (), fun _ => .ok (), fun _ => .ok ()⟩

def plainNode : NodeConfig := ⟨.replicate 32 0x11, [.other "listen"], none, [], false⟩

theorem privateFile_plain {path text : String}
    (hpath : plainSystem.openFile path = .ok (secretFile text))
    (hlen : (bytes text).length ≤ maxSecretFile) : PrivateFile plainSystem path text := by
  refine ⟨secretFile text, ⟨true, 0o600, 501⟩, bytes text, hpath, rfl, rfl, rfl, rfl, ?_, hlen,
    fromUtf8_bytes text⟩
  change Except.ok ((bytes text).take (maxSecretFile + 1)) = _
  rw [List.take_of_length_le (Nat.le_succ_of_le hlen)]

theorem plainSystem_starts : main plainSystem openSockets = .ok ⟨"socket", "token",
    .mesh (meshDaemon plainSystem openSockets m1 plainNode)⟩ := by
  have hbearer : PrivateFile plainSystem "bearer" "token" :=
    privateFile_plain rfl (by decide +kernel)
  have hseed : PrivateFile plainSystem "seed" (String.ofList (List.replicate 64 '1')) :=
    privateFile_plain rfl (by decide +kernel)
  have hconfigured : Configured plainSystem plainNode := by
    refine ⟨⟨"seed", _, rfl, rfl, hseed, by decide +kernel⟩, ⟨"listen", rfl, rfl⟩, rfl, ?_, rfl, rfl,
      ?_⟩ <;> simp [plainNode]
  apply main_starts_mesh_iff.mpr
  exact ⟨rfl, ⟨"bearer", "token", rfl, hbearer, by decide +kernel, rfl⟩, m1, m1, plainNode, m1, rfl,
    by decide +kernel, hconfigured, rfl, rfl, rfl⟩

theorem swarms_run_as_configured_sample :
    ∃ s, (step Registry.plainVerifier (meshDaemon plainSystem openSockets m1 plainNode)
        (.request (.join "group"))).groups["group"]? = some s ∧
      s.transport.config.groupId = "group" ∧ s.transport.mesh.wire.topic = "group" := by
  have hrun : ((step Registry.plainVerifier (meshDaemon plainSystem openSockets m1 plainNode)
      (.request (.join "group"))).groups["group"]?).isSome = true := by
    decide +kernel
  obtain ⟨s, hs⟩ := Option.isSome_iff_exists.mp hrun
  have hstep : Meeting (total (step Registry.plainVerifier)) (Serving plainSystem)
      (meshDaemon plainSystem openSockets m1 plainNode) (.request (.join "group")) _ :=
    ⟨rfl, trivial⟩
  obtain ⟨_, _, _, _, _, hswarms⟩ :=
    swarms_run_as_configured plainSystem_starts (.single hstep)
  obtain ⟨_, hcfg, _, htopic, _⟩ := hswarms "group" s hs
  exact ⟨s, hs, hcfg.groupId, htopic⟩

end Sample

end CitrateCluster.Startup
