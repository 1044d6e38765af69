import CitrateCluster.PeerAddrs
import CitrateCluster.Runs
import CitrateCluster.Transport
import Mathlib.Logic.Function.Basic

namespace CitrateCluster.SwarmLoop

open Std (ExtTreeMap ExtTreeSet)
open Text Roster Collections Transport PeerAddrs Runs

/-- What libp2p and the key hash compute. A `PeerId` of a secp256k1 key holds the key itself. -/
structure Libp2p (Key : Type) where
  toPeerId : Key → PeerId
  addressFromPublicKey : Key → Option String
  parseMultiaddr : String → Option Multiaddr
  toPeerId_injective : Function.Injective toPeerId

/-- A peer's address is the one that its own key resolves to. -/
def Libp2p.OwnAddress {Key : Type} (I : Libp2p Key) (p : PeerId) (a : String) : Prop :=
  ∃ key, I.toPeerId key = p ∧ I.addressFromPublicKey key = some a

def maxInbox : Nat := 1024

/-- In milliseconds. -/
def identifyTimeout : Nat := 5000

/-- The commands of the surface. Those that only ask the task for a report are left out. -/
inductive SwarmCmd where
  | publish (data : String)
  | dial (addr : Multiaddr)
  | disconnect (address : String)
  deriving DecidableEq, Repr

/-- Where a surface call stands: `disconnect` first edits the shared sets, then sends. -/
inductive Surface where
  | idle
  | disconnecting (address : String)
  deriving DecidableEq, Repr

/-- Where the swarm task stands inside the handler of an event or a command. -/
inductive Task where
  | idle
  | admitting (peer : PeerId) (address : String)
  | connecting (address : String)
  | refusing (peer : PeerId)
  | delivering (message : MeshMessage)
  | forgetting (address : String)
  | evicting (address : String) (peers : List PeerId)
  | sweeping (peers : List PeerId)
  deriving DecidableEq, Repr

/-- The live connections of a peer, opened before and after the last `disconnect_peer_id`. -/
structure Conns where
  closing : Nat
  fresh : Nat
  deriving DecidableEq, Repr

def Conns.total (c : Conns) : Nat := c.closing + c.fresh

/-- One group's mesh: the state that surface and task share under the mutex, the command channel,
the position of either party, the task's own tables, and of libp2p the blacklist, the application
scores and the connections. -/
structure Wire where
  topic : String
  localPeer : PeerId
  seedAddrs : List String
  authorized : AddressSet
  connected : AddressSet
  inbox : List MeshMessage
  queue : List SwarmCmd
  surface : Surface
  task : Task
  peerAddr : ExtTreeMap PeerId String
  unidentified : ExtTreeMap PeerId Nat
  clock : Nat
  blacklist : ExtTreeSet PeerId
  unadmitted : ExtTreeSet PeerId
  conns : PeerId → Conns

namespace Wire

def new (topic : String) (localPeer : PeerId) : Wire where
  topic := topic
  localPeer := localPeer
  seedAddrs := []
  authorized := ∅
  connected := ∅
  inbox := []
  queue := []
  surface := .idle
  task := .idle
  peerAddr := ∅
  unidentified := ∅
  clock := 0
  blacklist := ∅
  unadmitted := ∅
  conns := fun _ => ⟨0, 0⟩

def Live (w : Wire) (p : PeerId) : Prop := 0 < (w.conns p).total

instance (w : Wire) (p : PeerId) : Decidable (w.Live p) := inferInstanceAs (Decidable (0 < _))

def gatePeer (w : Wire) (p : PeerId) : Wire :=
  { w with blacklist := w.blacklist.insert p, unadmitted := w.unadmitted.insert p }

def ungatePeer (w : Wire) (p : PeerId) : Wire :=
  { w with blacklist := w.blacklist.erase p, unadmitted := w.unadmitted.erase p }

def setConns (w : Wire) (p : PeerId) (c : Conns) : Wire :=
  { w with conns := Function.update w.conns p c }

/-- Tell every open connection of a peer to close. -/
def disconnectPeerId (w : Wire) (p : PeerId) : Wire := w.setConns p ⟨(w.conns p).total, 0⟩

/-- `dial` and `authorize`: they open no socket. -/
def authorize (w : Wire) (peer : String) : Wire :=
  match canonicalAddress peer with
  | some a => { w with authorized := w.authorized.insert a }
  | none => w

/-- The critical section of `disconnect`. -/
def deauthorize (w : Wire) (a : String) : Wire :=
  { w with authorized := w.authorized.erase a, connected := w.connected.erase a }

def send (w : Wire) (cmd : SwarmCmd) : Wire := { w with queue := w.queue ++ [cmd] }

/-- A payload is accepted if it is UTF-8 and a well-formed CID. -/
def acceptPayload (data : List UInt8) : Option String := (fromUtf8 data).filter isValidCid

def pushInbox (inbox : List MeshMessage) (m : MeshMessage) : List MeshMessage :=
  if inbox.length ≥ maxInbox then inbox else inbox ++ [m]

/-- The peers filed under an address. -/
def targets (w : Wire) (address : String) : List PeerId :=
  (w.peerAddr.toList.filter fun e => e.2 == address).map (·.1)

def expired (w : Wire) : List PeerId :=
  (w.unidentified.toList.filter fun e => w.clock - e.2 ≥ identifyTimeout).map (·.1)

/-- The handler of `ConnectionEstablished`. A peer that is not admitted yet starts gated. -/
def established (w : Wire) (p : PeerId) : Wire :=
  let w := w.setConns p ⟨(w.conns p).closing, (w.conns p).fresh + 1⟩
  if w.peerAddr.contains p then w
  else { w.gatePeer p with unidentified := w.unidentified.insertIfNew p w.clock }

/-- The handler of an `identify` event, up to its check of the authorized set. -/
def identify {Key : Type} (I : Libp2p Key) (w : Wire) (p : PeerId) (key : Key) : Wire :=
  let w := { w with unidentified := w.unidentified.erase p }
  if I.toPeerId key ≠ p then w.disconnectPeerId p
  else
    match I.addressFromPublicKey key with
    | none => w.disconnectPeerId p
    | some a =>
      if w.authorized.contains a then { w with task := .admitting p a }
      else { w with task := .refusing p }

/-- The handler of `ConnectionClosed` for the last connection of a peer, up to its critical
section. -/
def forget (w : Wire) (p : PeerId) : Wire :=
  let w := { w with unidentified := w.unidentified.erase p, blacklist := w.blacklist.erase p }
  match w.peerAddr[p]? with
  | some a => { w with peerAddr := w.peerAddr.erase p, task := .forgetting a }
  | none => w

/-- A gossip message as libp2p hands it over, with its authenticated source. -/
structure Gossip where
  topic : String
  source : Option PeerId
  data : List UInt8
  deriving DecidableEq, Repr

/-- The handler of a gossip message, up to its check of the authorized set. -/
def receive (w : Wire) (g : Gossip) : Wire :=
  if g.topic ≠ w.topic then w
  else
    match g.source.bind (w.peerAddr[·]?) with
    | none => w
    | some a =>
      if w.authorized.contains a then
        match acceptPayload g.data with
        | some data => { w with task := .delivering ⟨a, data⟩ }
        | none => w
      else w

/-- The next atomic step of the handler that the task is in. -/
def resume (w : Wire) : Option Wire :=
  match w.task with
  | .idle => none
  | .admitting p a =>
    some { ({ w with peerAddr := w.peerAddr.insert p a }).ungatePeer p with task := .connecting a }
  | .connecting a => some { w with connected := w.connected.insert a, task := .idle }
  | .refusing p => some { (w.gatePeer p).disconnectPeerId p with task := .idle }
  | .delivering m => some { w with inbox := pushInbox w.inbox m, task := .idle }
  | .forgetting a => some { w with connected := w.connected.erase a, task := .idle }
  | .evicting a (p :: ps) => some { (w.gatePeer p).disconnectPeerId p with task := .evicting a ps }
  | .evicting _ [] => some { w with task := .idle }
  | .sweeping (p :: ps) =>
    some { ({ w with unidentified := w.unidentified.erase p }).gatePeer p |>.disconnectPeerId p with
      task := .sweeping ps }
  | .sweeping [] => some { w with task := .idle }

/-- Take the next command off the channel. -/
def recv (w : Wire) : Option Wire :=
  match w.queue with
  | [] => none
  | .disconnect a :: queue => some { w with queue, task := .evicting a (w.targets a) }
  | _ :: queue => some { w with queue }

end Wire

/-- The steps of the two parties. The first six are the surface's; an event and a command start a
handler of the task, and `resume` takes a handler one critical section or gate call further. -/
inductive Action (Key : Type) where
  | authorize (peer : String)
  | disconnect (peer : String)
  | send
  | drain
  | publish (data : String)
  | dial (addr : Multiaddr)
  | established (p : PeerId)
  | identify (p : PeerId) (key : Key)
  | closed (p : PeerId) (fresh : Bool)
  | message (g : Wire.Gossip)
  | recv
  | sweep
  | resume
  | tick (ms : Nat)

variable {Key : Type} (I : Libp2p Key)

namespace Wire

/-- The connection of a peer that `ConnectionClosed` reports, if there is one. -/
def closeOne (w : Wire) (p : PeerId) (fresh : Bool) : Option Wire :=
  let c := w.conns p
  if fresh then
    if 0 < c.fresh then some (w.setConns p ⟨c.closing, c.fresh - 1⟩) else none
  else if 0 < c.closing then some (w.setConns p ⟨c.closing - 1, c.fresh⟩) else none

def step (w : Wire) : Action Key → Option Wire
  | .authorize peer => if w.surface = .idle then some (w.authorize peer) else none
  | .disconnect peer =>
    if w.surface = .idle then
      match canonicalAddress peer with
      | some a => some { w.deauthorize a with surface := .disconnecting a }
      | none => some w
    else none
  | .send =>
    match w.surface with
    | .disconnecting a => some { w.send (.disconnect a) with surface := .idle }
    | .idle => none
  | .drain => if w.surface = .idle then some { w with inbox := [] } else none
  | .publish data => if w.surface = .idle then some (w.send (.publish data)) else none
  | .dial addr => if w.surface = .idle then some (w.send (.dial addr)) else none
  | .established p => if w.task = .idle then some (w.established p) else none
  | .identify p key => if w.task = .idle ∧ w.Live p then some (w.identify I p key) else none
  | .closed p fresh =>
    if w.task = .idle then
      (w.closeOne p fresh).map fun w => if w.Live p then w else w.forget p
    else none
  | .message g => if w.task = .idle then some (w.receive g) else none
  | .recv => if w.task = .idle then w.recv else none
  | .sweep => if w.task = .idle then some { w with task := .sweeping w.expired } else none
  | .resume => w.resume
  | .tick ms => some { w with clock := w.clock + ms }

end Wire

variable {I} {w w' : Wire}

/-- The steps inside a handler, by where the task stands. -/
inductive Resumes (w : Wire) : Wire → Prop where
  | admitting {p : PeerId} {a : String} (ht : w.task = .admitting p a) :
      Resumes w { ({ w with peerAddr := w.peerAddr.insert p a }).ungatePeer p with
        task := .connecting a }
  | connecting {a : String} (ht : w.task = .connecting a) :
      Resumes w { w with connected := w.connected.insert a, task := .idle }
  | refusing {p : PeerId} (ht : w.task = .refusing p) :
      Resumes w { (w.gatePeer p).disconnectPeerId p with task := .idle }
  | delivering {m : MeshMessage} (ht : w.task = .delivering m) :
      Resumes w { w with inbox := Wire.pushInbox w.inbox m, task := .idle }
  | forgetting {a : String} (ht : w.task = .forgetting a) :
      Resumes w { w with connected := w.connected.erase a, task := .idle }
  | evicting {a : String} {p : PeerId} {ps : List PeerId} (ht : w.task = .evicting a (p :: ps)) :
      Resumes w { (w.gatePeer p).disconnectPeerId p with task := .evicting a ps }
  | evicted {a : String} (ht : w.task = .evicting a []) : Resumes w { w with task := .idle }
  | sweeping {p : PeerId} {ps : List PeerId} (ht : w.task = .sweeping (p :: ps)) :
      Resumes w { ({ w with unidentified := w.unidentified.erase p }).gatePeer p
        |>.disconnectPeerId p with task := .sweeping ps }
  | swept (ht : w.task = .sweeping []) : Resumes w { w with task := .idle }

theorem resumes_of_resume (hr : w.resume = some w') : Resumes w w' := by
  rw [Wire.resume] at hr
  split at hr
  · cases hr
  · next ht => cases hr; exact .admitting ht
  · next ht => cases hr; exact .connecting ht
  · next ht => cases hr; exact .refusing ht
  · next ht => cases hr; exact .delivering ht
  · next ht => cases hr; exact .forgetting ht
  · next ht => cases hr; exact .evicting ht
  · next ht => cases hr; exact .evicted ht
  · next ht => cases hr; exact .sweeping ht
  · next ht => cases hr; exact .swept ht

/-- A key that is not the peer's own or has no address ends its connections; otherwise the address
decides. -/
theorem identify_cases (I : Libp2p Key) (w : Wire) (p : PeerId) (key : Key) :
    ((I.toPeerId key = p → ∀ a, I.addressFromPublicKey key ≠ some a) ∧
        w.identify I p key =
          ({ w with unidentified := w.unidentified.erase p } : Wire).disconnectPeerId p) ∨
      ∃ a, I.toPeerId key = p ∧ I.addressFromPublicKey key = some a ∧
        (a ∈ w.authorized ∧ w.identify I p key =
            { w with unidentified := w.unidentified.erase p, task := .admitting p a } ∨
          a ∉ w.authorized ∧ w.identify I p key =
            { w with unidentified := w.unidentified.erase p, task := .refusing p }) := by
  by_cases hkey : I.toPeerId key = p
  · cases ha : I.addressFromPublicKey key with
    | none => exact .inl ⟨by simp, by simp [Wire.identify, hkey, ha]⟩
    | some a =>
      refine .inr ⟨a, hkey, rfl, ?_⟩
      by_cases hauth : a ∈ w.authorized
      · exact .inl ⟨hauth, by simp [Wire.identify, hkey, ha, hauth]⟩
      · exact .inr ⟨hauth, by simp [Wire.identify, hkey, ha, hauth]⟩
  · exact .inl ⟨fun hc => absurd hc hkey, by simp [Wire.identify, hkey]⟩

/-- A gossip message is accepted, or the wire stays as it is. -/
theorem receive_cases (w : Wire) (g : Wire.Gossip) :
    w.receive g = w ∨ ∃ p a data, g.topic = w.topic ∧ g.source = some p ∧
      w.peerAddr[p]? = some a ∧ a ∈ w.authorized ∧ Wire.acceptPayload g.data = some data ∧
      w.receive g = { w with task := .delivering ⟨a, data⟩ } := by
  rw [Wire.receive]
  split
  · exact .inl rfl
  · next htopic =>
    split
    · exact .inl rfl
    · next a ha =>
      obtain ⟨p, hp, ha⟩ := Option.bind_eq_some_iff.mp ha
      split
      · next hauth =>
        split
        · next data hdata =>
          exact .inr ⟨p, a, data, not_not.mp htopic, hp, ha, ExtTreeSet.contains_iff_mem.mp hauth,
            hdata, rfl⟩
        · exact .inl rfl
      · exact .inl rfl

theorem pushInbox_cases (inbox : List MeshMessage) (m : MeshMessage) :
    (maxInbox ≤ inbox.length ∧ Wire.pushInbox inbox m = inbox) ∨
      (inbox.length < maxInbox ∧ Wire.pushInbox inbox m = inbox ++ [m]) := by
  rw [Wire.pushInbox]
  split
  · next hfull => exact .inl ⟨hfull, rfl⟩
  · next hroom => exact .inr ⟨Nat.lt_of_not_le hroom, rfl⟩

/-- Of the commands only `disconnect` starts a handler with steps of its own. -/
theorem recv_cases (hr : w.recv = some w') :
    (∃ a queue, w.queue = .disconnect a :: queue ∧
      w' = { w with queue, task := .evicting a (w.targets a) }) ∨
      ∃ cmd queue, w.queue = cmd :: queue ∧ (∀ a, cmd ≠ .disconnect a) ∧
        w' = { w with queue } := by
  rw [Wire.recv] at hr
  split at hr
  · cases hr
  · next a queue hq =>
    cases hr
    exact .inl ⟨a, queue, hq, rfl⟩
  · next cmd queue hcmd hq =>
    cases hr
    exact .inr ⟨cmd, queue, hq, fun a he => hcmd a he, rfl⟩

/-- What one step of the wire is, with the condition under which it is enabled. -/
inductive Moves (I : Libp2p Key) (w : Wire) : Action Key → Wire → Prop where
  | authorize (peer : String) (hidle : w.surface = .idle) :
      Moves I w (.authorize peer) (w.authorize peer)
  | disconnect {peer a : String} (hidle : w.surface = .idle) (hc : canonicalAddress peer = some a) :
      Moves I w (.disconnect peer) { w.deauthorize a with surface := .disconnecting a }
  | ignore {peer : String} (hidle : w.surface = .idle) (hc : canonicalAddress peer = none) :
      Moves I w (.disconnect peer) w
  | send {a : String} (hsurf : w.surface = .disconnecting a) :
      Moves I w .send { w.send (.disconnect a) with surface := .idle }
  | drain (hidle : w.surface = .idle) : Moves I w .drain { w with inbox := [] }
  | publish (data : String) (hidle : w.surface = .idle) :
      Moves I w (.publish data) (w.send (.publish data))
  | dial (addr : Multiaddr) (hidle : w.surface = .idle) : Moves I w (.dial addr) (w.send (.dial addr))
  | established (p : PeerId) (ht : w.task = .idle) : Moves I w (.established p) (w.established p)
  | identify (p : PeerId) (key : Key) (ht : w.task = .idle) (hl : w.Live p) :
      Moves I w (.identify p key) (w.identify I p key)
  | closed {p : PeerId} {fresh : Bool} {w₁ : Wire} (ht : w.task = .idle)
      (hw : w.closeOne p fresh = some w₁) :
      Moves I w (.closed p fresh) (if w₁.Live p then w₁ else w₁.forget p)
  | message (g : Wire.Gossip) (ht : w.task = .idle) : Moves I w (.message g) (w.receive g)
  | recv {w' : Wire} (ht : w.task = .idle) (hr : w.recv = some w') : Moves I w .recv w'
  | sweep (ht : w.task = .idle) : Moves I w .sweep { w with task := .sweeping w.expired }
  | resume {w' : Wire} (hr : w.resume = some w') : Moves I w .resume w'
  | tick (ms : Nat) : Moves I w (.tick ms) { w with clock := w.clock + ms }

theorem moves_of_step {e : Action Key} (hs : w.step I e = some w') : Moves I w e w' := by
  cases e with
  | disconnect peer =>
    simp only [Wire.step, Option.ite_none_right_eq_some] at hs
    obtain ⟨hidle, hs⟩ := hs
    split at hs
    · next hc =>
      cases hs
      exact .disconnect hidle hc
    · next hc =>
      cases hs
      exact .ignore hidle hc
  | send =>
    simp only [Wire.step] at hs
    split at hs
    · next hsurf =>
      cases hs
      exact .send hsurf
    · cases hs
  | closed p fresh =>
    simp only [Wire.step, Option.ite_none_right_eq_some, Option.map_eq_some_iff] at hs
    obtain ⟨ht, w₁, hw, rfl⟩ := hs
    exact .closed ht hw
  | identify p key =>
    simp only [Wire.step, Option.ite_none_right_eq_some, Option.some.injEq] at hs
    obtain ⟨⟨ht, hl⟩, rfl⟩ := hs
    exact .identify p key ht hl
  | recv =>
    simp only [Wire.step, Option.ite_none_right_eq_some] at hs
    exact .recv hs.1 hs.2
  | resume => exact .resume hs
  | tick ms =>
    cases hs
    exact .tick ms
  | _ =>
    simp only [Wire.step, Option.ite_none_right_eq_some, Option.some.injEq] at hs
    obtain ⟨hc, rfl⟩ := hs
    constructor
    exact hc

/-- Keys that are their own peer id and address. -/
def plainLibp2p : Libp2p String := ⟨id, some, fun _ => none, Function.injective_id⟩

end CitrateCluster.SwarmLoop
