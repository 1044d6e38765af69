import CitrateCluster.Ipc
import CitrateCluster.Redial
import CitrateCluster.SeedText
import CitrateCluster.SwarmSurface

namespace CitrateCluster.Invitation

open Std (ExtTreeMap)
open Text Seed SeedText Roster PeerAddrs Collections Device Registry Transport Session Daemon Ipc
  SwarmLoop SwarmSurface Redial

/-- The first component of a listen address, as far as a seed looks at it. -/
inductive Host where
  | ip4 (a b c d : UInt8)
  | ip6 (segments : Vector UInt16 8)
  | dns (name : String)
  deriving DecidableEq, Repr

/-- `some true` is loopback, `some false` routable, `none` never offered. -/
def Host.reach : Host → Option Bool
  | .ip4 a b c d => if (a, b, c, d) = (0, 0, 0, 0) then none else some (a = 127)
  | .ip6 segments =>
    if segments = ⟨#[0, 0, 0, 0, 0, 0, 0, 0], rfl⟩ then none
    else if segments[0] &&& 0xffc0 = 0xfe80 then none
    else some (segments = ⟨#[0, 0, 0, 0, 0, 0, 0, 1], rfl⟩)
  | .dns _ => some false

variable (host : Protocol → Option Host) (local_ : PeerId)

def reachOf (addr : Multiaddr) : Option Bool := (addr.head?.bind host).bind Host.reach

/-- An address that names its peer. -/
def withId (addr : Multiaddr) : Multiaddr :=
  if (bootstrapPeerId addr).isNone then addr ++ [.p2p local_] else addr

/-- Append an address to the routable or to the loopback ones, unless it is there. -/
def offer (acc : List Multiaddr × List Multiaddr) (addr : Multiaddr) :
    List Multiaddr × List Multiaddr :=
  match reachOf host addr with
  | some false =>
    if withId local_ addr ∈ acc.1 then acc else (acc.1 ++ [withId local_ addr], acc.2)
  | some true =>
    if withId local_ addr ∈ acc.2 then acc else (acc.1, acc.2 ++ [withId local_ addr])
  | none => acc

/-- The listen addresses worth putting in a seed. -/
def seedAddrsFrom (listeners : List Multiaddr) : List Multiaddr :=
  let (routable, loopback) := listeners.foldl (offer host local_) ([], [])
  (if routable.isEmpty then loopback else routable).take maxSeedAddrs

section Offer

variable {host} {local_} {listeners : List Multiaddr} {acc : List Multiaddr × List Multiaddr}
  {addr m : Multiaddr}

/-- The addresses of the listeners that reach as far as given, each with its peer. -/
def reaching (host : Protocol → Option Host) (local_ : PeerId) (listeners : List Multiaddr)
    (loopback : Bool) : List Multiaddr :=
  (listeners.filter fun a => reachOf host a = some loopback).map (withId local_)

/-- What the two lists hold after some listeners. -/
structure Offered (host : Protocol → Option Host) (local_ : PeerId) (listeners : List Multiaddr)
    (acc : List Multiaddr × List Multiaddr) : Prop where
  nodup₁ : acc.1.Nodup
  nodup₂ : acc.2.Nodup
  mem₁ : ∀ m, m ∈ acc.1 ↔ m ∈ reaching host local_ listeners false
  mem₂ : ∀ m, m ∈ acc.2 ↔ m ∈ reaching host local_ listeners true

theorem mem_reaching_concat {loopback : Bool} :
    m ∈ reaching host local_ (listeners ++ [addr]) loopback ↔
      m ∈ reaching host local_ listeners loopback ∨
        reachOf host addr = some loopback ∧ m = withId local_ addr := by
  simp only [reaching, List.filter_append, List.map_append, List.mem_append]
  by_cases h : reachOf host addr = some loopback <;> simp [h]

theorem mem_push {l : List Multiaddr} :
    m ∈ (if addr ∈ l then l else l ++ [addr]) ↔ m ∈ l ∨ m = addr := by
  split
  · next h => exact ⟨.inl, fun hm => hm.elim id fun he => he ▸ h⟩
  · simp

theorem nodup_push {l : List Multiaddr} (h : l.Nodup) :
    (if addr ∈ l then l else l ++ [addr]).Nodup := by
  split
  · exact h
  · next hn => simpa using h.concat hn

theorem offer_eq : offer host local_ acc addr =
    (if reachOf host addr = some false then
        (if withId local_ addr ∈ acc.1 then acc.1 else acc.1 ++ [withId local_ addr])
      else acc.1,
      if reachOf host addr = some true then
        (if withId local_ addr ∈ acc.2 then acc.2 else acc.2 ++ [withId local_ addr])
      else acc.2) := by
  rw [offer]
  cases reachOf host addr with
  | none => simp
  | some loopback =>
    cases loopback with
    | false => by_cases h : withId local_ addr ∈ acc.1 <;> simp [h]
    | true => by_cases h : withId local_ addr ∈ acc.2 <;> simp [h]

theorem Offered.step (h : Offered host local_ listeners acc) :
    Offered host local_ (listeners ++ [addr]) (offer host local_ acc addr) := by
  rw [offer_eq]
  refine ⟨?_, ?_, fun m => ?_, fun m => ?_⟩
  · dsimp only
    split
    · exact nodup_push h.nodup₁
    · exact h.nodup₁
  · dsimp only
    split
    · exact nodup_push h.nodup₂
    · exact h.nodup₂
  · rw [mem_reaching_concat, ← h.mem₁ m]
    dsimp only
    split
    · next hr => simp [mem_push, hr]
    · next hr => simp [hr]
  · rw [mem_reaching_concat, ← h.mem₂ m]
    dsimp only
    split
    · next hr => simp [mem_push, hr]
    · next hr => simp [hr]

theorem offered (host : Protocol → Option Host) (local_ : PeerId) (listeners : List Multiaddr) :
    Offered host local_ listeners (listeners.foldl (offer host local_) ([], [])) := by
  induction listeners using List.reverseRecOn with
  | nil => exact ⟨List.nodup_nil, List.nodup_nil, by simp [reaching], by simp [reaching]⟩
  | append_singleton listeners addr ih =>
    rw [List.foldl_append]
    exact ih.step

/-- A seed offers the routable listen addresses, or the loopback ones if there are none, each once
and with its peer, and no more than fit. -/
theorem seedAddrsFrom_eq (host : Protocol → Option Host) (local_ : PeerId)
    (listeners : List Multiaddr) :
    ∃ all : List Multiaddr, seedAddrsFrom host local_ listeners = all.take maxSeedAddrs ∧
      all.Nodup ∧
      ∀ m, m ∈ all ↔ m ∈ reaching host local_ listeners
        (reaching host local_ listeners false).isEmpty := by
  have h := offered host local_ listeners
  refine ⟨_, rfl, ?_, fun m => ?_⟩
  · split
    · exact h.nodup₂
    · exact h.nodup₁
  · have hempty : (listeners.foldl (offer host local_) ([], [])).1.isEmpty =
        (reaching host local_ listeners false).isEmpty := by
      rw [Bool.eq_iff_iff, List.isEmpty_iff, List.isEmpty_iff, List.eq_nil_iff_forall_not_mem,
        List.eq_nil_iff_forall_not_mem]
      simp only [h.mem₁]
    split
    · next he => rw [← hempty, he, h.mem₂]
    · next he => rw [← hempty, Bool.eq_false_of_not_eq_true he, h.mem₁]

/-- The device listens under its own name, or under none. -/
def OwnListeners (local_ : PeerId) (listeners : List Multiaddr) : Prop :=
  ∀ a ∈ listeners, ∀ p, bootstrapPeerId a = some p → p = local_

theorem bootstrapPeerId_withId (h : ∀ p, bootstrapPeerId addr = some p → p = local_) :
    bootstrapPeerId (withId local_ addr) = some local_ := by
  rw [withId]
  cases hp : bootstrapPeerId addr with
  | none =>
    rw [Option.isNone_none, if_pos rfl, bootstrapPeerId, List.findSome?_append]
    rw [bootstrapPeerId] at hp
    rw [hp]
    rfl
  | some p =>
    rw [Option.isNone_some, if_neg Bool.false_ne_true, hp, h p hp]

theorem bootstrapPeerId_of_mem (h : OwnListeners local_ listeners)
    (hm : m ∈ seedAddrsFrom host local_ listeners) : bootstrapPeerId m = some local_ := by
  obtain ⟨all, hall, _, hmem⟩ := seedAddrsFrom_eq host local_ listeners
  rw [hall] at hm
  obtain ⟨a, ha, rfl⟩ := List.mem_map.mp ((hmem m).mp (List.mem_of_mem_take hm))
  exact bootstrapPeerId_withId (h a (List.mem_filter.mp ha).1)

end Offer

section Parsing

variable {parse : String → Option Multiaddr} {text : Multiaddr → String} {p q : PeerId}

theorem parsePeerAddr_text {m : Multiaddr} (hparse : parse (trim (text m)) = some m)
    (hp : bootstrapPeerId m = some p) (i : Nat) : parsePeerAddr parse q i (text m) =
      if p = q then .error ("peer address " ++ toString (i + 1) ++ " is this node") else .ok m := by
  simp only [parsePeerAddr, hparse, hp]

/-- Addresses of another device that read back are taken as they were. -/
theorem parsePeerAddrs_text {ms : List Multiaddr} (hne : ms ≠ []) (hlen : ms.length ≤ maxSeedAddrs)
    (hparse : ∀ m ∈ ms, parse (trim (text m)) = some m)
    (hp : ∀ m ∈ ms, bootstrapPeerId m = some p) (hq : p ≠ q) :
    parsePeerAddrs parse q (ms.map text) = .ok ms := by
  have hmapM : ∀ k, ((ms.map text).zipIdx k).mapM (fun x => parsePeerAddr parse q x.2 x.1) =
      .ok ms := by
    clear hne hlen
    induction ms with
    | nil => exact fun _ => rfl
    | cons m ms ih =>
      intro k
      have hhead := parsePeerAddr_text (q := q) (hparse m List.mem_cons_self)
        (hp m List.mem_cons_self) k
      rw [if_neg hq] at hhead
      rw [List.map_cons, List.zipIdx_cons, List.mapM_cons]
      simp only [hhead, ih (fun m' hm => hparse m' (List.mem_cons_of_mem _ hm))
        (fun m' hm => hp m' (List.mem_cons_of_mem _ hm))]
      rfl
  rw [parsePeerAddrs, if_neg ?_]
  · exact hmapM 0
  · simp [hne, hlen]

/-- The device itself refuses its own addresses, the first of them already. -/
theorem parsePeerAddrs_own {ms : List Multiaddr} (hne : ms ≠ []) (hlen : ms.length ≤ maxSeedAddrs)
    (hparse : ∀ m ∈ ms, parse (trim (text m)) = some m)
    (hp : ∀ m ∈ ms, bootstrapPeerId m = some p) :
    parsePeerAddrs parse p (ms.map text) = .error "peer address 1 is this node" := by
  cases ms with
  | nil => exact absurd rfl hne
  | cons m ms =>
    have hhead := parsePeerAddr_text (q := p) (hparse m List.mem_cons_self)
      (hp m List.mem_cons_self) 0
    rw [if_pos rfl] at hhead
    rw [parsePeerAddrs, if_neg]
    · rw [List.map_cons, List.zipIdx_cons, List.mapM_cons]
      simp only [hhead]
      rfl
    · simpa using hlen

end Parsing

variable {Key : Type} {I : Libp2p Key} {V : LinkVerifier} {d d' : ClusterDaemon (Libp2pTransport I)}
  {s s' : ClusterSession (Libp2pTransport I)} {g seed ws ws' : String} {addrs : List String}
  {host} {text : Multiaddr → String} {listeners : List Multiaddr}

/-- A seed is made of the addresses that the group's swarm reports. -/
theorem seed_eq (hs : d.groups[g]? = some s)
    (hseed : (handleRequest V d (.seed g)).1 = .seed seed addrs) :
    addrs = s.transport.wire.seedAddrs ∧ addrs ≠ [] ∧ seed = (⟨g, addrs⟩ : GroupSeed).encode ∧
      (⟨g, addrs⟩ : GroupSeed).validate = .ok () := by
  simp only [handleRequest, ClusterDaemon.seed, hs, seedAddrs] at hseed
  split at hseed
  · next seed' addrs' d₁ hd =>
    cases hseed
    split at hd
    · cases hd
    · next hne =>
      split at hd
      · cases hd
      · next gs hgs =>
        cases hd
        obtain ⟨rfl, hvalid⟩ := new_eq_ok_iff.mp hgs
        exact ⟨rfl, fun h => hne (List.isEmpty_iff.mpr h), rfl, hvalid⟩
  · cases hseed

/-- What adding a seed does is what the swarm does with its addresses. -/
theorem addSeed_eq (hs : d.groups[g]? = some s)
    (hdecode : GroupSeed.decode seed = .ok ⟨g, addrs⟩) : d.addSeed g seed =
      ((dialAll I s.transport.wire addrs).1,
        d.setSession g { s with transport := ⟨(dialAll I s.transport.wire addrs).2⟩ }) := by
  simp only [ClusterDaemon.addSeed, hdecode, hs, addPeers, ne_eq, not_true_eq_false, if_false]

/-- A seed that one device hands out and that fits its length limit makes another device of the
group dial that device, at the addresses the seed was made of; the device itself refuses it. -/
theorem seed_leads_to_its_device (hs : d.groups[g]? = some s)
    (hreports : s.transport.wire.seedAddrs =
      (seedAddrsFrom host s.transport.wire.localPeer listeners).map text)
    (hown : OwnListeners s.transport.wire.localPeer listeners)
    (hparse : ∀ m ∈ seedAddrsFrom host s.transport.wire.localPeer listeners,
      I.parseMultiaddr (trim (text m)) = some m)
    (hseed : (handleRequest V d (.seed g)).1 = .seed seed addrs)
    (hlen : encodedLen ⟨g, addrs⟩ ≤ maxSeedLen) (hs' : d'.groups[g]? = some s')
    (hws : ws.toList.all isWhitespace = true) (hws' : ws'.toList.all isWhitespace = true) :
    handleRequest V d' (.addSeed g (ws ++ seed ++ ws')) =
      (if s'.transport.wire.localPeer = s.transport.wire.localPeer then
        (.error "peer address 1 is this node", d')
      else
        (.seeded addrs.length, d'.setSession g { s' with
          transport := ⟨{ s'.transport.wire with
            queue := s'.transport.wire.queue ++
              (seedAddrsFrom host s.transport.wire.localPeer listeners).map .dial }⟩ })) ∧
    ∀ m ∈ seedAddrsFrom host s.transport.wire.localPeer listeners,
      redialOpts m = ⟨some s.transport.wire.localPeer, [m], true⟩ := by
  obtain ⟨haddrs, hne, rfl, hvalid⟩ := seed_eq hs hseed
  rw [hreports] at haddrs
  have hpeer : ∀ m ∈ seedAddrsFrom host s.transport.wire.localPeer listeners,
      bootstrapPeerId m = some s.transport.wire.localPeer := fun m => bootstrapPeerId_of_mem hown
  have hsome : seedAddrsFrom host s.transport.wire.localPeer listeners ≠ [] := by
    rintro hnil
    rw [hnil] at haddrs
    exact hne haddrs
  have hfew : (seedAddrsFrom host s.transport.wire.localPeer listeners).length ≤ maxSeedAddrs :=
    List.length_take_le _ _
  have hdecode := decode_encode hvalid hws hws'
  rw [if_neg (Nat.not_lt.mpr hlen)] at hdecode
  refine ⟨?_, fun m hm => by rw [redialOpts, hpeer m hm]⟩
  split
  · next hself =>
    have hdial : dialAll I s'.transport.wire addrs =
        (.error "peer address 1 is this node", s'.transport.wire) := by
      rw [dialAll, haddrs, hself, parsePeerAddrs_own hsome hfew hparse hpeer]
    have hsame : d'.setSession g { s' with transport := ⟨s'.transport.wire⟩ } = d' := by
      rw [ClusterDaemon.setSession, insert_eq_self hs']
    simp only [handleRequest, addSeed_eq hs' hdecode, hdial, hsame]
  · next hother =>
    have hdial : dialAll I s'.transport.wire addrs =
        (.ok addrs.length, { s'.transport.wire with
          queue := s'.transport.wire.queue ++
            (seedAddrsFrom host s.transport.wire.localPeer listeners).map .dial }) := by
      rw [dialAll, haddrs, parsePeerAddrs_text hsome hfew hparse hpeer fun h => hother h.symm]
      simp only [foldl_send_eq, List.length_map]
    simp only [handleRequest, addSeed_eq hs' hdecode, hdial]

/-- The address that a device in the local network shares. -/
def shared : Multiaddr := [.other "ip4/10.0.0.2", .other "tcp/4001", .p2p "12D3"]

def sharedText : String := "/ip4/10.0.0.2/tcp/4001/p2p/12D3"

def lanHost (p : Protocol) : Option Host :=
  if p = .other "ip4/10.0.0.2" then some (.ip4 10 0 0 2) else none

def lanListeners : List Multiaddr := [[.other "ip4/10.0.0.2", .other "tcp/4001"]]

/-- Libp2p as far as it reads the shared address. -/
def lan : Libp2p String :=
  { plainLibp2p with parseMultiaddr := fun t => if t = sharedText then some shared else none }

/-- A device that has joined the group, under its own name. -/
def joined (localPeer : PeerId) : ClusterDaemon (Libp2pTransport lan) :=
  (handleRequest plainVerifier (.withFactory m1 fun group =>
    .ok ⟨{ Wire.new group localPeer with seedAddrs := [sharedText] }⟩) (.join "group")).2

def Sharing (localPeer : PeerId) (s : ClusterSession (Libp2pTransport lan)) : Bool :=
  decide (s.transport.wire.localPeer = localPeer) &&
    decide (s.transport.wire.seedAddrs = [sharedText]) && decide (s.transport.wire.queue = [])

theorem seed_leads_to_its_device_sample :
    ∃ seed s, (handleRequest plainVerifier (joined "12D3") (.seed "group")).1 =
        .seed seed [sharedText] ∧ (joined "9").groups["group"]? = some s ∧
      handleRequest plainVerifier (joined "9") (.addSeed "group" ("" ++ seed ++ "")) =
        (.seeded 1, (joined "9").setSession "group" { s with
          transport := ⟨{ s.transport.wire with queue := [.dial shared] }⟩ }) ∧
      handleRequest plainVerifier (joined "12D3") (.addSeed "group" ("" ++ seed ++ "")) =
        (.error "peer address 1 is this node", joined "12D3") := by
  have hs : ((joined "12D3").groups["group"]?).any (Sharing "12D3") = true := by decide +kernel
  have hs' : ((joined "9").groups["group"]?).any (Sharing "9") = true := by decide +kernel
  obtain ⟨s, hs, hp⟩ := (Option.any_eq_true _ _).mp hs
  obtain ⟨s', hs', hp'⟩ := (Option.any_eq_true _ _).mp hs'
  simp only [Sharing, Bool.and_eq_true, decide_eq_true_eq] at hp hp'
  have hseed : (handleRequest plainVerifier (joined "12D3") (.seed "group")).1 =
      .seed (⟨"group", [sharedText]⟩ : GroupSeed).encode [sharedText] := by decide +kernel
  have hfrom : seedAddrsFrom lanHost s.transport.wire.localPeer lanListeners = [shared] := by
    rw [hp.1.1]
    decide
  have hreports : s.transport.wire.seedAddrs = (seedAddrsFrom lanHost s.transport.wire.localPeer
      lanListeners).map fun _ => sharedText := by
    rw [hfrom, hp.1.2]
    rfl
  have hown : OwnListeners s.transport.wire.localPeer lanListeners := by
    intro a ha p hname
    rw [List.mem_singleton.mp ha] at hname
    cases hname
  have hparse : ∀ m ∈ seedAddrsFrom lanHost s.transport.wire.localPeer lanListeners,
      lan.parseMultiaddr (trim sharedText) = some m := by
    rw [hfrom]
    intro m hm
    rw [List.mem_singleton.mp hm]
    decide
  have hlen : encodedLen ⟨"group", [sharedText]⟩ ≤ maxSeedLen := by decide
  have hws : "".toList.all isWhitespace = true := rfl
  have hother := (seed_leads_to_its_device hs hreports hown hparse hseed hlen hs' hws hws).1
  have hself := (seed_leads_to_its_device hs hreports hown hparse hseed hlen hs hws hws).1
  refine ⟨_, s', hseed, hs', ?_, ?_⟩
  · rw [hother, hfrom, hp.1.1, hp'.1.1, hp'.2]
    rfl
  · rw [hself, if_pos rfl]

end CitrateCluster.Invitation
