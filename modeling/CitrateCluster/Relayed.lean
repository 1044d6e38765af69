import CitrateCluster.Redial

namespace CitrateCluster.Relayed

open Text Seed PeerAddrs Redial

/-- The peers that an address names, in the order of its components. -/
def namedPeers (addr : Multiaddr) : List PeerId :=
  addr.filterMap fun
    | .p2p id => some id
    | .other _ => none

/-- The peer that an address leads to. -/
def destination (addr : Multiaddr) : Option PeerId := (namedPeers addr).getLast?

/-- If an address names several peers, as one over a relay does, the first is also the last. -/
def Direct (addr : Multiaddr) : Prop :=
  ∀ p q ps, namedPeers addr = p :: (ps ++ [q]) → p = q

section Address

variable {addr : Multiaddr}

theorem bootstrapPeerId_eq (addr : Multiaddr) : bootstrapPeerId addr = (namedPeers addr).head? := by
  rw [namedPeers, List.head?_filterMap]
  rfl

theorem head?_eq_getLast?_iff {α : Type} {l : List α} :
    l.head? = l.getLast? ↔ ∀ a b m, l = a :: (m ++ [b]) → a = b := by
  constructor
  · rintro h a b m rfl
    rw [← List.cons_append, List.getLast?_concat] at h
    exact Option.some.inj h
  · intro h
    cases l with
    | nil => rfl
    | cons a l =>
      obtain rfl | ⟨m, b, rfl⟩ := List.eq_nil_or_concat' l
      · rfl
      · rw [h a b m rfl, ← List.cons_append, List.getLast?_concat]
        rfl

theorem bootstrapPeerId_eq_destination_iff : bootstrapPeerId addr = destination addr ↔ Direct addr := by
  rw [bootstrapPeerId_eq, destination, head?_eq_getLast?_iff, Direct]

/-- An address that names at most one peer is direct. -/
theorem direct_of_length_le_one (h : (namedPeers addr).length ≤ 1) : Direct addr := by
  intro p q ps hp
  rw [hp, List.length_cons, List.length_append, List.length_singleton] at h
  omega

/-- An address is matched by the peer that it leads to: the check of a seed compares this peer with the
local node, a re-dial asks for it, and an address is due while it is not connected. -/
structure MatchedByDestination (addr : Multiaddr) : Prop where
  compared : ∀ parse local_ i a, parse (trim a) = some addr → parsePeerAddr parse local_ i a =
    match destination addr with
    | none => .error ("peer address " ++ toString (i + 1) ++ " names no /p2p/ peer")
    | some p =>
      if p = local_ then .error ("peer address " ++ toString (i + 1) ++ " is this node")
      else .ok addr
  dialed : (redialOpts addr).peerId = destination addr
  tested : ∀ c : Connectivity, c.addrDue addr =
    match destination addr with
    | some id => !c.isConnected id
    | none => !c.anyAdmitted

theorem peerId_redialOpts (addr : Multiaddr) : (redialOpts addr).peerId = bootstrapPeerId addr := by
  rw [redialOpts]
  cases bootstrapPeerId addr <;> rfl

theorem matchedByDestination_iff : MatchedByDestination addr ↔ Direct addr := by
  rw [← bootstrapPeerId_eq_destination_iff]
  constructor
  · intro h
    rw [← peerId_redialOpts, h.dialed]
  · intro h
    refine ⟨fun parse local_ i a ha => ?_, ?_, fun c => ?_⟩
    · cases hd : destination addr <;> simp only [parsePeerAddr, ha, h, hd]
    · rw [peerId_redialOpts, h]
    · cases hd : destination addr <;> simp only [Connectivity.addrDue, h, hd]

end Address

section Lists

variable {parse : String → Option Multiaddr} {local_ : PeerId} {addrs : List String}

theorem mapM_ok_iff {α β ε : Type} {f : α → Except ε β} {l : List α} :
    (∃ ys, l.mapM f = .ok ys) ↔ ∀ x ∈ l, ∃ y, f x = .ok y := by
  induction l with
  | nil => simp [pure, Except.pure]
  | cons x l ih =>
    rw [List.forall_mem_cons, ← ih, List.mapM_cons]
    cases f x with
    | error e => simp [bind, Except.bind]
    | ok y =>
      cases l.mapM f with
      | error e => simp [bind, Except.bind]
      | ok ys => simp [bind, Except.bind, pure, Except.pure]

theorem parsePeerAddr_ok_iff {i : Nat} {a : String} :
    (∃ ma, parsePeerAddr parse local_ i a = .ok ma) ↔
      ∃ ma p, parse (trim a) = some ma ∧ (namedPeers ma).head? = some p ∧ p ≠ local_ := by
  rw [parsePeerAddr]
  cases parse (trim a) with
  | none => simp
  | some ma =>
    simp only [← bootstrapPeerId_eq, Option.some.injEq, exists_and_left, exists_eq_left']
    cases bootstrapPeerId ma with
    | none => simp
    | some p => by_cases hp : p = local_ <;> simp [hp]

/-- A list is accepted if it has the right length and each entry parses to an address whose first peer
is another node. -/
theorem parsePeerAddrs_ok_iff : (∃ mas, parsePeerAddrs parse local_ addrs = .ok mas) ↔
    1 ≤ addrs.length ∧ addrs.length ≤ maxSeedAddrs ∧ ∀ a ∈ addrs,
      ∃ ma p, parse (trim a) = some ma ∧ (namedPeers ma).head? = some p ∧ p ≠ local_ := by
  have hentries : (∀ e ∈ addrs.zipIdx, ∃ ma, parsePeerAddr parse local_ e.2 e.1 = .ok ma) ↔
      ∀ a ∈ addrs, ∃ ma p, parse (trim a) = some ma ∧ (namedPeers ma).head? = some p ∧
        p ≠ local_ := by
    simp only [parsePeerAddr_ok_iff]
    constructor
    · intro h a ha
      obtain ⟨i, hi⟩ := List.mem_iff_getElem?.mp ha
      exact h (a, i) (List.mem_zipIdx_iff_getElem?.mpr hi)
    · intro h e he
      exact h e.1 (List.fst_mem_of_mem_zipIdx he)
  rw [← hentries, parsePeerAddrs]
  split
  · next hlen =>
    simp only [Bool.or_eq_true, List.isEmpty_iff_length_eq_zero, decide_eq_true_eq] at hlen
    simp only [reduceCtorEq, exists_false, false_iff]
    omega
  · next hlen =>
    simp only [Bool.or_eq_true, List.isEmpty_iff_length_eq_zero, decide_eq_true_eq] at hlen
    have hle : 1 ≤ addrs.length ∧ addrs.length ≤ maxSeedAddrs := by omega
    rw [mapM_ok_iff]
    exact ⟨fun h => ⟨hle.1, hle.2, h⟩, fun h => h.2.2⟩

/-- A list of texts is accepted only if it has the right length, each entry is an address and none leads
to the local node. -/
def AcceptsOnlyOthers (parse : String → Option Multiaddr) (local_ : PeerId) (addrs : List String) :
    Prop :=
  (∃ mas, parsePeerAddrs parse local_ addrs = .ok mas) →
    1 ≤ addrs.length ∧ addrs.length ≤ maxSeedAddrs ∧
      ∀ a ∈ addrs, ∃ ma, parse (trim a) = some ma ∧ destination ma ≠ some local_

/-- A list of the right length, whose entries are addresses that begin at other nodes, has one that ends
at the local node. -/
def Returning (parse : String → Option Multiaddr) (local_ : PeerId) (addrs : List String) : Prop :=
  1 ≤ addrs.length ∧ addrs.length ≤ maxSeedAddrs ∧
    (∀ a ∈ addrs, ∃ ma p, parse (trim a) = some ma ∧ (namedPeers ma).head? = some p ∧ p ≠ local_) ∧
    ∃ a ∈ addrs, ∃ ma, parse (trim a) = some ma ∧ destination ma = some local_

theorem acceptsOnlyOthers_iff :
    AcceptsOnlyOthers parse local_ addrs ↔ ¬ Returning parse local_ addrs := by
  rw [AcceptsOnlyOthers, parsePeerAddrs_ok_iff, Returning]
  constructor
  · rintro h ⟨hpos, hle, hbegin, a, ha, ma, hma, hdest⟩
    obtain ⟨ma', hma', hne⟩ := (h ⟨hpos, hle, hbegin⟩).2.2 a ha
    rw [hma, Option.some.injEq] at hma'
    exact hne (hma' ▸ hdest)
  · rintro h ⟨hpos, hle, hbegin⟩
    refine ⟨hpos, hle, fun a ha => ?_⟩
    obtain ⟨ma, _, hma, _⟩ := hbegin a ha
    exact ⟨ma, hma, fun hdest => h ⟨hpos, hle, hbegin, a, ha, ma, hma, hdest⟩⟩

/-- An address is matched by the peer that it leads to if and only if the first and the last peer that
it names are the same; and only seeds that lead to other nodes are accepted if and only if no entry of
an otherwise acceptable list leads back to the local node. -/
theorem matched_by_destination_iff (parse : String → Option Multiaddr) (local_ : PeerId)
    (addr : Multiaddr) (addrs : List String) :
    (MatchedByDestination addr ↔ Direct addr) ∧
      (AcceptsOnlyOthers parse local_ addrs ↔ ¬ Returning parse local_ addrs) :=
  ⟨matchedByDestination_iff, acceptsOnlyOthers_iff⟩

/-- An address over a relay. -/
def relayedText : String := "/ip4/10.0.0.2/tcp/4001/p2p/relay/p2p-circuit/p2p/node"

def relayedAddr : Multiaddr :=
  [.other "ip4/10.0.0.2", .other "tcp/4001", .p2p "relay", .other "p2p-circuit", .p2p "node"]

def relayedParse (text : String) : Option Multiaddr :=
  if text = relayedText then some relayedAddr else none

/-- An address over a relay is matched by the relay, so that a node accepts one that leads to itself. -/
theorem relayed_addr_is_matched_by_relay :
    ¬ MatchedByDestination relayedAddr ∧
      ¬ AcceptsOnlyOthers relayedParse "node" [relayedText] := by
  rw [matchedByDestination_iff, acceptsOnlyOthers_iff, not_not]
  have htext : relayedParse (trim relayedText) = some relayedAddr := by decide +kernel
  refine ⟨fun h => ?_, ?_⟩
  · exact absurd (h "relay" "node" [] rfl) (by decide)
  · refine ⟨le_rfl, by decide, ?_, relayedText, List.mem_singleton_self _, relayedAddr, htext, rfl⟩
    intro a ha
    rw [List.mem_singleton.mp ha]
    exact ⟨relayedAddr, "relay", htext, rfl, by decide⟩

end Lists

end CitrateCluster.Relayed
