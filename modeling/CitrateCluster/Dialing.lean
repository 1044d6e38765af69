import CitrateCluster.Discovered
import CitrateCluster.Redial
import CitrateCluster.SwarmSafety

namespace CitrateCluster.Dialing

open Std (ExtTreeMap ExtTreeSet)
open Runs Roster Collections Transport PeerAddrs SwarmLoop SwarmSafety Redial Discovered

variable {Key : Type} (I : Libp2p Key) (publicKeyOf : PeerId → Option Key)

/-- The swarm loop with what it needs to dial: the wire, the addresses kept for re-dial and the
peers that mDNS has found. -/
structure Loop where
  wire : Wire
  bootstrap : List Multiaddr
  discovered : Table

/-- What the loop selects: a step of the wire, a tick of the re-dial interval, or an mDNS event. -/
inductive Event (Key : Type) where
  | wire (e : Action Key)
  | redial
  | found (records : List (PeerId × Multiaddr))
  | expired (records : List (PeerId × Multiaddr))

/-- The address that a `PeerId` stands for, if it holds a key: `publicKeyOf` reads it out. -/
def addressFromPeerId (peer : PeerId) : Option String :=
  (publicKeyOf peer).bind I.addressFromPublicKey

def peerAuthorized (peer : PeerId) (authorized : AddressSet) : Bool :=
  (addressFromPeerId I publicKeyOf peer).any authorized.contains

/-- All discovered addresses of a peer are tried, from a new local port. -/
def discoveredOpts (entry : PeerId × List Multiaddr) : DialOpts := ⟨some entry.1, entry.2, true⟩

/-- Remember a record, and the peer if anything new was learned of it. -/
def remember (localPeer : PeerId) (s : Table × List PeerId) (record : PeerId × Multiaddr) :
    Table × List PeerId :=
  if record.1 ≠ localPeer then
    let (new, discovered) := rememberDiscovered s.1 record.1 record.2
    (discovered, if new && !s.2.contains record.1 then s.2 ++ [record.1] else s.2)
  else s

namespace Loop

def start (topic : String) (localPeer : PeerId) (bootstrap : List Multiaddr) : Loop :=
  ⟨.new topic localPeer, bootstrap.take maxBootstrap, ∅⟩

variable (s : Loop)

def connectivity : Connectivity where
  isConnected p := decide (s.wire.Live p)
  anyAdmitted := !s.wire.peerAddr.isEmpty
  isAuthorized p := peerAuthorized I publicKeyOf p s.wire.authorized

def redialDials : List DialOpts :=
  (redialTargets s.bootstrap (s.connectivity I publicKeyOf)).map redialOpts ++
    (discoveryTargets s.discovered (s.connectivity I publicKeyOf)).map discoveredOpts

/-- The peers of an mDNS event that are new, authorized and not connected are dialed at once. -/
def freshDials (fresh : List PeerId) : List DialOpts :=
  fresh.filterMap fun peer =>
    if decide (s.wire.Live peer) || !peerAuthorized I publicKeyOf peer s.wire.authorized then none
    else s.discovered[peer]?.map fun addrs => discoveredOpts (peer, addrs)

/-- The address that the next command asks to dial. -/
def asked : Event Key → Option Multiaddr
  | .wire .recv =>
    match s.wire.queue with
    | .dial addr :: _ => some addr
    | _ => none
  | _ => none

/-- A step of the loop and what it dials. -/
def step : Event Key → Option (Loop × List DialOpts)
  | .wire e => (s.wire.step I e).map fun wire =>
    match s.asked (.wire e) with
    | some addr => (⟨wire, rememberBootstrap s.bootstrap addr, s.discovered⟩, [redialOpts addr])
    | none => ({ s with wire }, [])
  | .redial => if s.wire.task = .idle then some (s, s.redialDials I publicKeyOf) else none
  | .found records =>
    if s.wire.task = .idle then
      let (discovered, fresh) := records.foldl (remember s.wire.localPeer) (s.discovered, [])
      let s := { s with discovered }
      some (s, s.freshDials I publicKeyOf fresh)
    else none
  | .expired records =>
    if s.wire.task = .idle then
      some ({ s with
        discovered := records.foldl (fun t r => forgetDiscovered t r.1 r.2) s.discovered }, [])
    else none

def next (e : Event Key) : Option Loop := (s.step I publicKeyOf e).map (·.1)

end Loop

variable {I} {publicKeyOf} {s s' : Loop} {e : Event Key} {dials : List DialOpts}
  {past es : List (Event Key)} {localPeer p : PeerId} {initial : List Multiaddr}

/-- What one step of the loop is. -/
inductive Moved (I : Libp2p Key) (publicKeyOf : PeerId → Option Key) (s : Loop) :
    Event Key → Loop → List DialOpts → Prop where
  | wire {e : Action Key} {w : Wire} (hs : s.wire.step I e = some w)
      (hn : s.asked (.wire e) = none) : Moved I publicKeyOf s (.wire e) { s with wire := w } []
  | asked {e : Action Key} {w : Wire} {addr : Multiaddr} (hs : s.wire.step I e = some w)
      (ha : s.asked (.wire e) = some addr) :
      Moved I publicKeyOf s (.wire e) ⟨w, rememberBootstrap s.bootstrap addr, s.discovered⟩
        [redialOpts addr]
  | redial (ht : s.wire.task = .idle) :
      Moved I publicKeyOf s .redial s (s.redialDials I publicKeyOf)
  | found (records : List (PeerId × Multiaddr)) {discovered : Table} {fresh : List PeerId}
      (ht : s.wire.task = .idle)
      (hr : records.foldl (remember s.wire.localPeer) (s.discovered, []) = (discovered, fresh)) :
      Moved I publicKeyOf s (.found records) { s with discovered }
        (({ s with discovered } : Loop).freshDials I publicKeyOf fresh)
  | expired (records : List (PeerId × Multiaddr)) (ht : s.wire.task = .idle) :
      Moved I publicKeyOf s (.expired records)
        { s with
          discovered := records.foldl (fun t r => forgetDiscovered t r.1 r.2) s.discovered } []

theorem moved_of_step (hs : s.step I publicKeyOf e = some (s', dials)) :
    Moved I publicKeyOf s e s' dials := by
  cases e with
  | wire e =>
    simp only [Loop.step, Option.map_eq_some_iff] at hs
    obtain ⟨w, hw, hs⟩ := hs
    split at hs
    · next addr ha =>
      cases hs
      exact .asked hw ha
    · next hn =>
      cases hs
      exact .wire hw hn
  | redial =>
    simp only [Loop.step, Option.ite_none_right_eq_some] at hs
    obtain ⟨ht, hs⟩ := hs
    cases hs
    exact .redial ht
  | found records =>
    simp only [Loop.step, Option.ite_none_right_eq_some] at hs
    obtain ⟨ht, hs⟩ := hs
    cases hs
    exact .found records ht rfl
  | expired records =>
    simp only [Loop.step, Option.ite_none_right_eq_some] at hs
    obtain ⟨ht, hs⟩ := hs
    cases hs
    exact .expired records ht

theorem moved_of_next (hs : enabled (Loop.next I publicKeyOf) s e s') :
    ∃ dials, Moved I publicKeyOf s e s' dials := by
  simp only [enabled, Loop.next, Option.map_eq_some_iff] at hs
  obtain ⟨⟨s₁, dials⟩, hs, rfl⟩ := hs
  exact ⟨dials, moved_of_step hs⟩

theorem asked_eq_some {addr : Multiaddr} (ha : s.asked e = some addr) :
    e = .wire .recv ∧ .dial addr ∈ s.wire.queue := by
  unfold Loop.asked at ha
  split at ha
  · split at ha
    · next hq =>
      cases ha
      exact ⟨rfl, hq ▸ List.mem_cons_self⟩
    · cases ha
  · cases ha

/-- The calls on the table of discovered peers that an event makes: the device itself is no peer. -/
def callsOf (localPeer : PeerId) : Event Key → List Call
  | .found records => (records.filter (·.1 ≠ localPeer)).map fun r => .remember r.1 r.2
  | .expired records => records.map fun r => .forget r.1 r.2
  | _ => []

/-- All calls of some events, the latest first. -/
def calls (localPeer : PeerId) (past : List (Event Key)) : List Call :=
  (past.flatMap (callsOf localPeer)).reverse

theorem calls_concat : calls localPeer (past ++ [e]) =
    (callsOf localPeer e).reverse ++ calls localPeer past := by
  simp [calls]

/-- The table after an mDNS event, and the peers that it brought addresses of. -/
theorem foldl_remember (records : List (PeerId × Multiaddr)) (earlier : List Call)
    (fresh : List PeerId) :
    ∃ more, records.foldl (remember localPeer) (table earlier, fresh) =
      (table ((callsOf localPeer (.found records : Event Key)).reverse ++ earlier), fresh ++ more) ∧
        more.length ≤ records.length ∧ (fresh.Nodup → (fresh ++ more).Nodup) := by
  induction records generalizing earlier fresh with
  | nil => exact ⟨[], by simp [callsOf], Nat.le_refl 0, by simp⟩
  | cons r records ih =>
    by_cases hr : r.1 = localPeer
    · obtain ⟨more, hfold, hlen, hnodup⟩ := ih earlier fresh
      refine ⟨more, ?_, hlen.trans (Nat.le_succ _), hnodup⟩
      rw [List.foldl_cons, remember, if_neg (not_not.mpr hr), hfold]
      simp [callsOf, hr]
    · have hstep : remember localPeer (table earlier, fresh) r =
          (table (.remember r.1 r.2 :: earlier),
            if (rememberDiscovered (table earlier) r.1 r.2).1 && !fresh.contains r.1 then
              fresh ++ [r.1] else fresh) := by
        rw [remember, if_pos hr]
        rfl
      have hcalls : (callsOf localPeer (.found (r :: records) : Event Key)).reverse ++ earlier =
          (callsOf localPeer (.found records : Event Key)).reverse ++
            .remember r.1 r.2 :: earlier := by
        simp [callsOf, hr]
      rw [List.foldl_cons, hstep, hcalls]
      split
      · next hnew =>
        obtain ⟨more, hfold, hlen, hnodup⟩ := ih (.remember r.1 r.2 :: earlier) (fresh ++ [r.1])
        have hnot : r.1 ∉ fresh := by
          rw [Bool.and_eq_true] at hnew
          simpa using hnew.2
        refine ⟨r.1 :: more, by simpa using hfold, Nat.succ_le_succ hlen, fun hf => ?_⟩
        have hfresh : (fresh ++ [r.1]).Nodup := by simpa using hf.concat hnot
        simpa using hnodup hfresh
      · obtain ⟨more, hfold, hlen, hnodup⟩ := ih (.remember r.1 r.2 :: earlier) fresh
        exact ⟨more, hfold, hlen.trans (Nat.le_succ _), hnodup⟩

theorem foldl_forget (records : List (PeerId × Multiaddr)) (earlier : List Call) :
    records.foldl (fun t r => forgetDiscovered t r.1 r.2) (table earlier) =
      table ((callsOf localPeer (.expired records : Event Key)).reverse ++ earlier) := by
  induction records generalizing earlier with
  | nil => rfl
  | cons r records ih =>
    have hcalls : (callsOf localPeer (.expired (r :: records) : Event Key)).reverse ++ earlier =
        (callsOf localPeer (.expired records : Event Key)).reverse ++
          .forget r.1 r.2 :: earlier := by
      simp [callsOf]
    rw [List.foldl_cons, hcalls]
    exact ih (.forget r.1 r.2 :: earlier)

/-- What holds of the loop after the events so far. -/
structure Tracked (I : Libp2p Key) (localPeer : PeerId) (initial : List Multiaddr) (s : Loop)
    (past : List (Event Key)) : Prop where
  guarded : Guarded I s.wire
  named : s.wire.localPeer = localPeer
  queued : ∀ addr, .dial addr ∈ s.wire.queue → .wire (.dial addr) ∈ past
  known : ∀ addr ∈ s.bootstrap, addr ∈ initial ∨ .wire (.dial addr) ∈ past
  bound : s.bootstrap.length ≤ maxBootstrap
  discovered : s.discovered = table (calls localPeer past)

theorem tracked_start (topic : String) :
    Tracked I localPeer initial (.start topic localPeer initial) [] where
  guarded := guarded_new topic localPeer
  named := rfl
  queued := fun _ hq => absurd hq List.not_mem_nil
  known := fun _ ha => .inl (List.mem_of_mem_take ha)
  bound := List.length_take_le _ _
  discovered := rfl

theorem mem_of_mem_rememberBootstrap {bootstrap : List Multiaddr} {addr a : Multiaddr}
    (ha : a ∈ rememberBootstrap bootstrap addr) : a ∈ bootstrap ∨ a = addr := by
  rw [rememberBootstrap] at ha
  split at ha
  · exact .inl ha
  · obtain ha | ha := List.mem_append.mp ha
    · refine .inl ?_
      split at ha
      · exact List.mem_of_mem_tail ha
      · exact ha
    · exact .inr (List.mem_singleton.mp ha)

theorem Tracked.wire (h : Tracked I localPeer initial s past) {e : Action Key} {w : Wire}
    (hs : s.wire.step I e = some w) :
    Tracked I localPeer initial { s with wire := w } (past ++ [.wire e]) where
  guarded := h.guarded.step hs
  named := (name_of_step hs).2.trans h.named
  queued := by
    intro addr hq
    obtain hq | ⟨_, hd, _⟩ | ⟨_, hd, rfl⟩ | ⟨_, hd, _⟩ := queued_of_step hs hq
    · exact List.mem_append_left _ (h.queued addr hq)
    · cases hd
    · cases hd
      exact List.mem_append_right _ List.mem_cons_self
    · cases hd
  known := fun addr ha => (h.known addr ha).imp_right (List.mem_append_left _)
  bound := h.bound
  discovered := by
    rw [calls_concat]
    exact h.discovered

/-- The peers that an event brought addresses of. -/
theorem Tracked.fresh (h : Tracked I localPeer initial s past) {records : List (PeerId × Multiaddr)}
    {discovered : Table} {fresh : List PeerId}
    (hr : records.foldl (remember s.wire.localPeer) (s.discovered, []) = (discovered, fresh)) :
    fresh.length ≤ records.length ∧ fresh.Nodup ∧
      discovered = table (calls localPeer (past ++ [.found records])) := by
  obtain ⟨more, hfold, hlen, hnodup⟩ :=
    @foldl_remember Key localPeer records (calls localPeer past) []
  rw [h.named, h.discovered, hfold] at hr
  obtain ⟨rfl, rfl⟩ := Prod.mk.inj hr
  exact ⟨hlen, hnodup List.nodup_nil, by rw [calls_concat]⟩

theorem Tracked.step (h : Tracked I localPeer initial s past)
    (hs : Moved I publicKeyOf s e s' dials) : Tracked I localPeer initial s' (past ++ [e]) := by
  cases hs with
  | wire hs => exact h.wire hs
  | @asked e w addr hs ha =>
    have hw := h.wire hs
    refine ⟨hw.guarded, hw.named, hw.queued, fun a hm => ?_, length_rememberBootstrap h.bound,
      hw.discovered⟩
    obtain hm | rfl := mem_of_mem_rememberBootstrap hm
    · exact hw.known a hm
    · exact .inr (List.mem_append_left _ (h.queued a (asked_eq_some ha).2))
  | redial =>
    refine ⟨h.guarded, h.named, fun addr hq => List.mem_append_left _ (h.queued addr hq),
      fun addr ha => (h.known addr ha).imp_right (List.mem_append_left _), h.bound, ?_⟩
    rw [calls_concat]
    exact h.discovered
  | found records ht hr =>
    refine ⟨h.guarded, h.named, fun addr hq => List.mem_append_left _ (h.queued addr hq),
      fun addr ha => (h.known addr ha).imp_right (List.mem_append_left _), h.bound, ?_⟩
    exact (h.fresh hr).2.2
  | expired records ht =>
    refine ⟨h.guarded, h.named, fun addr hq => List.mem_append_left _ (h.queued addr hq),
      fun addr ha => (h.known addr ha).imp_right (List.mem_append_left _), h.bound, ?_⟩
    rw [calls_concat]
    exact h.discovered ▸ foldl_forget records _

theorem tracked_of_steps {topic : String}
    (h : Steps (enabled (Loop.next I publicKeyOf)) (.start topic localPeer initial) es s) :
    Tracked I localPeer initial s es := by
  have htracked := h.history (I := Tracked I localPeer initial)
    (fun _ _ _ _ ht hs => ht.step (moved_of_next hs).choose_spec) (tracked_start topic)
  exact htracked

/-- A dial is on request, of an address kept for re-dial whose peer is not connected, or of a
discovered peer that is not connected and whose key's address the group authorizes: at the addresses
that mDNS reported, not expired since and not pushed out by newer ones. -/
inductive Warranted (I : Libp2p Key) (publicKeyOf : PeerId → Option Key) (localPeer : PeerId)
    (initial : List Multiaddr) (es : List (Event Key)) (s : Loop) (e : Event Key) :
    DialOpts → Prop where
  | asked {addr : Multiaddr} (he : e = .wire .recv) (ha : .wire (.dial addr) ∈ es) :
      Warranted I publicKeyOf localPeer initial es s e (redialOpts addr)
  | kept {addr : Multiaddr} (he : e = .redial) (hk : addr ∈ initial ∨ .wire (.dial addr) ∈ es)
      (hnamed : ∀ p, bootstrapPeerId addr = some p → ¬ s.wire.Live p)
      (hunnamed : bootstrapPeerId addr = none → ∀ p : PeerId, s.wire.peerAddr[p]? = none) :
      Warranted I publicKeyOf localPeer initial es s e (redialOpts addr)
  | discovered {p : PeerId} {a : String} {addrs : List Multiaddr} (hp : p ≠ localPeer)
      (hl : ¬ s.wire.Live p) (ha : addressFromPeerId I publicKeyOf p = some a)
      (hauth : a ∈ s.wire.authorized) (hpos : 0 < addrs.length)
      (hlen : addrs.length ≤ maxDiscoveredAddrs)
      (hstanding : ∀ addr ∈ addrs, ∃ later earlier, calls localPeer (es ++ [e]) =
        later ++ .remember p addr :: earlier ∧ Remembered p addr later earlier) :
      Warranted I publicKeyOf localPeer initial es s e ⟨some p, addrs, true⟩

/-- The most dials of one step. -/
def maxDials : Event Key → Nat
  | .redial => maxRedialPerTick + maxRedialPerTick
  | .found records => records.length
  | _ => 1

theorem addrDue_iff {addr : Multiaddr} : (s.connectivity I publicKeyOf).addrDue addr = true ↔
    (∀ p, bootstrapPeerId addr = some p → ¬ s.wire.Live p) ∧
      (bootstrapPeerId addr = none → ∀ p : PeerId, s.wire.peerAddr[p]? = none) := by
  rw [Connectivity.addrDue]
  cases hp : bootstrapPeerId addr with
  | some p => simp [Loop.connectivity]
  | none =>
    have hempty : s.wire.peerAddr.isEmpty = true ↔ ∀ p : PeerId, s.wire.peerAddr[p]? = none := by
      rw [ExtTreeMap.isEmpty_iff]
      refine ⟨fun h p => by simp [h], fun h => ExtTreeMap.ext_getElem? fun p => ?_⟩
      rw [h p, ExtTreeMap.getElem?_empty]
    simp [Loop.connectivity, hempty]

theorem peerAuthorized_iff {authorized : AddressSet} :
    peerAuthorized I publicKeyOf p authorized = true ↔
      ∃ a, addressFromPeerId I publicKeyOf p = some a ∧ a ∈ authorized := by
  simp [peerAuthorized, Option.any_eq_true]

theorem peerDue_iff {addrs : List Multiaddr} :
    (s.connectivity I publicKeyOf).peerDue (p, addrs) = true ↔
      ¬ s.wire.Live p ∧
        ∃ a, addressFromPeerId I publicKeyOf p = some a ∧ a ∈ s.wire.authorized := by
  rw [← peerAuthorized_iff]
  simp [Connectivity.peerDue, Loop.connectivity]

/-- A peer in the table is another device, at addresses that mDNS reported. -/
theorem Warranted.of_table (ht : s'.discovered = table (calls localPeer (es ++ [e])))
    {addrs : List Multiaddr} (haddrs : s'.discovered[p]? = some addrs)
    (hdue : ¬ s.wire.Live p ∧
      ∃ a, addressFromPeerId I publicKeyOf p = some a ∧ a ∈ s.wire.authorized) :
    Warranted I publicKeyOf localPeer initial es s e (discoveredOpts (p, addrs)) := by
  obtain ⟨hl, a, ha, hauth⟩ := hdue
  rw [ht] at haddrs
  have hlisted : listed (table (calls localPeer (es ++ [e]))) p = addrs := by
    rw [listed, haddrs, Option.getD_some]
  obtain ⟨hpos, hlen, _⟩ := (discovered_keeps_its_shape _).2.1 p addrs haddrs
  have hstanding : ∀ addr ∈ addrs, ∃ later earlier, calls localPeer (es ++ [e]) =
      later ++ .remember p addr :: earlier ∧ Remembered p addr later earlier := by
    intro addr hm
    rw [← hlisted] at hm
    exact mem_listed_iff.mp hm
  refine .discovered ?_ hl ha hauth hpos hlen hstanding
  obtain ⟨addr, hm⟩ := List.exists_mem_of_length_pos hpos
  obtain ⟨later, earlier, hcalls, _⟩ := hstanding addr hm
  have hcall : .remember p addr ∈ calls localPeer (es ++ [e]) := by
    rw [hcalls]
    exact List.mem_append_right _ List.mem_cons_self
  rw [calls, List.mem_reverse, List.mem_flatMap] at hcall
  obtain ⟨e', _, hcall⟩ := hcall
  unfold callsOf at hcall
  split at hcall
  · obtain ⟨r, hr, hcall⟩ := List.mem_map.mp hcall
    cases hcall
    simpa using (List.mem_filter.mp hr).2
  · obtain ⟨r, _, hcall⟩ := List.mem_map.mp hcall
    cases hcall
  · cases hcall

/-- Each dial of an mDNS event names the peer that it is for. -/
theorem nodup_freshDials {fresh : List PeerId} (h : fresh.Nodup) :
    ((s.freshDials I publicKeyOf fresh).map (·.peerId)).Nodup := by
  rw [Loop.freshDials, List.map_filterMap]
  refine h.filterMap fun p q d hp hq => ?_
  simp only [Option.mem_def, Option.map_eq_some_iff, Option.ite_none_left_eq_some] at hp hq
  obtain ⟨d₁, ⟨_, _, _, rfl⟩, rfl⟩ := hp
  obtain ⟨d₂, ⟨_, _, _, rfl⟩, hd⟩ := hq
  exact (Option.some.inj hd).symm

/-- In every run of the loop a dial is warranted: neither re-dial nor discovery reaches for a
connected peer, nor discovery for one that the group does not authorize. A step makes boundedly many
dials, and the tables stay within their bounds. -/
theorem every_dial_is_warranted {topic : String}
    (h : Steps (enabled (Loop.next I publicKeyOf)) (.start topic localPeer initial) es s)
    (hs : s.step I publicKeyOf e = some (s', dials)) :
    (∀ d ∈ dials, Warranted I publicKeyOf localPeer initial es s e d) ∧
      dials.length ≤ maxDials e ∧
      (∀ records, e = .found records → (dials.map (·.peerId)).Nodup) ∧
      s'.bootstrap.length ≤ maxBootstrap ∧ s'.discovered.size ≤ maxDiscoveredPeers := by
  have htracked := tracked_of_steps h
  have hmoved := moved_of_step hs
  have htracked' := htracked.step hmoved
  refine ⟨?_, ?_, ?_, htracked'.bound, htracked'.discovered ▸ size_table _⟩
  · intro d hd
    cases hmoved with
    | wire => cases hd
    | expired => cases hd
    | asked hw ha =>
      obtain ⟨he, hq⟩ := asked_eq_some ha
      rw [List.mem_singleton.mp hd]
      exact .asked he (htracked.queued _ hq)
    | redial =>
      obtain hd | hd := List.mem_append.mp hd
      · obtain ⟨addr, haddr, rfl⟩ := List.mem_map.mp hd
        obtain ⟨hm, hdue⟩ := List.mem_filter.mp (List.mem_of_mem_take haddr)
        obtain ⟨hnamed, hunnamed⟩ := addrDue_iff.mp hdue
        exact .kept rfl (htracked.known addr hm) hnamed hunnamed
      · obtain ⟨⟨p, addrs⟩, hentry, rfl⟩ := List.mem_map.mp hd
        obtain ⟨hm, hdue⟩ := List.mem_filter.mp (List.mem_of_mem_take hentry)
        exact .of_table htracked'.discovered (ExtTreeMap.mem_toList_iff_getElem?_eq_some.mp hm)
          (peerDue_iff.mp hdue)
    | found records ht hr =>
      obtain ⟨p, _, hd⟩ := List.mem_filterMap.mp hd
      rw [Option.ite_none_left_eq_some, Option.map_eq_some_iff] at hd
      obtain ⟨hdue, addrs, haddrs, rfl⟩ := hd
      refine .of_table htracked'.discovered haddrs ?_
      simpa [peerAuthorized_iff] using hdue
  · cases hmoved with
    | wire => exact Nat.zero_le _
    | expired => exact Nat.zero_le _
    | asked => exact Nat.le_refl 1
    | redial =>
      rw [Loop.redialDials, List.length_append, List.length_map, List.length_map]
      exact Nat.add_le_add (List.length_take_le _ _) (List.length_take_le _ _)
    | found records ht hr =>
      obtain ⟨hlen, _⟩ := htracked.fresh hr
      exact (List.length_filterMap_le _ _).trans hlen
  · rintro records rfl
    cases hmoved with
    | found records ht hr =>
      exact nodup_freshDials (htracked.fresh hr).2.1

/-- A peer is within the reach of the next re-dial: it is kept or discovered, and what is due fits in
one tick. -/
def Reached (I : Libp2p Key) (publicKeyOf : PeerId → Option Key) (s : Loop) (p : PeerId) : Prop :=
  (∃ addr ∈ s.bootstrap, bootstrapPeerId addr = some p ∧
      (s.bootstrap.filter (s.connectivity I publicKeyOf).addrDue).length ≤ maxRedialPerTick) ∨
    p ∈ s.discovered ∧
      (s.discovered.toList.filter (s.connectivity I publicKeyOf).peerDue).length ≤ maxRedialPerTick

theorem dialed_of_reached {key : Key} {a : String} (hkey : publicKeyOf (I.toPeerId key) = some key)
    (ha : I.addressFromPublicKey key = some a) (hauth : a ∈ s.wire.authorized)
    (hl : ¬ s.wire.Live (I.toPeerId key)) (hreached : Reached I publicKeyOf s (I.toPeerId key)) :
    ∃ d ∈ s.redialDials I publicKeyOf, d.peerId = some (I.toPeerId key) := by
  obtain ⟨addr, haddr, hp, hfew⟩ | ⟨hp, hfew⟩ := hreached
  · have hopts : (redialOpts addr).peerId = some (I.toPeerId key) := by simp [redialOpts, hp]
    refine ⟨redialOpts addr, List.mem_append_left _ (List.mem_map_of_mem ?_), hopts⟩
    rw [redialTargets, List.take_of_length_le hfew]
    refine List.mem_filter.mpr ⟨haddr, addrDue_iff.mpr ⟨fun q hq => ?_, fun hn => ?_⟩⟩
    · rw [hp] at hq
      cases hq
      exact hl
    · rw [hp] at hn
      cases hn
  · obtain ⟨addrs, haddrs⟩ : ∃ addrs, s.discovered[I.toPeerId key]? = some addrs :=
      ⟨_, ExtTreeMap.getElem?_eq_some_getElem hp⟩
    refine ⟨discoveredOpts (I.toPeerId key, addrs),
      List.mem_append_right _ (List.mem_map_of_mem ?_), rfl⟩
    rw [discoveryTargets, List.take_of_length_le hfew]
    refine List.mem_filter.mpr ⟨ExtTreeMap.mem_toList_iff_getElem?_eq_some.mpr haddrs,
      peerDue_iff.mpr ⟨hl, a, ?_, hauth⟩⟩
    rw [addressFromPeerId, hkey, Option.bind_some, ha]

theorem step_redial (ht : s.wire.task = .idle) :
    s.step I publicKeyOf .redial = some (s, s.redialDials I publicKeyOf) := by
  rw [Loop.step, if_pos ht]

/-- A peer that mDNS finds is refused, closes, and is authorized after that. -/
def refusedEarly : List (Event String) :=
  .found [(m1, [.other "ip4/10.0.0.2", .p2p m1])] :: [.established m1, .identify m1 m1, .resume,
    .closed m1 false, .authorize m1].map .wire

theorem refusedEarly_runs : ∃ s, Steps (enabled (Loop.next plainLibp2p some))
    (.start "group" m2 []) refusedEarly s ∧ s.wire.task = .idle ∧ m1 ∈ s.wire.authorized ∧
      m1 ∉ s.wire.connected ∧ ¬ s.wire.Live m1 ∧ Reached plainLibp2p some s m1 := by
  have hrun : (refusedEarly.foldlM (Loop.next plainLibp2p some) (.start "group" m2 [])).any
      (fun s => decide (s.wire.task = .idle) && s.wire.authorized.contains m1 &&
        !s.wire.connected.contains m1 && !decide (s.wire.Live m1) && s.discovered.contains m1 &&
        decide ((s.discovered.toList.filter
          (s.connectivity plainLibp2p some).peerDue).length ≤ maxRedialPerTick)) = true := by
    decide +kernel
  obtain ⟨s, hs, hprop⟩ := (Option.any_eq_true _ _).mp hrun
  simp only [Bool.and_eq_true, decide_eq_true_eq, Bool.not_eq_true', decide_eq_false_iff_not,
    contains_eq_false_iff] at hprop
  obtain ⟨⟨⟨⟨⟨ht, hauth⟩, hc⟩, hl⟩, hd⟩, hfew⟩ := hprop
  exact ⟨s, steps_enabled_iff.mpr hs, ht, Std.ExtTreeSet.contains_iff_mem.mp hauth, hc, hl,
    .inr ⟨ExtTreeMap.contains_iff_mem.mp hd, hfew⟩⟩

theorem every_dial_is_warranted_sample :
    ∃ s, Steps (enabled (Loop.next plainLibp2p some)) (.start "group" m2 []) refusedEarly s ∧
      ∃ d ∈ s.redialDials plainLibp2p some, d.peerId = some m1 ∧
        Warranted plainLibp2p some m2 [] refusedEarly s .redial d := by
  obtain ⟨s, hsteps, ht, hauth, _, hl, hreached⟩ := refusedEarly_runs
  obtain ⟨d, hd, hp⟩ : ∃ d ∈ s.redialDials plainLibp2p some, d.peerId = some m1 :=
    dialed_of_reached (I := plainLibp2p) rfl rfl hauth hl hreached
  obtain ⟨hwarranted, _⟩ := every_dial_is_warranted hsteps (step_redial ht)
  exact ⟨s, hsteps, d, hd, hp, hwarranted d hd⟩

end CitrateCluster.Dialing
