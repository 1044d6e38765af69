import CitrateCluster.PeerAddrs
import CitrateCluster.Recency
import CitrateCluster.Collections

namespace CitrateCluster.Discovered

open Std (ExtTreeMap)
open PeerAddrs Collections Recency

def maxDiscoveredPeers : Nat := 256

def maxDiscoveredAddrs : Nat := 8

abbrev Table := ExtTreeMap PeerId (List Multiaddr)

/-- Record an address of a peer, and say whether anything new was learned. A new peer past the cap is
ignored; among the addresses of a peer the oldest makes room. -/
def rememberDiscovered (discovered : Table) (peer : PeerId) (addr : Multiaddr) : Bool × Table :=
  if !discovered.contains peer && decide (discovered.size ≥ maxDiscoveredPeers) then
    (false, discovered)
  else
    let addrs := discovered[peer]?.getD []
    if addrs.contains addr then (false, discovered.insert peer addrs)
    else
      let addrs := if addrs.length ≥ maxDiscoveredAddrs then addrs.tail else addrs
      (true, discovered.insert peer (addrs ++ [addr]))

/-- Drop an expired record; a peer with no address left is forgotten. -/
def forgetDiscovered (discovered : Table) (peer : PeerId) (addr : Multiaddr) : Table :=
  match discovered[peer]? with
  | some addrs =>
    let addrs := addrs.filter (· ≠ addr)
    if addrs.isEmpty then discovered.erase peer else discovered.insert peer addrs
  | none => discovered

inductive Call where
  | remember (peer : PeerId) (addr : Multiaddr)
  | forget (peer : PeerId) (addr : Multiaddr)

/-- The table after some calls, the latest first. -/
def table : List Call → Table
  | [] => ∅
  | .remember peer addr :: calls => (rememberDiscovered (table calls) peer addr).2
  | .forget peer addr :: calls => forgetDiscovered (table calls) peer addr

/-- The addresses of a peer in a table. -/
def listed (t : Table) (p : PeerId) : List Multiaddr := t[p]?.getD []

section Steps

variable {t : Table} {p q : PeerId} {a b : Multiaddr}

theorem listed_insert (l : List Multiaddr) :
    listed (t.insert q l) p = if q = p then l else listed t p := by
  by_cases hq : q = p <;> simp [listed, ExtTreeMap.getElem?_insert, hq]

/-- What a call to remember an address does: nothing to a new peer at the cap or to a known address,
and else it adds the address. -/
theorem rememberDiscovered_cases (t : Table) (q : PeerId) (b : Multiaddr) :
    (q ∉ t ∧ maxDiscoveredPeers ≤ t.size ∧ rememberDiscovered t q b = (false, t)) ∨
      (b ∈ listed t q ∧ rememberDiscovered t q b = (false, t)) ∨
      (b ∉ listed t q ∧ (q ∈ t ∨ t.size < maxDiscoveredPeers) ∧ rememberDiscovered t q b =
        (true, t.insert q (push maxDiscoveredAddrs (listed t q) b))) := by
  rw [rememberDiscovered]
  split
  · next hcap =>
    simp only [Bool.and_eq_true, Bool.not_eq_true', decide_eq_true_eq] at hcap
    refine .inl ⟨?_, hcap.2, rfl⟩
    rw [← ExtTreeMap.contains_iff_mem, hcap.1]
    exact Bool.false_ne_true
  · next hcap =>
    right
    dsimp only
    split
    · next hb =>
      rw [List.contains_iff_mem] at hb
      refine .inl ⟨hb, ?_⟩
      cases hq : t[q]? with
      | none => simp [hq] at hb
      | some addrs => rw [Option.getD_some, insert_eq_self hq]
    · next hb =>
      rw [List.contains_iff_mem] at hb
      refine .inr ⟨hb, ?_, rfl⟩
      rw [← ExtTreeMap.contains_iff_mem]
      simp only [Bool.and_eq_true, Bool.not_eq_true', decide_eq_true_eq, not_and, not_le] at hcap
      by_cases hq : t.contains q = true
      · exact .inl hq
      · exact .inr (hcap (Bool.eq_false_iff.mpr hq))

theorem listed_forgetDiscovered (t : Table) (q p : PeerId) (b : Multiaddr) :
    listed (forgetDiscovered t q b) p =
      if q = p then (listed t p).filter (· ≠ b) else listed t p := by
  rw [forgetDiscovered]
  cases hq : t[q]? with
  | none =>
    by_cases hp : q = p
    · subst hp
      simp [listed, hq]
    · simp [hp]
  | some addrs =>
    dsimp only
    split
    · next hempty =>
      by_cases hp : q = p
      · subst hp
        have hall : ∀ a ∈ addrs, a = b := by simpa using hempty
        simpa [listed, hq] using hall
      · simp [listed, ExtTreeMap.getElem?_erase, hp]
    · rw [listed_insert]
      by_cases hp : q = p
      · subst hp
        simp [listed, hq]
      · simp [hp]

end Steps

section History

variable {calls later earlier : List Call} {p q : PeerId} {a b : Multiaddr}

/-- A call to remember an address after some others is taken. -/
def Taken (earlier : List Call) (p : PeerId) (a : Multiaddr) : Prop :=
  (rememberDiscovered (table earlier) p a).1 = true

instance : Decidable (Taken earlier p a) := inferInstanceAs (Decidable (_ = true))

/-- What a call does to the addresses of one peer. -/
def effect (p : PeerId) (earlier : List Call) : Call → Option (Change Multiaddr)
  | .remember q b => if q = p ∧ Taken earlier q b then some (.add b) else none
  | .forget q b => if q = p then some (.drop b) else none

/-- The addresses of a peer that were remembered after some earlier calls and not forgotten since,
oldest first. -/
def newerThan (p : PeerId) (earlier later : List Call) : List Multiaddr :=
  newer (effect p) earlier later

/-- An address that a call remembered was neither forgotten since nor pushed out: at no time had
`maxDiscoveredAddrs` newer addresses of the peer been remembered and not forgotten. -/
structure Remembered (p : PeerId) (a : Multiaddr) (later earlier : List Call) : Prop where
  taken : Taken earlier p a
  kept : .forget p a ∉ later
  room : ∀ mid, mid <:+ later →
    (newerThan p (.remember p a :: earlier) mid).length < maxDiscoveredAddrs

/-- One address of a peer was remembered before another. -/
def Older (calls : List Call) (p : PeerId) (a b : Multiaddr) : Prop :=
  ∃ later mid earlier, calls = later ++ .remember p b :: (mid ++ .remember p a :: earlier) ∧
    Remembered p a (later ++ .remember p b :: mid) earlier ∧
    Remembered p b later (mid ++ .remember p a :: earlier)

theorem listed_table (p : PeerId) (calls : List Call) :
    listed (table calls) p = content maxDiscoveredAddrs (effect p) calls := by
  induction calls with
  | nil => simp [listed, table, content]
  | cons c calls ih =>
    rw [content, ← ih]
    cases c with
    | remember q b =>
      rw [table, effect]
      obtain ⟨_, _, h⟩ | ⟨_, h⟩ | ⟨_, _, h⟩ := rememberDiscovered_cases (table calls) q b
      · simp [Taken, h]
      · simp [Taken, h]
      · by_cases hq : q = p
        · subst hq
          simp [Taken, h, listed_insert]
        · simp [Taken, h, listed_insert, hq]
    | forget q b =>
      rw [table, effect, listed_forgetDiscovered]
      by_cases hq : q = p <;> simp [hq]

theorem taken_iff : Taken calls p a ↔
    a ∉ listed (table calls) p ∧ (p ∈ table calls ∨ (table calls).size < maxDiscoveredPeers) := by
  rw [Taken]
  obtain ⟨hp, hsize, h⟩ | ⟨ha, h⟩ | ⟨ha, hp, h⟩ := rememberDiscovered_cases (table calls) p a
  · simp [h, hp, Nat.not_lt.mpr hsize]
  · simp [h, ha]
  · simp [h, ha, hp]

theorem fresh_effect (p : PeerId) : Fresh maxDiscoveredAddrs (effect p) := by
  intro calls c a h
  rw [← listed_table]
  cases c with
  | forget q b => simp [effect] at h
  | remember q b =>
    simp only [effect, Option.ite_none_right_eq_some, Option.some.injEq, Change.add.injEq] at h
    obtain ⟨⟨rfl, htaken⟩, rfl⟩ := h
    exact (taken_iff.mp htaken).1

theorem effect_add_iff {c : Call} :
    effect p calls c = some (.add a) ↔ c = .remember p a ∧ Taken calls p a := by
  cases c with
  | forget q b => simp [effect]
  | remember q b =>
    simp only [effect, Option.ite_none_right_eq_some, Option.some.injEq, Change.add.injEq,
      Call.remember.injEq]
    constructor
    · rintro ⟨⟨rfl, h⟩, rfl⟩
      exact ⟨⟨rfl, rfl⟩, h⟩
    · rintro ⟨⟨rfl, rfl⟩, h⟩
      exact ⟨⟨rfl, h⟩, rfl⟩

theorem effect_drop_iff {c : Call} : effect p calls c = some (.drop a) ↔ c = .forget p a := by
  cases c with
  | remember q b => simp [effect]
  | forget q b => simp [effect]

theorem standing_iff {c : Call} :
    Standing maxDiscoveredAddrs (effect p) a later c earlier ↔
      c = .remember p a ∧ Remembered p a later earlier := by
  constructor
  · rintro ⟨hadd, hkept, hroom⟩
    obtain ⟨rfl, htaken⟩ := effect_add_iff.mp hadd
    refine ⟨rfl, htaken, fun hm => ?_, hroom⟩
    obtain ⟨l, m, rfl⟩ := List.append_of_mem hm
    exact hkept l _ m rfl (effect_drop_iff.mpr rfl)
  · rintro ⟨rfl, htaken, hkept, hroom⟩
    refine ⟨effect_add_iff.mpr ⟨rfl, htaken⟩, fun l c m hm hc => ?_, hroom⟩
    rw [hm, effect_drop_iff.mp hc] at hkept
    exact hkept (List.mem_append_right l List.mem_cons_self)

theorem older_of_before (h : Before maxDiscoveredAddrs (effect p) calls a b) :
    Older calls p a b := by
  obtain ⟨later, f, mid, e, earlier, hcalls, ha, hb⟩ := h
  obtain ⟨rfl, hra⟩ := standing_iff.mp ha
  obtain ⟨rfl, hrb⟩ := standing_iff.mp hb
  exact ⟨later, mid, earlier, hcalls, hra, hrb⟩

theorem mem_listed_iff : a ∈ listed (table calls) p ↔
    ∃ later earlier, calls = later ++ .remember p a :: earlier ∧ Remembered p a later earlier := by
  rw [listed_table, mem_content_iff (by decide) (fresh_effect p)]
  constructor
  · rintro ⟨later, c, earlier, hcalls, h⟩
    obtain ⟨rfl, hr⟩ := standing_iff.mp h
    exact ⟨later, earlier, hcalls, hr⟩
  · rintro ⟨later, earlier, hcalls, h⟩
    exact ⟨later, _, earlier, hcalls, standing_iff.mpr ⟨rfl, h⟩⟩

/-- A taken address is in the table afterwards, and a refused one is as it was. -/
theorem taken_iff_learned : Taken calls p a ↔
    a ∉ listed (table calls) p ∧ a ∈ listed (rememberDiscovered (table calls) p a).2 p := by
  rw [Taken]
  obtain ⟨_, _, h⟩ | ⟨ha, h⟩ | ⟨ha, _, h⟩ := rememberDiscovered_cases (table calls) p a
  · simp [h]
  · simp [h, ha]
  · simp [h, ha, listed_insert, push]

theorem size_forgetDiscovered (t : Table) (p : PeerId) (a : Multiaddr) :
    (forgetDiscovered t p a).size ≤ t.size := by
  rw [forgetDiscovered]
  split
  · next addrs hp =>
    dsimp only
    split
    · exact ExtTreeMap.size_erase_le
    · have hmem : p ∈ t := by
        rw [ExtTreeMap.mem_iff_isSome_getElem?, hp]
        rfl
      simp [ExtTreeMap.size_insert, hmem]
  · exact le_rfl

theorem size_table (calls : List Call) : (table calls).size ≤ maxDiscoveredPeers := by
  induction calls with
  | nil => exact Nat.zero_le _
  | cons c calls ih =>
    cases c with
    | forget q b => exact (size_forgetDiscovered _ q b).trans ih
    | remember q b =>
      rw [table]
      obtain ⟨_, _, h⟩ | ⟨_, h⟩ | ⟨_, hq, h⟩ := rememberDiscovered_cases (table calls) q b
      · rwa [h]
      · rwa [h]
      · rw [h, ExtTreeMap.size_insert]
        split
        · exact ih
        · next hn => exact hq.resolve_left hn

theorem ne_nil_of_table {addrs : List Multiaddr} (h : (table calls)[p]? = some addrs) :
    addrs ≠ [] := by
  induction calls generalizing addrs with
  | nil => simp [table] at h
  | cons c calls ih =>
    cases c with
    | remember q b =>
      rw [table] at h
      obtain ⟨_, _, hr⟩ | ⟨_, hr⟩ | ⟨_, _, hr⟩ := rememberDiscovered_cases (table calls) q b
      · rw [hr] at h
        exact ih h
      · rw [hr] at h
        exact ih h
      · rw [hr, getElem?_insert_eq_some] at h
        obtain ⟨_, rfl⟩ | ⟨_, h⟩ := h
        · exact List.append_ne_nil_of_right_ne_nil _ (List.cons_ne_nil b [])
        · exact ih h
    | forget q b =>
      rw [table, forgetDiscovered] at h
      split at h
      · dsimp only at h
        split at h
        · exact ih (getElem?_erase_eq_some.mp h).2
        · next hne =>
          obtain ⟨_, rfl⟩ | ⟨_, h⟩ := getElem?_insert_eq_some.mp h
          · simpa using hne
          · exact ih h
      · exact ih h

/-- After any calls the table keeps within its bounds, and the addresses of a peer are without
repetition and in the order in which they were remembered. A call says whether it brought a new
address into the table, which it does unless the peer is a new one at the cap; and the addresses in
the table are those that were remembered, not forgotten since and not pushed out by newer ones. -/
theorem discovered_keeps_its_shape (calls : List Call) :
    (table calls).size ≤ maxDiscoveredPeers ∧
      (∀ (p : PeerId) addrs, (table calls)[p]? = some addrs →
        1 ≤ addrs.length ∧ addrs.length ≤ maxDiscoveredAddrs ∧ addrs.Nodup ∧
          addrs.Pairwise (Older calls p)) ∧
      (∀ p a, ((rememberDiscovered (table calls) p a).1 = true ↔
          a ∉ listed (table calls) p ∧ a ∈ listed (rememberDiscovered (table calls) p a).2 p) ∧
        ((rememberDiscovered (table calls) p a).1 = true ↔ a ∉ listed (table calls) p ∧
          (p ∈ table calls ∨ (table calls).size < maxDiscoveredPeers))) ∧
      ∀ p a, a ∈ listed (table calls) p ↔
        ∃ later earlier, calls = later ++ .remember p a :: earlier ∧ Remembered p a later earlier := by
  refine ⟨size_table calls, fun p addrs h => ?_, fun p a => ⟨taken_iff_learned, taken_iff⟩,
    fun p a => mem_listed_iff⟩
  have hcontent : addrs = content maxDiscoveredAddrs (effect p) calls := by
    rw [← listed_table, listed, h, Option.getD_some]
  refine ⟨List.length_pos_iff.mpr (ne_nil_of_table h), ?_, ?_, ?_⟩
  · exact hcontent ▸ length_content (by decide) calls
  · exact hcontent ▸ nodup_content (fresh_effect p) calls
  · rw [hcontent]
    exact (pairwise_content (by decide) (fresh_effect p) calls).imp older_of_before

end History

end CitrateCluster.Discovered
