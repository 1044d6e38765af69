import CitrateCluster.StateWrites

namespace CitrateCluster.Bounds

open Std (ExtTreeMap ExtTreeSet)
open Text Runs Roster Collections Device Registry Transport Session Daemon ClusterDaemon Ipc
  DaemonStep GroupState StateWrites

variable {T : Type} {V : LinkVerifier} {d d' : ClusterDaemon T} {g : String}

/-- The bounds on what a daemon keeps for its groups, and whose it is. -/
structure Bounded (d : ClusterDaemon T) : Prop where
  size : d.groups.size ≤ maxGroups
  named : ∀ g ∈ d.groups, (trim g).isEmpty = false
  pinned : ∀ g ∈ d.groups, ∀ p, d.singleGroup = some p → g = p
  shared : ∀ (g : String) (set : ExtTreeSet String), d.sharedFiles[g]? = some set →
    g ∈ d.groups ∧ set.size ≤ maxSharedFiles ∧ ∀ cid ∈ set, isValidCid cid = true
  links : ∀ g, (registryOf d g).links.size ≤ maxLinksPerUpdate
  wellFormed : ∀ g, WellFormed (registryOf d g)

theorem bounded_of_initial (h : Initial d) : Bounded d := by
  have hreg : ∀ g, registryOf d g = .new := by
    intro g
    simp only [registryOf, h.deviceState]
    rfl
  refine ⟨?_, ?_, ?_, ?_, ?_, ?_⟩
  · simp [h.groups]
  · simp [h.groups]
  · simp [h.groups]
  · simp [h.sharedFiles]
  · intro g
    rw [hreg]
    exact Nat.zero_le _
  · intro g
    rw [hreg]
    exact wellFormed_new

theorem eq_of_ensureGroupAllowed (h : d.ensureGroupAllowed g = .ok ()) {p : String}
    (hp : d.singleGroup = some p) : g = p := by
  by_contra hne
  simp [ensureGroupAllowed, hp, Ne.symm hne] at h

theorem Bounded.session {s : ClusterSession T} (h : Bounded d)
    (hg : g ∈ d.groups ∨ Startable d g) : Bounded (d.setSession g s) := by
  have hmem : ∀ k, k ∈ (d.setSession g s).groups ↔ k = g ∨ k ∈ d.groups := by
    intro k
    rw [setSession, mem_keys_insert]
  have hold : ∀ k, k ∈ (d.setSession g s).groups → k ∈ d.groups ∨ k = g ∧ Startable d g := by
    intro k hk
    obtain rfl | hk := (hmem k).mp hk
    · exact hg.imp_right fun hg => ⟨rfl, hg⟩
    · exact .inl hk
  refine ⟨?_, fun k hk => ?_, fun k hk p hp => ?_, fun k set hset => ?_, h.links, h.wellFormed⟩
  · rw [setSession, ExtTreeMap.size_insert]
    split
    · exact h.size
    · next hn => exact (hg.resolve_left hn).room
  · obtain hk | ⟨rfl, hs⟩ := hold k hk
    · exact h.named k hk
    · exact hs.named
  · obtain hk | ⟨rfl, hs⟩ := hold k hk
    · exact h.pinned k hk p hp
    · exact eq_of_ensureGroupAllowed hs.allowed hp
  · obtain ⟨hk, hset⟩ := h.shared k set hset
    exact ⟨(hmem k).mpr (.inr hk), hset⟩

theorem Bounded.share {set : ExtTreeSet String} (h : Bounded d) (hg : g ∈ d.groups)
    (hset : Grows (isValidCid · = true) (d.sharedFiles[g]?.getD ∅) set) :
    Bounded { d with sharedFiles := d.sharedFiles.insert g set } := by
  have hold : (d.sharedFiles[g]?.getD ∅).size ≤ maxSharedFiles ∧
      ∀ cid ∈ d.sharedFiles[g]?.getD ∅, isValidCid cid = true := by
    cases hs : d.sharedFiles[g]? with
    | none => simp
    | some old => exact (h.shared g old hs).2
  refine ⟨h.size, h.named, h.pinned, fun k set' hk => ?_, h.links, h.wellFormed⟩
  obtain ⟨rfl, rfl⟩ | ⟨_, hk⟩ := getElem?_insert_eq_some.mp hk
  · exact ⟨hg, hset.size_le hold.1, fun cid hcid => (hset.mem hcid).elim (hold.2 cid) id⟩
  · exact h.shared k set' hk

theorem Bounded.leave (h : Bounded d) : Bounded (d.leave g) := by
  have hmem : ∀ k, k ∈ (d.leave g).groups ↔ k ≠ g ∧ k ∈ d.groups := by
    intro k
    rw [ClusterDaemon.leave, mem_keys_erase]
  refine ⟨?_, fun k hk => h.named k ((hmem k).mp hk).2,
    fun k hk => h.pinned k ((hmem k).mp hk).2, fun k set hk => ?_, h.links, h.wellFormed⟩
  · exact ExtTreeMap.size_erase_le.trans h.size
  · obtain ⟨hne, hk⟩ := getElem?_erase_eq_some.mp hk
    obtain ⟨hg, hset⟩ := h.shared k set hk
    exact ⟨(hmem k).mpr ⟨hne, hg⟩, hset⟩

theorem Bounded.write (h : Bounded d) (hw : Write V g d d') : Bounded d' := by
  cases hw with
  | session s hg => exact h.session hg
  | shared hg hset => exact h.share hg hset
  | leave => exact h.leave
  | devices roster links revocations =>
    let state : GroupDevices := ⟨roster, (registryAfter V d g links revocations).2⟩
    have hreg : ∀ k, registryOf { d with deviceState := d.deviceState.insert g state } k =
        if k = g then (registryAfter V d g links revocations).2 else registryOf d k := by
      intro k
      by_cases hk : k = g
      · simp [registryOf, state, hk]
      · simp [registryOf, ExtTreeMap.getElem?_insert, hk, Ne.symm hk]
    refine ⟨h.size, h.named, h.pinned, h.shared, fun k => ?_, fun k => ?_⟩
    · rw [hreg]
      split
      · exact size_links_update (h.links g)
      · exact h.links k
    · rw [hreg]
      split
      · exact (h.wellFormed g).update V _ _
      · exact h.wellFormed k

theorem Bounded.writes (h : Bounded d) (hw : Writes V g d d') : Bounded d' := by
  induction hw with
  | refl => exact h
  | tail _ hw ih => exact ih.write hw

variable [MeshTransport T]

theorem Bounded.step {e : Event T} (h : Bounded d) (hs : total (step V) d e d') : Bounded d' := by
  subst hs
  cases he : eventGroup e with
  | some g => exact h.writes (writes_step d he)
  | none =>
    cases e with
    | factory => exact ⟨h.size, h.named, h.pinned, h.shared, h.links, h.wellFormed⟩
    | _ => cases he

/-- In every run, whatever the transports deliver, a daemon keeps within its bounds: at most
`maxGroups` sessions, none unnamed or beside the pinned group, shared files only for its sessions,
well formed and at most `maxSharedFiles`, and for each group at most `maxLinksPerUpdate` links,
each filed under its own device, valid and not revoked. -/
theorem daemon_keeps_its_bounds {es : List (Event T)} (hd : Initial d)
    (h : Steps (total (Ipc.step V)) d es d') :
    d'.groups.size ≤ maxGroups ∧
      (∀ g ∈ d'.groups, (trim g).isEmpty = false ∧ ∀ p, d'.singleGroup = some p → g = p) ∧
      (∀ (g : String) (set : ExtTreeSet String), d'.sharedFiles[g]? = some set →
        g ∈ d'.groups ∧ set.size ≤ maxSharedFiles ∧ ∀ cid ∈ set, isValidCid cid = true) ∧
      ∀ g, (registryOf d' g).links.size ≤ maxLinksPerUpdate ∧
        ∀ (device : String) (l : DeviceLink), (registryOf d' g).links[device]? = some l →
          l.device = device ∧ Canonical device ∧ device ≠ l.member ∧ device ≠ l.wallet ∧
            (l.member, device) ∉ (registryOf d' g).revoked := by
  have hbound := h.invariant (I := Bounded) (fun _ _ _ hb hs => hb.step hs) (bounded_of_initial hd)
  refine ⟨hbound.size, fun g hg => ⟨hbound.named g hg, hbound.pinned g hg⟩, hbound.shared,
    fun g => ⟨hbound.links g, fun device l hl => ?_⟩⟩
  obtain ⟨rfl, hvalid, hrev⟩ := (hbound.wellFormed g).links device l hl
  exact ⟨rfl, hvalid.device, hvalid.device_ne_member, hvalid.device_ne_wallet, hrev⟩

theorem daemon_keeps_its_bounds_sample :
    ∃ set, (([.request (.setRoster "group" [(m1, "member")] [] []),
        .request (.shareFile "group" (cidOf '1'))] : List (Event InProcessTransport)).foldl
          (step plainVerifier) Admission.nodeDaemon).sharedFiles["group"]? = some set ∧
      cidOf '1' ∈ set ∧ set.size ≤ maxSharedFiles ∧ ∀ c ∈ set, isValidCid c = true := by
  have hrun : (([.request (.setRoster "group" [(m1, "member")] [] []),
      .request (.shareFile "group" (cidOf '1'))] : List (Event InProcessTransport)).foldl
        (step plainVerifier) Admission.nodeDaemon).sharedFiles["group"]?.any
          (fun set => set.contains (cidOf '1')) = true := by
    decide +kernel
  obtain ⟨set, hset, hm⟩ := (Option.any_eq_true _ _).mp hrun
  exact ⟨set, hset, ExtTreeSet.contains_iff_mem.mp hm, ((daemon_keeps_its_bounds
    (initial_withFactory _ _) (steps_total_iff.mpr rfl)).2.2.1 "group" set hset).2⟩

end CitrateCluster.Bounds
