import CitrateCluster.GroupState

namespace CitrateCluster.StateWrites

open Std (ExtTreeMap ExtTreeSet)
open Text Runs Roster Collections Device EffectiveRoster Transport Session Daemon ClusterDaemon Ipc
  DaemonStep GroupState Relation

/-- A shared set grows by files of one kind, each known already or below the cap. -/
inductive Grows (P : String → Prop) (s : ExtTreeSet String) : ExtTreeSet String → Prop where
  | refl : Grows P s s
  | keep {t : ExtTreeSet String} {cid : String} (h : Grows P s t) (hcid : P cid)
      (hroom : cid ∈ t ∨ t.size < maxSharedFiles) : Grows P s (t.insert cid)

section Grows

variable {P Q : String → Prop} {s t : ExtTreeSet String}

theorem Grows.size_le (h : Grows P s t) (hs : s.size ≤ maxSharedFiles) :
    t.size ≤ maxSharedFiles := by
  induction h with
  | refl => exact hs
  | keep _ _ hroom ih =>
    rw [ExtTreeSet.size_insert]
    split
    · exact ih
    · next hm => exact hroom.resolve_left hm

theorem Grows.size_le_max (h : Grows P s t) : t.size ≤ max s.size maxSharedFiles := by
  induction h with
  | refl => exact le_max_left _ _
  | keep _ _ hroom ih =>
    rw [ExtTreeSet.size_insert]
    split
    · exact ih
    · next hm => exact le_max_of_le_right (hroom.resolve_left hm)

theorem Grows.mono (h : Grows P s t) {cid : String} (hm : cid ∈ s) : cid ∈ t := by
  induction h with
  | refl => exact hm
  | keep _ _ _ ih => exact mem_insert_iff.mpr (.inr ih)

theorem Grows.trans {u : ExtTreeSet String} (h : Grows P s t) (h' : Grows P t u) : Grows P s u := by
  induction h' with
  | refl => exact h
  | keep _ hcid hroom ih => exact ih.keep hcid hroom

theorem Grows.mem (h : Grows P s t) {cid : String} (hm : cid ∈ t) : cid ∈ s ∨ P cid := by
  induction h with
  | refl => exact .inl hm
  | keep _ hcid _ ih =>
    obtain rfl | hm := mem_insert_iff.mp hm
    · exact .inr hcid
    · exact ih hm

theorem grows_foldl_keepShared {messages : List MeshMessage} (hm : ∀ m ∈ messages, P m.data)
    (h : Grows P s t) : Grows P s (messages.foldl keepShared t) := by
  induction messages generalizing t with
  | nil => exact h
  | cons m messages ih =>
    apply ih fun m' hm' => hm m' (List.mem_cons_of_mem m hm')
    rw [keepShared]
    split
    · next hroom => exact h.keep (hm m List.mem_cons_self) (.inr hroom)
    · exact h

end Grows

variable {T : Type} {V : LinkVerifier} {d d' d'' : ClusterDaemon T} {g k : String}
  {s : ClusterSession T}

/-- What the daemon checks before it starts a session for a group. -/
structure Startable (d : ClusterDaemon T) (g : String) : Prop where
  allowed : d.ensureGroupAllowed g = .ok ()
  named : (trim g).isEmpty = false
  room : d.groups.size < maxGroups

/-- One write to the state of a group. -/
inductive Write (V : LinkVerifier) (g : String) (d : ClusterDaemon T) : ClusterDaemon T → Prop where
  | session (s : ClusterSession T) (hg : g ∈ d.groups ∨ Startable d g) : Write V g d (d.setSession g s)
  | shared {set : ExtTreeSet String} (hg : g ∈ d.groups)
      (h : Grows (isValidCid · = true) (d.sharedFiles[g]?.getD ∅) set) :
      Write V g d { d with sharedFiles := d.sharedFiles.insert g set }
  | devices (roster : Entries) (links : List DeviceLinkWire) (revocations : List RevocationWire) :
      Write V g d { d with
        deviceState := d.deviceState.insert g ⟨roster, (registryAfter V d g links revocations).2⟩ }
  | leave : Write V g d (d.leave g)

/-- A daemon after a number of writes to the state of one group. -/
abbrev Writes (V : LinkVerifier) (g : String) : ClusterDaemon T → ClusterDaemon T → Prop :=
  ReflTransGen (Write V g)

/-- A write that does not end a session, so that the shared set of the group only grows. -/
structure Kept (V : LinkVerifier) (g : String) (d d' : ClusterDaemon T) : Prop where
  write : Write V g d d'
  grows : Grows (isValidCid · = true) (d.sharedFiles[g]?.getD ∅) (d'.sharedFiles[g]?.getD ∅)

/-- A daemon after a number of writes to the state of one group that do not end its session. -/
abbrev Keeps (V : LinkVerifier) (g : String) : ClusterDaemon T → ClusterDaemon T → Prop :=
  ReflTransGen (Kept V g)

theorem Keeps.writes (h : Keeps V g d d') : Writes V g d d' :=
  ReflTransGen.mono (fun _ _ => Kept.write) d d' h

theorem Keeps.grows (h : Keeps V g d d') :
    Grows (isValidCid · = true) (d.sharedFiles[g]?.getD ∅) (d'.sharedFiles[g]?.getD ∅) := by
  induction h with
  | refl => exact .refl
  | tail _ hk ih => exact ih.trans hk.grows

theorem kept_session (s : ClusterSession T) (hg : g ∈ d.groups ∨ Startable d g) :
    Kept V g d (d.setSession g s) := ⟨.session s hg, .refl⟩

theorem kept_shared {set : ExtTreeSet String} (hg : g ∈ d.groups)
    (h : Grows (isValidCid · = true) (d.sharedFiles[g]?.getD ∅) set) :
    Kept V g d { d with sharedFiles := d.sharedFiles.insert g set } where
  write := .shared hg h
  grows := by rwa [ExtTreeMap.getElem?_insert_self]

theorem kept_devices (roster : Entries) (links : List DeviceLinkWire)
    (revocations : List RevocationWire) : Kept V g d { d with
      deviceState := d.deviceState.insert g ⟨roster, (registryAfter V d g links revocations).2⟩ } :=
  ⟨.devices roster links revocations, .refl⟩

theorem Keeps.of_session (hs : d.groups[g]? = some s) (t : ClusterSession T) :
    Keeps V g d (d.setSession g t) := by
  refine .single (kept_session t (.inl ?_))
  rw [ExtTreeMap.mem_iff_isSome_getElem?, hs]
  rfl

theorem keeps_of_ensureSession (hg : d.ensureGroupAllowed g = .ok ())
    (h : d.ensureSession g = .ok (s, d')) : Keeps V g d d' := by
  rw [ensureSession] at h
  split at h
  · cases h
    exact .refl
  · split at h
    · cases h
    · next hn =>
      split at h
      · cases h
      · next hroom =>
        split at h
        · cases h
        · cases h
          exact .single (kept_session _ (.inr ⟨hg, Bool.eq_false_iff.mpr hn, Nat.lt_of_not_le hroom⟩))

variable [MeshTransport T]

theorem keeps_syncAdmission (d : ClusterDaemon T) (g : String) :
    Keeps V g d (d.syncAdmission g) := by
  rw [syncAdmission]
  split
  · next hs => exact .of_session hs _
  · exact .refl

theorem keeps_readConnected (d : ClusterDaemon T) (g : String) :
    Keeps V g d (d.readConnected g).2 := by
  rw [readConnected]
  split
  · exact .refl
  · next hs => exact .of_session hs _

theorem keeps_drainIntoShared (d : ClusterDaemon T) (g : String) :
    Keeps V g d (d.drainIntoShared g).2 := by
  rw [drainIntoShared]
  split
  · exact .refl
  · next s hs =>
    dsimp only
    have h : Keeps V g d (d.setSession g { s with transport := (drain s.transport).2 }) :=
      .of_session hs _
    split
    · exact h
    · refine h.tail (kept_shared ?_ (grows_foldl_keepShared ?_ .refl))
      · exact ExtTreeMap.mem_insert_self
      · exact fun m hm => (List.mem_filter.mp hm).2

theorem keeps_status (d : ClusterDaemon T) (g : String) : Keeps V g d (d.status g).2 := by
  have h : Keeps V g d ((d.syncAdmission g).drainIntoShared g).2 :=
    (keeps_syncAdmission d g).trans (keeps_drainIntoShared _ g)
  simp only [status]
  split
  · exact h.trans (keeps_readConnected _ g)
  · exact h

theorem keeps_peers (d : ClusterDaemon T) (g : String) : Keeps V g d (d.peers g).2 := by
  simp only [peers]
  split
  · exact keeps_syncAdmission d g
  · exact (keeps_syncAdmission d g).trans (keeps_readConnected _ g)

theorem keeps_devices (d : ClusterDaemon T) (g : String) : Keeps V g d (d.devices g).2 := by
  simp only [devices]
  split
  · exact keeps_syncAdmission d g
  · exact (keeps_syncAdmission d g).trans (keeps_readConnected _ g)

theorem keeps_shareFile (d : ClusterDaemon T) (g cid : String) :
    Keeps V g d (d.shareFile g cid).2 := by
  rw [shareFile]
  split
  · exact .refl
  · next s hs =>
    split
    · exact .refl
    · next hcid =>
      dsimp only
      split
      · exact .refl
      · next hfull =>
        have h : Keeps V g d
            (d.setSession g { s with transport := publish s.transport d.selfAddress cid }) :=
          .of_session hs _
        refine h.tail (kept_shared (ExtTreeMap.mem_insert_self) (Grows.refl.keep ?_ ?_))
        · simpa using hcid
        · simp only [Bool.and_eq_true, Bool.not_eq_true', contains_eq_false_iff,
            decide_eq_true_eq, not_and_or, not_not, not_le] at hfull
          exact hfull

theorem keeps_seed (d : ClusterDaemon T) (g : String) : Keeps V g d (d.seed g).2 := by
  rw [seed]
  split
  · exact .refl
  · next s hs =>
    have h : Keeps V g d (d.setSession g { s with transport := (seedAddrs s.transport).2 }) :=
      .of_session hs _
    dsimp only
    split
    · exact h
    · split
      · exact h
      · split <;> exact h

theorem keeps_addSeed (d : ClusterDaemon T) (g text : String) :
    Keeps V g d (d.addSeed g text).2 := by
  rw [addSeed]
  split
  · exact .refl
  · split
    · exact .refl
    · split
      · exact .refl
      · next hs => exact .of_session hs _

omit [MeshTransport T] in
theorem keeps_join (d : ClusterDaemon T) (g : String) : Keeps V g d (d.join g).2 := by
  rw [join]
  split
  · exact .refl
  · next hg =>
    split
    · exact .refl
    · next hs => exact keeps_of_ensureSession hg hs

theorem keeps_setRosterWithDevices (d : ClusterDaemon T) (g : String) (roster : Entries)
    (links : List DeviceLinkWire) (revocations : List RevocationWire) :
    Keeps V g d (d.setRosterWithDevices V g roster links revocations).2 := by
  rw [setRosterWithDevices]
  split
  · exact .refl
  · next hg =>
    split
    · exact .refl
    · next s d₁ hs =>
      have h : Keeps V g d d₁ := keeps_of_ensureSession hg hs
      obtain ⟨_, rfl⟩ := opened_of_ensureSession hs
      dsimp only
      rw [applyRoster_of_getElem? (s := s) (by simp [setSession])]
      refine (h.tail (kept_devices roster links revocations)).tail (kept_session _ (.inl ?_))
      exact ExtTreeMap.mem_insert_self

theorem keeps_handleRequest (d : ClusterDaemon T) {r : Request} (hr : r ≠ .leave r.group) :
    Keeps V r.group d (handleRequest V d r).2 := by
  cases r with
  | setRoster g roster links revocations =>
    have h := keeps_setRosterWithDevices (V := V) d g roster links revocations
    simp only [handleRequest]
    split <;> simp_all [Request.group]
  | devices g => exact keeps_devices d g
  | join g =>
    have h := keeps_join (V := V) d g
    simp only [handleRequest]
    split <;> simp_all [Request.group]
  | leave g => exact absurd rfl hr
  | status g => exact keeps_status d g
  | peers g => exact keeps_peers d g
  | shareFile g cid =>
    have h := keeps_shareFile (V := V) d g cid
    simp only [handleRequest]
    split <;> simp_all [Request.group]
  | poll g => exact (keeps_syncAdmission d g).trans (keeps_drainIntoShared _ g)
  | sharedFiles g offset limit =>
    have h := keeps_drainIntoShared (V := V) d g
    simp only [handleRequest, sharedFilesPage]
    split <;> exact h
  | seed g =>
    have h := keeps_seed (V := V) d g
    simp only [handleRequest]
    split <;> simp_all [Request.group]
  | addSeed g text =>
    have h := keeps_addSeed (V := V) d g text
    simp only [handleRequest]
    split <;> simp_all [Request.group]

/-- The group that an event is addressed to; a new factory is addressed to none. -/
def eventGroup : Event T → Option String
  | .request r => some r.group
  | .admitPeer g _ _ | .dropPeer g _ | .transport g _ => some g
  | .factory _ => none

/-- An event writes to the group it is addressed to, and only `leave` ends its session. -/
theorem keeps_step (d : ClusterDaemon T) {e : Event T} (he : eventGroup e = some g)
    (hleave : e ≠ .request (.leave g)) : Keeps V g d (step V d e) := by
  cases e with
  | request r =>
    cases he
    exact keeps_handleRequest d fun hr => hleave (congrArg Event.request hr)
  | admitPeer g address role =>
    cases he
    rw [step, ClusterDaemon.admitPeer]
    split
    · exact .refl
    · next hg =>
      split
      · exact .refl
      · next s d₁ hs =>
        have h : Keeps V g d d₁ := keeps_of_ensureSession hg hs
        obtain ⟨_, rfl⟩ := opened_of_ensureSession hs
        exact h.tail (kept_session _ (.inl ExtTreeMap.mem_insert_self))
  | dropPeer g address =>
    cases he
    rw [step, ClusterDaemon.dropPeer]
    split
    · next hs => exact .of_session hs _
    · exact .refl
  | transport g f =>
    cases he
    rw [step]
    split
    · next hs => exact .of_session hs _
    · exact .refl
  | factory => cases he

/-- An event writes to the group it is addressed to and nowhere else. -/
theorem writes_step (d : ClusterDaemon T) {e : Event T} (he : eventGroup e = some g) :
    Writes V g d (step V d e) := by
  by_cases hleave : e = .request (.leave g)
  · rw [hleave]
    exact .single .leave
  · exact (keeps_step d he hleave).writes

section Frame

/-- A write to one group is not seen at another. -/
structure SameAt (k : String) (d d' : ClusterDaemon T) : Prop where
  groups : d'.groups[k]? = d.groups[k]?
  sharedFiles : d'.sharedFiles[k]? = d.sharedFiles[k]?
  deviceState : d'.deviceState[k]? = d.deviceState[k]?

/-- What no request changes. -/
structure SameConfig (d d' : ClusterDaemon T) : Prop where
  selfAddress : d'.selfAddress = d.selfAddress
  makeTransport : d'.makeTransport = d.makeTransport
  singleGroup : d'.singleGroup = d.singleGroup

omit [MeshTransport T]

theorem sameAt_write (h : Write V g d d') (hk : k ≠ g) : SameAt k d d' := by
  have hgk : g ≠ k := hk.symm
  cases h with
  | session => exact ⟨by simp [setSession, ExtTreeMap.getElem?_insert, hgk], rfl, rfl⟩
  | shared => exact ⟨rfl, by simp [ExtTreeMap.getElem?_insert, hgk], rfl⟩
  | devices => exact ⟨rfl, rfl, by simp [ExtTreeMap.getElem?_insert, hgk]⟩
  | leave =>
    refine ⟨?_, ?_, rfl⟩ <;> simp [ClusterDaemon.leave, ExtTreeMap.getElem?_erase, hgk]

theorem sameConfig_write (h : Write V g d d') : SameConfig d d' := by
  cases h <;> exact ⟨rfl, rfl, rfl⟩

theorem sameAt_writes (h : Writes V g d d') (hk : k ≠ g) : SameAt k d d' := by
  induction h with
  | refl => exact ⟨rfl, rfl, rfl⟩
  | tail _ hw ih =>
    have hstep := sameAt_write hw hk
    exact ⟨hstep.groups.trans ih.groups, hstep.sharedFiles.trans ih.sharedFiles,
      hstep.deviceState.trans ih.deviceState⟩

theorem sameConfig_writes (h : Writes V g d d') : SameConfig d d' := by
  induction h with
  | refl => exact ⟨rfl, rfl, rfl⟩
  | tail _ hw ih =>
    have hstep := sameConfig_write hw
    exact ⟨hstep.selfAddress.trans ih.selfAddress, hstep.makeTransport.trans ih.makeTransport,
      hstep.singleGroup.trans ih.singleGroup⟩

end Frame

end CitrateCluster.StateWrites
