import CitrateCluster.GroupState
import CitrateCluster.Authorization

namespace CitrateCluster.Atomicity

open Std (ExtTreeMap ExtTreeSet)
open CitrateCluster.Membership Runs Roster Collections Device DeviceGate DeviceRegistry Registry
  EffectiveRoster Transport Session Daemon ClusterDaemon Ipc DaemonStep SwarmLoop SwarmSurface
  GroupState Authorization

variable {T : Type} [Authorizing T] {V : LinkVerifier} {d d' : ClusterDaemon T} {g : String}
  {s : ClusterSession T} {roster : Entries} {links : List DeviceLinkWire}
  {revocations : List RevocationWire}

/-- The addresses that the wire of a group authorizes: none without a session. -/
def authorizedOf (d : ClusterDaemon T) (g : String) : Set String :=
  {a | ∃ s, d.groups[g]? = some s ∧ a ∈ authorized s.transport}

/-- A request has taken effect as a whole: its roster, links and revocations are all in. -/
structure Applied (V : LinkVerifier) (d d' : ClusterDaemon T) (g : String) (roster : Entries)
    (links : List DeviceLinkWire) (revocations : List RevocationWire) : Prop where
  revoked : ∀ r ∈ revocations, ∀ p, recorded V r.toSigned = some p → p ∈ (registryOf d' g).revoked
  rebuilt : ∀ device : String, (registryOf d' g).links[device]? =
    resolve (registryOf d' g).revoked (bodiesFor V (links.map DeviceLinkWire.toSigned) device)
  unlinked : ∀ r ∈ revocations, ∀ m device, recorded V r.toSigned = some (m, device) →
    ∀ l ∈ (registryOf d' g).listLinks, ¬ (l.device = device ∧ l.member = m)
  stored : rosterOf d' g = roster
  allowed : allowedOf d' g = allowedSet (effectiveRoster roster (registryOf d' g))
  authorized : ∀ a ∈ allowedOf d' g, a ∈ authorizedOf d' g
  deauthorized : ∀ a ∈ allowedOf d g, a ∉ allowedOf d' g → a ∉ authorizedOf d' g

/-- Nothing of a group has changed. -/
structure Unchanged (d d' : ClusterDaemon T) (g : String) : Prop where
  roster : rosterOf d' g = rosterOf d g
  registry : registryOf d' g = registryOf d g
  allowed : allowedOf d' g = allowedOf d g
  authorized : authorizedOf d' g = authorizedOf d g

/-- Every revocation of a request that verifies is on record, and the links on file are those that
the links of the request make active. -/
structure OnRecord (V : LinkVerifier) (reg : DeviceRegistry) (links : List SignedDeviceLink)
    (revocations : List SignedRevocation) : Prop where
  revoked : ∀ r ∈ revocations, ∀ p, recorded V r = some p → p ∈ reg.revoked
  rebuilt : ∀ device : String, reg.links[device]? = resolve reg.revoked (bodiesFor V links device)

/-- A roster is the one that the group has, and is in force under a registry. -/
structure InForce (d : ClusterDaemon T) (g : String) (roster : Entries) : Prop where
  stored : rosterOf d g = roster
  allowed : ∀ a, a ∈ allowedOf d g ↔ a ∈ (gateOf roster (registryOf d g)).admitted
  authorized : ∀ a ∈ allowedOf d g, a ∈ authorizedOf d g

section Rostered

theorem mem_authorizedOf_opened (hfresh : Fresh d.makeTransport) (hs : Opened d g s) {a : String} :
    a ∈ authorizedOf d g ↔ a ∈ authorized s.transport := by
  obtain hs | ⟨hn, transport, ht, rfl⟩ := hs
  · simp [authorizedOf, hs]
  · simp [authorizedOf, hn, ClusterSession.new, hfresh g transport ht]

omit [Authorizing T] in
theorem safe_of_opened (hd : Sound d) (hs : Opened d g s) : s.membership.Safe :=
  hd.sessions.opened (fun _ _ _ => ClusterMembership.safe_new []) hs

/-- Whom the wire authorizes after a new roster: whom it authorized before and does not have to
drop, and whom the roster allows. -/
theorem mem_authorizedOf_rostered (hd : Sound d) (hfresh : Fresh d.makeTransport)
    (hs : Opened d g s) {a : String} :
    a ∈ authorizedOf (rostered V d g s roster links revocations) g ↔
      (a ∈ authorizedOf d g ∧ ¬ (a ∈ allowedOf d g ∧
        a ∉ allowedOf (rostered V d g s roster links revocations) g)) ∨
          a ∈ allowedOf (rostered V d g s roster links revocations) g := by
  rw [mem_authorizedOf_opened hfresh hs, ← allowed_of_opened hs, allowedOf_rostered]
  rw [authorizedOf, groups_rostered]
  simp only [Option.some.injEq, exists_eq_left', Set.mem_ofPred_eq]
  exact mem_authorized_applyRoster (safe_of_opened hd hs)

theorem applied_of_registry (hd : Sound d) (hfresh : Fresh d.makeTransport) (hs : Opened d g s)
    (h : OnRecord V (registryAfter V d g links revocations).2
      (links.map DeviceLinkWire.toSigned) (revocations.map RevocationWire.toSigned)) :
    Applied V d (rostered V d g s roster links revocations) g roster links revocations := by
  have hrecorded : ∀ r ∈ revocations, ∀ p, recorded V r.toSigned = some p →
      p ∈ (registryAfter V d g links revocations).2.revoked := fun r hr =>
    h.revoked r.toSigned (List.mem_map_of_mem hr)
  refine ⟨?_, ?_, ?_, rosterOf_rostered, ?_, ?_, ?_⟩
  · rw [registryOf_rostered]
    exact hrecorded
  · rw [registryOf_rostered]
    exact h.rebuilt
  · rw [registryOf_rostered]
    rintro r hr m device hp l hl ⟨rfl, rfl⟩
    obtain ⟨dev, hdev⟩ := mem_listLinks_iff.mp hl
    have hrevoked := (resolve_eq_some_iff.mp ((h.rebuilt dev).symm.trans hdev)).2.2
    exact hrevoked (hrecorded r hr _ hp)
  · rw [allowedOf_rostered, registryOf_rostered]
  · intro a ha
    exact (mem_authorizedOf_rostered hd hfresh hs).mpr (.inr ha)
  · intro a ha hn hauth
    obtain ⟨_, hkeep⟩ | ha' := (mem_authorizedOf_rostered hd hfresh hs).mp hauth
    · exact hkeep ⟨ha, hn⟩
    · exact hn ha'

theorem onRecord_of_fits (reg : DeviceRegistry) (hfit : Fits links revocations) :
    OnRecord V (reg.update (links.map DeviceLinkWire.toSigned)
        (revocations.map RevocationWire.toSigned) V).2
      (links.map DeviceLinkWire.toSigned) (revocations.map RevocationWire.toSigned) where
  revoked := by
    intro r hr p hp
    exact (mem_update_revoked hfit p).mpr (.inr ⟨r, hr, hp⟩)
  rebuilt := getElem?_update_links hfit

/-- Beyond the cap a request is applied as a whole only if its links and revocations say nothing
new. -/
theorem applied_iff_of_not_fits (hd : Sound d) (hfresh : Fresh d.makeTransport)
    (hs : Opened d g s) (hfit : ¬ Fits links revocations) :
    Applied V d (rostered V d g s roster links revocations) g roster links revocations ↔
      OnRecord V (registryOf d g) (links.map DeviceLinkWire.toSigned)
        (revocations.map RevocationWire.toSigned) := by
  have hafter : (registryAfter V d g links revocations).2 = registryOf d g := by
    rw [registryAfter, update_of_not_withinCap hfit]
  constructor
  · intro h
    have hregistry : registryOf (rostered V d g s roster links revocations) g = registryOf d g :=
      registryOf_rostered.trans hafter
    refine ⟨fun r hr p hp => ?_, hregistry ▸ h.rebuilt⟩
    obtain ⟨w, hw, rfl⟩ := List.mem_map.mp hr
    exact hregistry ▸ h.revoked w hw p hp
  · intro h
    apply applied_of_registry hd hfresh hs
    rwa [hafter]

/-- Beyond the cap a request changes nothing only if its roster is in force already. -/
theorem unchanged_iff_of_not_fits (hd : Sound d) (hfresh : Fresh d.makeTransport)
    (hs : Opened d g s) (hfit : ¬ Fits links revocations) :
    Unchanged d (rostered V d g s roster links revocations) g ↔ InForce d g roster := by
  have hafter : (registryAfter V d g links revocations).2 = registryOf d g := by
    rw [registryAfter, update_of_not_withinCap hfit]
  have hallowed : ∀ a, a ∈ allowedOf (rostered V d g s roster links revocations) g ↔
      a ∈ (gateOf roster (registryOf d g)).admitted := by
    intro a
    rw [allowedOf_rostered, hafter,
      mem_allowedSet_effectiveRoster (hd.registries g).canonical_device]
  constructor
  · intro h
    refine ⟨h.roster.symm.trans rosterOf_rostered, fun a => ?_, fun a ha => ?_⟩
    · rw [← hallowed, h.allowed]
    · rw [← h.authorized]
      exact (mem_authorizedOf_rostered hd hfresh hs).mpr (.inr (h.allowed ▸ ha))
  · intro h
    have heq : allowedOf (rostered V d g s roster links revocations) g = allowedOf d g := by
      apply ExtTreeSet.ext_mem
      intro a
      rw [hallowed, h.allowed]
    refine ⟨rosterOf_rostered.trans h.stored.symm, registryOf_rostered.trans hafter, heq, ?_⟩
    ext a
    rw [mem_authorizedOf_rostered hd hfresh hs, heq]
    constructor
    · rintro (⟨ha, _⟩ | ha)
      · exact ha
      · exact h.authorized a ha
    · intro ha
      by_cases hm : a ∈ allowedOf d g
      · exact .inr hm
      · exact .inl ⟨ha, fun hc => hm hc.1⟩

theorem applied_or_unchanged_rostered_iff (hd : Sound d) (hfresh : Fresh d.makeTransport)
    (hs : Opened d g s) :
    (Applied V d (rostered V d g s roster links revocations) g roster links revocations ∨
        Unchanged d (rostered V d g s roster links revocations) g) ↔
      Fits links revocations ∨
        OnRecord V (registryOf d g) (links.map DeviceLinkWire.toSigned)
          (revocations.map RevocationWire.toSigned) ∨
        InForce d g roster := by
  by_cases hfit : Fits links revocations
  · have happlied : Applied V d (rostered V d g s roster links revocations) g roster links
        revocations := applied_of_registry hd hfresh hs (onRecord_of_fits _ hfit)
    exact ⟨fun _ => .inl hfit, fun _ => .inl happlied⟩
  · simp only [hfit, false_or]
    exact or_congr (applied_iff_of_not_fits hd hfresh hs hfit)
      (unchanged_iff_of_not_fits hd hfresh hs hfit)

end Rostered

/-- A roster that takes effect is applied together with its links and revocations, or changes
nothing, exactly if the request stays within the cap, brings nothing that is not on record, or
brings the roster in force. -/
theorem applied_or_unchanged_iff {d₀ : ClusterDaemon T} {es : List (Event T)} (hd : Initial d₀)
    (h : Steps (total (step V)) d₀ es d) (hfresh : Fresh d.makeTransport)
    {evicted rejected : List String}
    (hreply : (handleRequest V d (.setRoster g roster links revocations)).1 =
      .reconciled evicted rejected) :
    (Applied V d (step V d (.request (.setRoster g roster links revocations))) g roster links
          revocations ∨
        Unchanged d (step V d (.request (.setRoster g roster links revocations))) g) ↔
      Fits links revocations ∨
        OnRecord V (registryOf d g) (links.map DeviceLinkWire.toSigned)
          (revocations.map RevocationWire.toSigned) ∨
        InForce d g roster := by
  obtain ⟨s, hs, hstep⟩ := step_of_reconciled hreply
  rw [hstep]
  exact applied_or_unchanged_rostered_iff (sound_of_steps hd h) hfresh hs

theorem handleRequest_meshDaemon (V : LinkVerifier) (roster : Entries)
    (links : List DeviceLinkWire) (revocations : List RevocationWire) :
    ∃ s evicted rejected, Opened meshDaemon "group" s ∧
      handleRequest V meshDaemon (.setRoster "group" roster links revocations) =
        (.reconciled evicted rejected,
          rostered V meshDaemon "group" s roster links revocations) := by
  let s := ClusterSession.new [] (⟨⟨.new "group" m1⟩, []⟩ : Logged (Libp2pTransport plainLibp2p))
  have hopened : Opened meshDaemon "group" s := .inr ⟨rfl, _, rfl, rfl⟩
  have hsession : meshDaemon.ensureSession "group" = .ok (s, meshDaemon.setSession "group" s) := rfl
  exact ⟨s, _, _, hopened, handleRequest_setRoster_of_ensureSession V rfl hsession _ _ _⟩

theorem applied_or_unchanged_iff_sample :
    Applied plainVerifier meshDaemon (step plainVerifier meshDaemon (.request (.setRoster "group"
        [(m1, "member")] [] [revocationWire (revoke m1 d1)]))) "group" [(m1, "member")] []
          [revocationWire (revoke m1 d1)] ∨
      Unchanged meshDaemon (step plainVerifier meshDaemon (.request (.setRoster "group"
        [(m1, "member")] [] [revocationWire (revoke m1 d1)]))) "group" := by
  obtain ⟨_, _, _, _, h⟩ := handleRequest_meshDaemon plainVerifier [(m1, "member")] []
    [revocationWire (revoke m1 d1)]
  exact (applied_or_unchanged_iff initial_meshDaemon (.nil _) fresh_meshDaemon
    (congrArg Prod.fst h)).mpr (.inl (by decide))

theorem roster_without_its_revocations :
    ¬ ∀ (V : LinkVerifier) (d₀ d : ClusterDaemon (Logged (Libp2pTransport plainLibp2p))) es g roster
      links revocations evicted rejected,
      Initial d₀ → Steps (total (step V)) d₀ es d → Fresh d.makeTransport →
        (handleRequest V d (.setRoster g roster links revocations)).1 =
          .reconciled evicted rejected →
        Applied V d (step V d (.request (.setRoster g roster links revocations))) g roster links
            revocations ∨
          Unchanged d (step V d (.request (.setRoster g roster links revocations))) g := by
  intro hall
  let revocations := List.replicate 65 (revocationWire (revoke m1 d1))
  have hrecorded : recorded plainVerifier (revoke m1 d1) = some (m1, d1) :=
    recorded_revoke (canonical_address rfl rfl) (canonical_address rfl rfl)
  obtain ⟨s, _, _, hs, h⟩ := handleRequest_meshDaemon plainVerifier [(m1, "member")] [] revocations
  have hatomic := hall plainVerifier meshDaemon meshDaemon [] "group" [(m1, "member")] []
    revocations _ _ initial_meshDaemon (.nil _) fresh_meshDaemon (congrArg Prod.fst h)
  rw [step, h, applied_or_unchanged_rostered_iff (sound_of_initial initial_meshDaemon)
    fresh_meshDaemon hs] at hatomic
  obtain hfit | hon | hforce := hatomic
  · simp [Fits, WithinCap, maxLinksPerUpdate, revocations] at hfit
  · have hempty : (m1, d1) ∉ (registryOf meshDaemon "group").revoked := ExtTreeSet.not_mem_empty
    exact hempty (hon.revoked (revoke m1 d1) (by simp [revocations]) _ hrecorded)
  · cases hforce.stored

end CitrateCluster.Atomicity
