import CitrateCluster.CommsIdentity

namespace CitrateCluster.DeviceViews

open Std (ExtTreeMap ExtTreeSet)
open CitrateCluster.Membership Runs Roster Collections Device DeviceGate DeviceRegistry Registry
  EffectiveRoster Transport Session Daemon ClusterDaemon Ipc DaemonStep Admission GroupState
  CommsIdentity

section Listed

variable {roster : Entries} {registry : DeviceRegistry} {m role : String}

/-- What `device_roster` lists of a role: a member without devices, if the role passes the gate. -/
def listedAs (m : String) (role : Option String) : Option MemberDevices :=
  (role.filter fun r => decide (minClusterRank ≤ roleRank r)).map fun r => ⟨m, r, []⟩

@[simp] theorem listedAs_none : listedAs m none = none := rfl

theorem listedAs_of_le (h : minClusterRank ≤ roleRank role) :
    listedAs m (some role) = some ⟨m, role, []⟩ := by
  simp [listedAs, Option.filter, h]

theorem listedAs_of_lt (h : roleRank role < minClusterRank) : listedAs m (some role) = none := by
  simp [listedAs, Option.filter, Nat.not_le.mpr h]

theorem getElem?_listMember {out : ExtTreeMap String MemberDevices}
    {roles : ExtTreeMap String String} (h : ∀ a : String, out[a]? = listedAs a roles[a]?)
    (e : String × String) (a : String) :
    (listMember out e)[a]? = listedAs a (addRole roles e)[a]? := by
  obtain ⟨addr, role⟩ := e
  rw [getElem?_addRole]
  cases hb : canonicalAddress addr with
  | none => simp [listMember, hb, h]
  | some b =>
    by_cases hba : b = a
    · subst hba
      have hout := h b
      cases hrb : roles[b]? with
      | none =>
        by_cases hr : roleRank role < minClusterRank
        · simp [listMember, hb, hr, hout, hrb, keepBest, listedAs_of_lt]
        · simp [listMember, hb, hr, hout, hrb, keepBest, listedAs_of_le (not_lt.mp hr)]
      | some r =>
        by_cases hlow : roleRank r < minClusterRank
        · by_cases hr : roleRank role < minClusterRank
          · by_cases hgt : roleRank role > roleRank r <;>
              simp [listMember, hb, hr, hout, hrb, keepBest, hgt, listedAs_of_lt, hlow]
          · have hgt : roleRank role > roleRank r := by omega
            simp [listMember, hb, hr, hout, hrb, keepBest, hgt, listedAs_of_lt hlow,
              listedAs_of_le (not_lt.mp hr)]
        · have hle := listedAs_of_le (m := b) (not_lt.mp hlow)
          by_cases hgt : roleRank role > roleRank r
          · have hr : ¬ roleRank role < minClusterRank := by omega
            simp [listMember, hb, hr, hout, hrb, keepBest, hgt, hle, listedAs_of_le (not_lt.mp hr)]
          · by_cases hr : roleRank role < minClusterRank <;>
              simp [listMember, hb, hr, hout, hrb, keepBest, hgt, hle]
    · simp only [listMember, hb, Option.some.injEq, if_neg hba]
      split
      · exact h a
      · rw [ExtTreeMap.getElem?_insert, if_neg (by simpa using hba)]
        exact h a

/-- The members that `Devices` lists are those with a role that passes the gate, under the role
that `effective_roster` admits their devices with. -/
theorem getElem?_foldl_listMember (roster : Entries) (a : String) :
    (roster.foldl listMember ∅)[a]? = listedAs a (roleOf roster)[a]? := by
  suffices h : ∀ (out : ExtTreeMap String MemberDevices) (roles : ExtTreeMap String String),
      (∀ a : String, out[a]? = listedAs a roles[a]?) →
        (roster.foldl listMember out)[a]? = listedAs a (roster.foldl addRole roles)[a]? by
    apply h
    intro a
    simp [listedAs]
  induction roster with
  | nil => exact fun out roles h => h a
  | cons e roster ih => exact fun out roles h => ih _ _ (getElem?_listMember h e)

/-- One row of the device roster. -/
def row (registry : DeviceRegistry) (m role : String) : MemberDevices :=
  ⟨m, role, (registry.devicesOf m).map fun l => ⟨l.device, l.index, l.label, l.issuedAt⟩⟩

theorem mem_deviceRoster {v : MemberDevices} :
    v ∈ deviceRoster roster registry ↔
      ∃ m role, (roleOf roster)[m]? = some role ∧ minClusterRank ≤ roleRank role ∧
        v = row registry m role := by
  simp only [deviceRoster, List.mem_map, Prod.exists, ExtTreeMap.mem_toList_iff_getElem?_eq_some,
    getElem?_foldl_listMember, listedAs, Option.map_eq_some_iff, Option.filter_eq_some_iff,
    decide_eq_true_eq]
  constructor
  · rintro ⟨m, _, ⟨role, ⟨hrole, hle⟩, rfl⟩, rfl⟩
    exact ⟨m, role, hrole, hle, rfl⟩
  · rintro ⟨m, role, hrole, hle, rfl⟩
    exact ⟨m, _, ⟨role, ⟨hrole, hle⟩, rfl⟩, rfl⟩

theorem deviceRoster_eq_nil_iff :
    deviceRoster roster registry = [] ↔
      ∀ e ∈ roster, minClusterRank ≤ roleRank e.2 → canonicalAddress e.1 = none := by
  have hmembers : (∃ m role : String, (roleOf roster)[m]? = some role ∧ minClusterRank ≤ roleRank role) ↔
      ∃ m, m ∈ (gateOf roster registry).members := by
    simp only [mem_members_iff]
  constructor
  · intro h e he hr
    by_contra hc
    obtain ⟨m, hm⟩ := Option.ne_none_iff_exists'.mp hc
    obtain ⟨m, role, hrole, hle⟩ := hmembers.mpr ⟨m, e, he, hr, hm⟩
    have hv : row registry m role ∈ deviceRoster roster registry :=
      mem_deviceRoster.mpr ⟨m, role, hrole, hle, rfl⟩
    simp [h] at hv
  · intro h
    rw [List.eq_nil_iff_forall_not_mem]
    intro v hv
    obtain ⟨m, role, hrole, hle, _⟩ := mem_deviceRoster.mp hv
    obtain ⟨m, e, he, hr, hm⟩ := hmembers.mp ⟨m, role, hrole, hle⟩
    simp [h e he hr] at hm

theorem mem_devicesOf (hm : Canonical m) {l : DeviceLink} :
    l ∈ registry.devicesOf m ↔ l ∈ registry.listLinks ∧ l.member = m := by
  simp [devicesOf, hm.canonicalAddress]

end Listed

section Answers

variable {T : Type} [MeshTransport T] {V : LinkVerifier} {d : ClusterDaemon T} {g : String}

theorem syncAdmission_deviceState (d : ClusterDaemon T) (g : String) :
    (d.syncAdmission g).deviceState = d.deviceState := (touched_syncAdmission d g).deviceState

/-- What `Devices` answers: the device roster of the group's device state. -/
theorem exists_devices_eq (d : ClusterDaemon T) (g : String) :
    ∃ connected : AddressSet, (d.devices g).1 =
      ((d.deviceState[g]?.map fun state => deviceRoster state.roster state.registry).getD []).map
        (MemberDevicesWire.fromCore · connected) := by
  simp only [ClusterDaemon.devices, syncAdmission_deviceState]
  cases d.deviceState[g]? with
  | none => exact ⟨∅, rfl⟩
  | some state => exact ⟨_, rfl⟩

/-- What `Peers` answers: an entry for each allowed address, with the member it is linked to. -/
theorem exists_peers_eq (d : ClusterDaemon T) (g : String) :
    ∃ connected : AddressSet, (d.peers g).1 = (allowedOf d g).toList.map fun a =>
      ⟨a, connected.contains a, (registryOf d g).memberOf a⟩ := by
  have hallowed : allowedOf (d.syncAdmission g) g = allowedOf d g :=
    allowedOf_of_touched (touched_syncAdmission d g) g
  have hmember : ∀ a, ((d.deviceState[g]?).map (·.registry)).bind (·.memberOf a) =
      (registryOf d g).memberOf a := by
    intro a
    rw [registryOf]
    cases d.deviceState[g]? with
    | none =>
      change none = memberOf .new a
      cases hc : canonicalAddress a <;> simp [memberOf, hc, DeviceRegistry.new]
    | some state => rfl
  simp only [ClusterDaemon.peers, syncAdmission_deviceState, hmember]
  rw [← hallowed]
  cases hs : (d.syncAdmission g).groups[g]? with
  | none => exact ⟨∅, by simp [allowedOf, hs]⟩
  | some s => exact ⟨_, by rw [allowedOf_of_getElem? hs]⟩

end Answers

section Agreement

variable {roster : Entries} {registry : DeviceRegistry} {device m : String}

/-- `Devices` lists an address under a member. -/
def ListedUnder (members : List MemberDevicesWire) (device m : String) : Prop :=
  ∃ v ∈ members, v.member = m ∧ ∃ w ∈ v.devices, w.device = device

/-- `Peers` has an entry for an address with a member. -/
def EnteredUnder (peers : List PeerView) (device m : String) : Prop :=
  ∃ p ∈ peers, p.address = device ∧ p.member = some m

/-- The two views show the gate that a roster and a registry describe. -/
structure ViewsAgree (roster : Entries) (registry : DeviceRegistry)
    (members : List MemberDevicesWire) (peers : List PeerView) : Prop where
  listed : ∀ device m, ListedUnder members device m ↔ (gateOf roster registry).Counts device m
  entered : ∀ device m, EnteredUnder peers device m ↔ (gateOf roster registry).Counts device m
  plain : ∀ p ∈ peers, p.address ∈ (gateOf roster registry).listed → p.member = none
  role : ∀ v ∈ members, ∀ device, (gateOf roster registry).Counts device v.member →
    ∀ role, (device, role) ∈ effectiveRoster roster registry ↔ role = v.role

theorem listedUnder_iff {connected : AddressSet} :
    ListedUnder ((deviceRoster roster registry).map (MemberDevicesWire.fromCore · connected))
        device m ↔
      (gateOf roster registry).owner device m ∧ m ∈ (gateOf roster registry).members := by
  simp only [ListedUnder, List.mem_map, mem_deviceRoster, mem_members_iff]
  constructor
  · rintro ⟨_, ⟨_, ⟨m, role, hrole, hle, rfl⟩, rfl⟩, rfl, hw⟩
    obtain ⟨l, hl, rfl⟩ : ∃ l ∈ registry.devicesOf m, l.device = device := by
      simpa [MemberDevicesWire.fromCore, row] using hw
    obtain ⟨hl, hm⟩ := (mem_devicesOf (canonical_of_roleOf hrole)).mp hl
    exact ⟨⟨l, hl, rfl, hm⟩, role, hrole, hle⟩
  · rintro ⟨⟨l, hl, rfl, rfl⟩, role, hrole, hle⟩
    refine ⟨_, ⟨_, ⟨_, role, hrole, hle, rfl⟩, rfl⟩, rfl, ?_⟩
    have hmem := (mem_devicesOf (canonical_of_roleOf hrole)).mpr ⟨hl, rfl⟩
    simpa [MemberDevicesWire.fromCore, row] using ⟨l, hmem, rfl⟩

theorem canonical_of_mem_admitted (h : WellFormed registry)
    (ha : device ∈ (gateOf roster registry).admitted) : Canonical device :=
  canonical_of_mem_allowedSet ((mem_allowedSet_effectiveRoster h.canonical_device).mpr ha)

/-- The member of an entry is the owner of the link, however the address got in. -/
theorem memberOf_eq_some_iff_owner (h : WellFormed registry)
    (ha : device ∈ (gateOf roster registry).admitted) :
    registry.memberOf device = some m ↔ (gateOf roster registry).owner device m :=
  memberOf_eq_some_iff h.filed (canonical_of_mem_admitted h ha).canonicalAddress

theorem enteredUnder_iff (h : WellFormed registry) {connected : AddressSet} {allowed : AddressSet}
    (hallowed : ∀ a, a ∈ allowed ↔ a ∈ (gateOf roster registry).admitted) :
    EnteredUnder (allowed.toList.map fun a => ⟨a, connected.contains a, registry.memberOf a⟩)
        device m ↔
      device ∈ (gateOf roster registry).admitted ∧ (gateOf roster registry).owner device m := by
  simp only [EnteredUnder, List.mem_map, ExtTreeSet.mem_toList, hallowed]
  constructor
  · rintro ⟨_, ⟨a, ha, rfl⟩, rfl, hm⟩
    exact ⟨ha, (memberOf_eq_some_iff_owner h ha).mp hm⟩
  · rintro ⟨ha, hm⟩
    exact ⟨_, ⟨device, ha, rfl⟩, rfl, (memberOf_eq_some_iff_owner h ha).mpr hm⟩

/-- A device that counts is admitted in the role of its member. -/
theorem mem_effectiveRoster_of_counts (h : WellFormed registry) {role : String}
    (hrole : (roleOf roster)[m]? = some role) (hc : (gateOf roster registry).Counts device m)
    {r : String} : (device, r) ∈ effectiveRoster roster registry ↔ r = role := by
  have hlisted : (roleOf roster).contains device = true ↔
      device ∈ (gateOf roster registry).listed := contains_roleOf_iff
  have hnone : (roleOf roster)[device]? = none := by
    rw [← Option.not_isSome_iff_eq_none, ← ExtTreeMap.contains_eq_isSome_getElem?, hlisted]
    exact hc.2.1
  obtain ⟨l, hl, rfl, rfl, r', hadd⟩ := counts_iff.mp hc
  rw [mem_effectiveRoster, hnone]
  constructor
  · rintro (⟨hr, _⟩ | ⟨l', hl', hdev, hadd'⟩)
    · cases hr
    · obtain rfl := h.filed.eq_of_device hl hl' hdev
      exact Option.some.inj (hadd'.2.1.symm.trans hrole)
  · rintro rfl
    refine .inr ⟨l, hl, rfl, hadd.1, hrole, ?_⟩
    rw [← Option.some.inj (hadd.2.1.symm.trans hrole)]
    exact hadd.2.2

/-- A link names a listed address as its device, and either its member passes the gate or the
address is let in. -/
def Crossed (gate : Gate String) : Prop :=
  ∃ device m, gate.owner device m ∧ device ∈ gate.listed ∧
    (m ∈ gate.members ∨ device ∈ gate.admitted)

theorem viewsAgree_iff (h : WellFormed registry) {connected connected' : AddressSet}
    {allowed : AddressSet} (hallowed : ∀ a, a ∈ allowed ↔ a ∈ (gateOf roster registry).admitted) :
    ViewsAgree roster registry
        ((deviceRoster roster registry).map (MemberDevicesWire.fromCore · connected))
        (allowed.toList.map fun a => ⟨a, connected'.contains a, registry.memberOf a⟩) ↔
      ¬ Crossed (gateOf roster registry) := by
  constructor
  · rintro hviews ⟨device, m, howner, hlisted, hm | ha⟩
    · exact ((hviews.listed device m).mp (listedUnder_iff.mpr ⟨howner, hm⟩)).2.1 hlisted
    · exact ((hviews.entered device m).mp
        ((enteredUnder_iff h hallowed).mpr ⟨ha, howner⟩)).2.1 hlisted
  · intro hcross
    have hapart : ∀ device m, (gateOf roster registry).owner device m →
        device ∈ (gateOf roster registry).listed →
        m ∉ (gateOf roster registry).members ∧ device ∉ (gateOf roster registry).admitted := by
      intro device m howner hlisted
      exact not_or.mp fun hor => hcross ⟨device, m, howner, hlisted, hor⟩
    refine ⟨fun device m => ?_, fun device m => ?_, ?_, ?_⟩
    · rw [listedUnder_iff]
      exact ⟨fun ⟨ho, hm⟩ => ⟨ho, fun hl => (hapart device m ho hl).1 hm, hm⟩,
        fun hc => ⟨hc.1, hc.2.2⟩⟩
    · rw [enteredUnder_iff h hallowed]
      constructor
      · rintro ⟨ha, howner⟩
        obtain ⟨hm, _⟩ | ⟨m', hc⟩ := ha
        · exact absurd (Or.inl ⟨hm, ‹_›⟩)
            (hapart device m howner ((gateOf roster registry).members_listed hm)).2
        · have hm : m' = m := by
            have h₁ := (memberOf_eq_some_iff_owner h (.inr ⟨m', hc⟩)).mpr hc.1
            have h₂ := (memberOf_eq_some_iff_owner h (.inr ⟨m', hc⟩)).mpr howner
            exact Option.some.inj (h₁.symm.trans h₂)
          exact hm ▸ hc
      · exact fun hc => ⟨.inr ⟨m, hc⟩, hc.1⟩
    · simp only [List.mem_map, ExtTreeSet.mem_toList, hallowed]
      rintro _ ⟨a, ha, rfl⟩ hlisted
      rw [Option.eq_none_iff_forall_ne_some]
      intro m hm
      exact (hapart a m ((memberOf_eq_some_iff_owner h ha).mp hm) hlisted).2 ha
    · simp only [List.mem_map, mem_deviceRoster]
      rintro _ ⟨_, ⟨m, role, hrole, hle, rfl⟩, rfl⟩ device hc r
      exact mem_effectiveRoster_of_counts h hrole hc

end Agreement

section Calls

variable {V : LinkVerifier} {reg : DeviceRegistry}

/-- The gate that a call describes: the addresses it lists, the links that it leaves active and
the members with a revocation on record. -/
def gateAfter (V : LinkVerifier) (reg : DeviceRegistry) (roster : Entries)
    (links : List SignedDeviceLink) (revocations : List SignedRevocation) : Gate String :=
  { gateOf roster reg with
    owner := OwnedAfter V reg links revocations
    retired := {m | ∃ device, (m, device) ∈ reg.revoked ∨
      WithinCap links revocations ∧ ∃ r ∈ revocations, recorded V r = some (m, device)} }

theorem gateAfter_eq (roster : Entries) (links : List SignedDeviceLink)
    (revocations : List SignedRevocation) :
    gateAfter V reg roster links revocations = gateOf roster (reg.update links revocations V).2 := by
  apply Gate.ext
  · rfl
  · rfl
  · funext device m
    exact propext owner_iff_ownedAfter.symm
  · ext m
    apply exists_congr
    intro device
    by_cases hcap : WithinCap links revocations
    · simp only [hcap, true_and, mem_update_revoked hcap]
    · simp only [hcap, false_and, or_false, update_of_not_withinCap hcap]

variable {T : Type} [MeshTransport T] {d : ClusterDaemon T} {g : String} {roster : Entries}
  {links : List DeviceLinkWire} {revocations : List RevocationWire}

theorem viewsAgree_rostered_iff {s : ClusterSession T} (hwf : WellFormed (registryOf d g)) :
    ViewsAgree roster (registryOf (rostered V d g s roster links revocations) g)
        ((rostered V d g s roster links revocations).devices g).1
        ((rostered V d g s roster links revocations).peers g).1 ↔
      ¬ Crossed (gateAfter V (registryOf d g) roster (links.map DeviceLinkWire.toSigned)
        (revocations.map RevocationWire.toSigned)) := by
  have hwf' : WellFormed (registryAfter V d g links revocations).2 := hwf.update V _ _
  obtain ⟨connected, hdevices⟩ :=
    exists_devices_eq (rostered V d g s roster links revocations) g
  obtain ⟨connected', hpeers⟩ := exists_peers_eq (rostered V d g s roster links revocations) g
  have hstate : (rostered V d g s roster links revocations).deviceState[g]? =
      some ⟨roster, (registryAfter V d g links revocations).2⟩ := by
    simp [rostered]
  rw [hdevices, hpeers, hstate, registryOf_rostered, allowedOf_rostered, gateAfter_eq]
  apply viewsAgree_iff hwf'
  intro a
  exact mem_allowedSet_effectiveRoster hwf'.canonical_device

/-- Right after a call that took effect, `Devices` and `Peers` show the gate exactly if no active
link names a listed address as a device while its member passes the gate or that address is let
in on its own account. -/
theorem views_agree_iff_uncrossed {d₀ : ClusterDaemon T} {es : List (Event T)}
    {evicted rejected : List String} (hd : Initial d₀) (h : Steps (total (step V)) d₀ es d)
    (hreply : (handleRequest V d (.setRoster g roster links revocations)).1 =
      .reconciled evicted rejected) :
    ViewsAgree roster
        (registryOf (step V d (.request (.setRoster g roster links revocations))) g)
        ((step V d (.request (.setRoster g roster links revocations))).devices g).1
        ((step V d (.request (.setRoster g roster links revocations))).peers g).1 ↔
      ¬ Crossed (gateAfter V (registryOf d g) roster (links.map DeviceLinkWire.toSigned)
        (revocations.map RevocationWire.toSigned)) := by
  obtain ⟨s, _, hstep⟩ := step_of_reconciled hreply
  rw [hstep]
  exact viewsAgree_rostered_iff ((sound_of_steps hd h).registries g)

end Calls

section Samples

/-- The member links its device. -/
def linkedCall : Event InProcessTransport :=
  call [(m1, "member")] [linkWire (signed (linkOf '1' '1' 0 0))] []

theorem views_agree_iff_uncrossed_sample :
    (registryOf (step plainVerifier nodeDaemon linkedCall) "group").listLinks =
        [linkOf '1' '1' 0 0] ∧
      ViewsAgree [(m1, "member")] (registryOf (step plainVerifier nodeDaemon linkedCall) "group")
        ((step plainVerifier nodeDaemon linkedCall).devices "group").1
        ((step plainVerifier nodeDaemon linkedCall).peers "group").1 := by
  have hv : (linkOf '1' '1' 0 0).Valid := valid_linkOf rfl rfl (by decide)
  obtain ⟨_, _, hreply⟩ := handleRequest_nodeDaemon plainVerifier [(m1, "member")]
    [linkWire (signed (linkOf '1' '1' 0 0))] []
  constructor
  · rw [linkedCall, call, step, hreply, registryOf_rostered, registryAfter_linked hv,
      listLinks_onlyLink]
  · refine (views_agree_iff_uncrossed (initial_withFactory _ _) (.nil _)
      (congrArg Prod.fst hreply)).mpr ?_
    rintro ⟨device, m, howner, ⟨e, he, ha⟩, _⟩
    obtain ⟨l, hl, hdevice, _⟩ := owner_iff_ownedAfter.mpr howner
    have hd : device = d1 := by
      rw [← hdevice]
      have hl' : l ∈ (registryAfter plainVerifier nodeDaemon "group"
          [linkWire (signed (linkOf '1' '1' 0 0))] []).2.listLinks := hl
      rw [registryAfter_linked hv, listLinks_onlyLink, List.mem_singleton] at hl'
      rw [hl']
      rfl
    have hm : canonicalAddress m1 = some m1 := (canonical_address rfl rfl).canonicalAddress
    rw [List.mem_singleton.mp he, hd, hm] at ha
    simp [m1, d1, address_inj] at ha

/-- A member that is linked as a device of another member is listed under both. -/
theorem listed_member_shown_as_device :
    ¬ ∀ (V : LinkVerifier) (d₀ d : ClusterDaemon InProcessTransport) es g roster links revocations
      evicted rejected, Initial d₀ → Steps (total (step V)) d₀ es d →
        (handleRequest V d (.setRoster g roster links revocations)).1 =
          .reconciled evicted rejected →
        ViewsAgree roster
          (registryOf (step V d (.request (.setRoster g roster links revocations))) g)
          ((step V d (.request (.setRoster g roster links revocations))).devices g).1
          ((step V d (.request (.setRoster g roster links revocations))).peers g).1 := by
  intro h
  obtain ⟨_, _, hreply⟩ := handleRequest_nodeDaemon plainVerifier
    [(m1, "member"), (m2, "member")] [linkWire (signed memberAsDevice)] []
  have hviews := h plainVerifier nodeDaemon nodeDaemon [] "group"
    [(m1, "member"), (m2, "member")] [linkWire (signed memberAsDevice)] [] _ _
    (initial_withFactory _ _) (.nil _) (congrArg Prod.fst hreply)
  rw [step, hreply] at hviews
  have hsound := sound_of_initial (initial_withFactory m1 fun _ => .ok InProcessTransport.new)
  refine (viewsAgree_rostered_iff (hsound.registries "group")).mp hviews
    ⟨m1, m2, .inl ⟨by decide, ?_⟩, ?_, .inl ?_⟩
  · apply (soleClaim_signed valid_memberAsDevice).mpr
    exact ⟨rfl, fun hp => ExtTreeSet.not_mem_empty ((mem_revokedAfter_nil _).mp hp)⟩
  · exact ⟨_, List.mem_cons_self, (canonical_address rfl rfl).canonicalAddress⟩
  · exact ⟨(m2, "member"), List.mem_cons_of_mem _ List.mem_cons_self, by decide,
      (canonical_address rfl rfl).canonicalAddress⟩

end Samples

end CitrateCluster.DeviceViews
