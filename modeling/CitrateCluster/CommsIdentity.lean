import CitrateCluster.GroupState

namespace CitrateCluster.CommsIdentity

open Std (ExtTreeMap ExtTreeSet)
open CitrateCluster.Membership Runs Roster Collections Device DeviceGate DeviceRegistry Registry
  EffectiveRoster Transport Session Daemon ClusterDaemon Ipc DaemonStep Admission GroupState

variable {V : LinkVerifier}

section Owners

variable {reg : DeviceRegistry} {links : List SignedDeviceLink} {revocations : List SignedRevocation}
  {a m : String}

/-- Whose device an address is once an update is done: within the cap the sole member that claims
it and has not revoked it, beyond the cap the member it was linked to before. -/
def OwnedAfter (V : LinkVerifier) (reg : DeviceRegistry) (links : List SignedDeviceLink)
    (revocations : List SignedRevocation) (a m : String) : Prop :=
  (WithinCap links revocations ∧ SoleClaim (Claims V links) (revokedAfter V reg revocations) a m) ∨
    (¬ WithinCap links revocations ∧ ∃ l ∈ reg.listLinks, l.device = a ∧ l.member = m)

theorem owner_iff_ownedAfter :
    (∃ l ∈ (reg.update links revocations V).2.listLinks, l.device = a ∧ l.member = m) ↔
      OwnedAfter V reg links revocations a m := by
  by_cases hcap : WithinCap links revocations
  · simp only [OwnedAfter, hcap, true_and, not_true_eq_false, false_and, or_false]
    exact owner_update_iff V hcap
  · simp only [OwnedAfter, hcap, false_and, not_false_eq_true, true_and, false_or]
    rw [update_of_not_withinCap hcap]

end Owners

variable {T : Type} {d d' : ClusterDaemon T} {g m : String}

/-- The member has a revocation on record in the group. -/
def Retired (d : ClusterDaemon T) (g m : String) : Prop :=
  ∃ device, (m, device) ∈ (registryOf d g).revoked

/-- A call makes an address a device of another member that its roster lets in, while the roster
does not list the address itself. -/
def RelinksAsDevice (V : LinkVerifier) (d : ClusterDaemon T) (g m : String) (roster : Entries)
    (links : List DeviceLinkWire) (revocations : List RevocationWire) : Prop :=
  (∀ e ∈ roster, canonicalAddress e.1 ≠ some m) ∧
    ∃ m', (∃ e ∈ roster, minClusterRank ≤ roleRank e.2 ∧ canonicalAddress e.1 = some m') ∧
      OwnedAfter V (registryOf d g) (links.map DeviceLinkWire.toSigned)
        (revocations.map RevocationWire.toSigned) m m'

variable [MeshTransport T] {s : ClusterSession T} {roster : Entries} {links : List DeviceLinkWire}
  {revocations : List RevocationWire}

/-- No call on the group that takes effect makes the address a device. -/
def Spares (V : LinkVerifier) (g m : String) (d : ClusterDaemon T) (e : Event T) : Prop :=
  ∀ roster links revocations evicted rejected,
    e = .request (.setRoster g roster links revocations) →
      (handleRequest V d (.setRoster g roster links revocations)).1 =
        .reconciled evicted rejected →
      ¬ RelinksAsDevice V d g m roster links revocations

/-- Once a member has revoked a device, a call lets its own address in exactly if the call makes
the address a device of another member. -/
theorem mem_allowedOf_rostered_iff (hwf : WellFormed (registryOf d g))
    (hm : Retired (rostered V d g s roster links revocations) g m) :
    m ∈ allowedOf (rostered V d g s roster links revocations) g ↔
      RelinksAsDevice V d g m roster links revocations := by
  let registry := (registryAfter V d g links revocations).2
  have hwf' : WellFormed registry := hwf.update V _ _
  have hretired : m ∈ (gateOf roster registry).retired := by
    rw [Retired, registryOf_rostered] at hm
    exact hm
  rw [allowedOf_rostered, mem_allowedSet_effectiveRoster hwf'.canonical_device,
    Gate.mem_admitted_of_retired hretired]
  simp only [Gate.Counts, gateOf, registry, registryAfter, owner_iff_ownedAfter,
    Set.mem_ofPred_eq, not_exists, not_and, RelinksAsDevice]
  constructor
  · rintro ⟨m', howned, hlisted, hmember⟩
    exact ⟨hlisted, m', hmember, howned⟩
  · rintro ⟨hlisted, m', hmember, howned⟩
    exact ⟨m', howned, hlisted, hmember⟩

/-- A member with a revocation on record whose own address the group does not allow. -/
structure Barred (d : ClusterDaemon T) (g m : String) : Prop where
  sound : Sound d
  retired : Retired d g m
  not_allowed : m ∉ allowedOf d g

theorem Retired.effect {e : Event T} (h : Retired d g m) (he : Effect V d e d') :
    Retired d' g m := by
  obtain ⟨device, hdev⟩ := h
  refine ⟨device, ?_⟩
  cases he with
  | @rostered g' _ _ links revocations =>
    by_cases hg : g = g'
    · subst hg
      rw [registryOf_rostered, registryAfter]
      by_cases hcap : Fits links revocations
      · exact (mem_update_revoked hcap _).mpr (.inl hdev)
      · rwa [update_of_not_withinCap hcap]
    · rwa [registryOf_rostered_of_ne hg]
  | quiet _ ht => rwa [registryOf_of_touched ht]
  | _ => exact hdev

theorem Barred.step {e : Event T} (h : Barred d g m)
    (hs : Meeting (total (step V)) (Spares V g m) d e d') : Barred d' g m := by
  obtain ⟨hd', hspares⟩ := hs
  have heff : Effect V d e d' := hd' ▸ effect_step V d e
  have hretired := h.retired.effect heff
  refine ⟨h.sound.step hd', hretired, ?_⟩
  clear hd'
  cases heff with
  | @rostered g' _ roster links revocations evicted rejected _ hreply =>
    by_cases hg : g = g'
    · subst hg
      rw [mem_allowedOf_rostered_iff (h.sound.registries g) hretired]
      exact hspares roster links revocations evicted rejected rfl hreply
    · rw [allowedOf, groups_rostered_of_ne hg]
      exact h.not_allowed
  | left g' =>
    by_cases hg : g = g'
    · subst hg
      simp [allowedOf_leave]
    · rw [allowedOf, groups_leave_of_ne hg]
      exact h.not_allowed
  | quiet _ ht =>
    rw [allowedOf_of_touched ht]
    exact h.not_allowed
  | _ => exact h.not_allowed

omit [MeshTransport T] in
theorem Barred.session (h : Barred d g m) (hs : d.groups[g]? = some s) :
    m ∉ s.membership.allowed ∧ m ∉ s.membership.admitted := by
  have hallowed : m ∉ s.membership.allowed := by
    rw [← allowedOf_of_getElem? hs]
    exact h.not_allowed
  exact ⟨hallowed, fun ha => hallowed ((h.sound.sessions g s hs).admitted_allowed m ha)⟩

section Samples

/-- A link that names the first member's address as a device of the second. -/
def memberAsDevice : DeviceLink := ⟨m2, m1, address 'b' '2', 0, "laptop", 0⟩

theorem valid_memberAsDevice : memberAsDevice.Valid where
  member := canonical_address rfl rfl
  device := canonical_address rfl rfl
  wallet := canonical_address rfl rfl
  device_ne_member := by simp [memberAsDevice, m1, m2, address_inj]
  device_ne_wallet := by simp [memberAsDevice, m1, address_inj]
  index := by decide
  label := labelIsValid_laptop

/-- A call on the one group of a node. -/
def call (roster : Entries) (links : List DeviceLinkWire) (revocations : List RevocationWire) :
    Event InProcessTransport := .request (.setRoster "group" roster links revocations)

/-- The first member revokes a device. -/
def revokingCall : Event InProcessTransport :=
  call [(m1, "member")] [] [revocationWire (revoke m1 d1)]

theorem step_revokingCall :
    step plainVerifier nodeDaemon revokingCall =
      rostered plainVerifier nodeDaemon "group" (.new [] .new) [(m1, "member")] []
        [revocationWire (revoke m1 d1)] := by
  obtain ⟨_, _, h⟩ := handleRequest_nodeDaemon plainVerifier [(m1, "member")] []
    [revocationWire (revoke m1 d1)]
  rw [revokingCall, call, step, h]

theorem mem_revoked_revokingCall (p : String × String) :
    p ∈ (registryOf (step plainVerifier nodeDaemon revokingCall) "group").revoked ↔
      p = (m1, d1) := by
  have hrecorded : recorded plainVerifier (revoke m1 d1) = some (m1, d1) :=
    recorded_revoke (canonical_address rfl rfl) (canonical_address rfl rfl)
  have hempty : p ∉ (registryOf nodeDaemon "group").revoked := ExtTreeSet.not_mem_empty
  rw [step_revokingCall, registryOf_rostered, registryAfter, mem_update_revoked (by decide)]
  simp [hempty, hrecorded, eq_comm]

theorem retired_revokingCall :
    Retired (step plainVerifier nodeDaemon revokingCall) "group" m1 :=
  ⟨d1, (mem_revoked_revokingCall _).mpr rfl⟩

theorem step_after_revokingCall (roster : Entries) (links : List DeviceLinkWire)
    (revocations : List RevocationWire) :
    ∃ s, step plainVerifier (step plainVerifier nodeDaemon revokingCall)
        (call roster links revocations) =
      rostered plainVerifier (step plainVerifier nodeDaemon revokingCall) "group" s roster links
        revocations := by
  have hgroups : ∃ s, (step plainVerifier nodeDaemon revokingCall).groups["group"]? = some s := by
    rw [step_revokingCall]
    exact ⟨_, groups_rostered⟩
  have hallowed : (step plainVerifier nodeDaemon revokingCall).ensureGroupAllowed "group" =
      .ok () := by
    rw [step_revokingCall]
    rfl
  obtain ⟨s, hs⟩ := hgroups
  obtain ⟨_, _, h⟩ := handleRequest_setRoster_of_getElem? plainVerifier hallowed hs roster links
    revocations
  exact ⟨s, by rw [call, step, h]⟩

end Samples

variable (V g m)

/-- After a call that leaves a revocation by the member on record, the member's own address stays
out of the group as long as no call that takes effect makes it a device, and one that does lets it
in. -/
theorem comms_identity_out_while_spared :
    (∀ (d₀ d d' : ClusterDaemon T) es es' roster links revocations evicted rejected,
      Initial d₀ → Steps (total (step V)) d₀ es d →
        (handleRequest V d (.setRoster g roster links revocations)).1 =
          .reconciled evicted rejected →
        Retired (step V d (.request (.setRoster g roster links revocations))) g m →
        Steps (Meeting (total (step V)) (Spares V g m)) d
          (.request (.setRoster g roster links revocations) :: es') d' →
        ∀ s, d'.groups[g]? = some s →
          m ∉ s.membership.allowed ∧ m ∉ s.membership.admitted) ∧
      ∀ (d₀ d : ClusterDaemon T) es roster links revocations evicted rejected,
        Initial d₀ → Steps (total (step V)) d₀ es d →
          (handleRequest V d (.setRoster g roster links revocations)).1 =
            .reconciled evicted rejected →
          Retired (step V d (.request (.setRoster g roster links revocations))) g m →
          RelinksAsDevice V d g m roster links revocations →
          ∃ s, (step V d (.request (.setRoster g roster links revocations))).groups[g]? = some s ∧
            m ∈ s.membership.allowed := by
  constructor
  · intro d₀ d d' es es' roster links revocations evicted rejected hd hreach hreply hm hsteps s hs
    have hsound := sound_of_steps hd hreach
    cases hsteps with
    | cons hstep hrest =>
      obtain ⟨rfl, hspares⟩ := hstep
      have hbarred : Barred (step V d (.request (.setRoster g roster links revocations))) g m := by
        refine ⟨hsound.step rfl, hm, ?_⟩
        obtain ⟨s, _, hstep⟩ := step_of_reconciled hreply
        rw [hstep] at hm ⊢
        rw [mem_allowedOf_rostered_iff (hsound.registries g) hm]
        exact hspares roster links revocations evicted rejected rfl hreply
      exact (hrest.invariant (I := (Barred · g m)) (fun _ _ _ h hs => h.step hs) hbarred).session hs
  · intro d₀ d es roster links revocations evicted rejected hd hreach hreply hm hrelinks
    obtain ⟨s, _, hstep⟩ := step_of_reconciled hreply
    rw [hstep] at hm ⊢
    refine ⟨_, groups_rostered, ?_⟩
    rw [← allowedOf_of_getElem? groups_rostered,
      mem_allowedOf_rostered_iff ((sound_of_steps hd hreach).registries g) hm]
    exact hrelinks

theorem comms_identity_out_while_spared_sample :
    ∃ s, (step plainVerifier (step plainVerifier nodeDaemon revokingCall)
        (call [(m1, "owner"), (m2, "member")] [linkWire (signed memberAsDevice)] [])).groups["group"]?
          = some s ∧
      m1 ∉ s.membership.allowed ∧ m1 ∉ s.membership.admitted := by
  have hspares : ∀ d role roster links revocations, Spares plainVerifier "group" m1 d
      (call ((m1, role) :: roster) links revocations) := by
    rintro d role roster links revocations _ _ _ _ _ ⟨⟩ _ ⟨hlisted, _⟩
    exact hlisted _ List.mem_cons_self (canonical_address rfl rfl).canonicalAddress
  have hsteps : ∀ (d : ClusterDaemon InProcessTransport) e₁ e₂,
      Spares plainVerifier "group" m1 d e₁ →
        Spares plainVerifier "group" m1 (step plainVerifier d e₁) e₂ →
          Steps (Meeting (total (step plainVerifier)) (Spares plainVerifier "group" m1)) d
            [e₁, e₂] (step plainVerifier (step plainVerifier d e₁) e₂) := fun _ _ _ h₁ h₂ =>
    .cons ⟨rfl, h₁⟩ (.cons ⟨rfl, h₂⟩ (.nil _))
  have hrun := hsteps nodeDaemon revokingCall
    (call [(m1, "owner"), (m2, "member")] [linkWire (signed memberAsDevice)] [])
    (hspares _ _ _ _ _) (hspares _ _ _ _ _)
  obtain ⟨_, _, hreply⟩ := handleRequest_nodeDaemon plainVerifier [(m1, "member")] []
    [revocationWire (revoke m1 d1)]
  obtain ⟨s, hs⟩ := step_after_revokingCall [(m1, "owner"), (m2, "member")]
    [linkWire (signed memberAsDevice)] []
  have hgroups := (congrArg (fun d => d.groups["group"]?) hs).trans groups_rostered
  have hout := (comms_identity_out_while_spared plainVerifier "group" m1).1 nodeDaemon nodeDaemon _
    [] _ _ _ _ _ _ (initial_withFactory _ _) (.nil _) (congrArg Prod.fst hreply)
    retired_revokingCall hrun
  exact ⟨_, hgroups, hout _ hgroups⟩

theorem revoking_member_back_as_device :
    ¬ ∀ (V : LinkVerifier) (g m : String) (d₀ d d' : ClusterDaemon InProcessTransport) es es'
      roster links revocations evicted rejected, Initial d₀ → Steps (total (step V)) d₀ es d →
        (handleRequest V d (.setRoster g roster links revocations)).1 =
          .reconciled evicted rejected →
        Retired (step V d (.request (.setRoster g roster links revocations))) g m →
        Steps (total (step V)) d (.request (.setRoster g roster links revocations) :: es') d' →
        ∀ s, d'.groups[g]? = some s → m ∉ s.membership.allowed := by
  intro h
  have hne : m2 ≠ m1 := by simp [m1, m2, address_inj]
  have hm2 : canonicalAddress m2 = some m2 := (canonical_address rfl rfl).canonicalAddress
  obtain ⟨s, hs⟩ := step_after_revokingCall [(m2, "member")] [linkWire (signed memberAsDevice)] []
  obtain ⟨_, _, hreply⟩ := handleRequest_nodeDaemon plainVerifier [(m1, "member")] []
    [revocationWire (revoke m1 d1)]
  have hsteps : ∀ (d : ClusterDaemon InProcessTransport) e₁ e₂, Steps (total (step plainVerifier)) d
      [e₁, e₂] (step plainVerifier (step plainVerifier d e₁) e₂) := fun _ _ _ =>
    .cons rfl (.cons rfl (.nil _))
  have hgroups := (congrArg (fun d => d.groups["group"]?) hs).trans groups_rostered
  have hout := h plainVerifier "group" m1 nodeDaemon nodeDaemon _ [] _ _ _ _ _ _
    (initial_withFactory _ _) (.nil _) (congrArg Prod.fst hreply) retired_revokingCall
    (hsteps nodeDaemon revokingCall (call [(m2, "member")] [linkWire (signed memberAsDevice)] []))
  apply hout _ hgroups
  have hsound := sound_of_steps (initial_withFactory _ _)
    (Steps.single (rfl : total (step plainVerifier) nodeDaemon revokingCall _))
  have hretired := retired_revokingCall.effect (effect_step plainVerifier _
    (call [(m2, "member")] [linkWire (signed memberAsDevice)] []))
  rw [hs] at hretired
  rw [← allowedOf_of_getElem? groups_rostered,
    mem_allowedOf_rostered_iff (hsound.registries _) hretired]
  refine ⟨?_, m2, ⟨_, List.mem_cons_self, ?_, ?_⟩, .inl ⟨?_, ?_⟩⟩
  · simpa [hm2] using hne
  · decide
  · exact hm2
  · decide
  · apply (soleClaim_signed valid_memberAsDevice).mpr
    refine ⟨rfl, fun hp => hne ?_⟩
    exact (Prod.ext_iff.mp ((mem_revoked_revokingCall _).mp ((mem_revokedAfter_nil _).mp hp))).1

end CitrateCluster.CommsIdentity
