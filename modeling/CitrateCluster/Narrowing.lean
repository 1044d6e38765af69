import CitrateCluster.Revocation

namespace CitrateCluster.Narrowing

open Std (ExtTreeMap ExtTreeSet)
open Runs Roster Collections Device DeviceGate DeviceRegistry Registry EffectiveRoster Revocation

variable {V : LinkVerifier} {reg reg' t t' : DeviceRegistry} {roster : Entries}

theorem mem_allowedSet_of_subset {entries entries' : Entries} (h : ∀ e ∈ entries', e ∈ entries)
    {a : String} (ha : a ∈ allowedSet entries') : a ∈ allowedSet entries := by
  obtain ⟨e, he, hr, hc⟩ := mem_allowedSet.mp ha
  exact mem_allowedSet.mpr ⟨e, h e he, hr, hc⟩

/-- The entries of a narrower gate are entries of the wider one, under the same roles. -/
theorem mem_effectiveRoster_of_narrower
    (h : (gateOf roster reg').Narrower (gateOf roster reg)) :
    ∀ e ∈ effectiveRoster roster reg', e ∈ effectiveRoster roster reg := by
  rintro ⟨a, role⟩ he
  rw [mem_effectiveRoster] at he ⊢
  obtain ⟨hrole, hk⟩ | ⟨l, hl, rfl, hadds⟩ := he
  · exact .inl ⟨hrole, fun hm => hk (h.onDeviceKeys hm)⟩
  · obtain ⟨l', hl', hd, hm⟩ := h.owner l.device l.member ⟨l, hl, rfl, rfl⟩
    refine .inr ⟨l', hl', hd, ?_⟩
    rw [Adds, hd, hm]
    exact hadds

/-- A registry that has every revocation of another, only links of it, and the member of each link
that it lacks among those who have revoked something. -/
structure Tighter (reg' reg : DeviceRegistry) : Prop where
  owner : ∀ d m, (∃ l ∈ reg'.listLinks, l.device = d ∧ l.member = m) →
    ∃ l ∈ reg.listLinks, l.device = d ∧ l.member = m
  revoked : ∀ p ∈ reg.revoked, p ∈ reg'.revoked
  dropped : ∀ d m, (∃ l ∈ reg.listLinks, l.device = d ∧ l.member = m) →
    (∃ l ∈ reg'.listLinks, l.device = d ∧ l.member = m) ∨ ∃ d', (m, d') ∈ reg'.revoked

theorem Tighter.gateOf (h : Tighter reg' reg) (roster : Entries) :
    (gateOf roster reg').Narrower (EffectiveRoster.gateOf roster reg) where
  listed := rfl
  members := rfl
  owner := h.owner
  retired := fun _ ⟨d, hd⟩ => ⟨d, h.revoked _ hd⟩
  dropped := h.dropped

theorem Tighter.of_links (hlinks : reg.links = reg'.links)
    (hrev : ∀ p ∈ reg.revoked, p ∈ reg'.revoked) : Tighter reg' reg := by
  have hlist : reg'.listLinks = reg.listLinks := by
    rw [listLinks, listLinks, hlinks]
  exact ⟨fun _ _ h => hlist ▸ h, hrev, fun _ _ h => .inl (hlist ▸ h)⟩

/-- A call with the same links and at least the same revocations, both within the cap. -/
structure RevokesMore (u u' : UpdateCall) : Prop where
  links : u'.links = u.links
  revocations : ∀ r ∈ u.revocations, r ∈ u'.revocations
  cap : WithinCap u.links u.revocations
  cap' : WithinCap u'.links u'.revocations

/-- An update with the same links and more revocations drops only links whose member revoked
something. -/
theorem Tighter.update (h : ∀ p ∈ reg.revoked, p ∈ reg'.revoked) {u u' : UpdateCall}
    (hu : RevokesMore u u') : Tighter (reg'.update u'.links u'.revocations V).2
      (reg.update u.links u.revocations V).2 := by
  have hafter : ∀ p, p ∈ revokedAfter V reg u.revocations →
      p ∈ revokedAfter V reg' u'.revocations := by
    rintro p (hp | ⟨r, hr, hp⟩)
    · exact .inl (h p hp)
    · exact .inr ⟨r, hu.revocations r hr, hp⟩
  have hclaims : Claims V u'.links = Claims V u.links := by
    rw [hu.links]
  refine ⟨fun d m hown => ?_, fun p hp => ?_, fun d m hown => ?_⟩
  · rw [owner_update_iff V hu.cap', hclaims] at hown
    rw [owner_update_iff V hu.cap]
    exact ⟨hown.1, hown.2.1, fun hp => hown.2.2 (hafter _ hp)⟩
  · rw [mem_update_revoked hu.cap']
    exact hafter p ((mem_update_revoked hu.cap p).mp hp)
  · rw [owner_update_iff V hu.cap] at hown
    rw [owner_update_iff V hu.cap', hclaims]
    by_cases hp : (m, d) ∈ revokedAfter V reg' u'.revocations
    · exact .inr ⟨d, (mem_update_revoked hu.cap' _).mpr hp⟩
    · exact .inl ⟨hown.1, hown.2.1, hp⟩

theorem Tighter.steps {us us' : List UpdateCall} (h : Tighter reg' reg)
    (hus : List.Forall₂ RevokesMore us us') (hs : Steps (updateStep V) reg us t)
    (hs' : Steps (updateStep V) reg' us' t') : Tighter t' t := by
  induction hus generalizing reg reg' with
  | nil =>
    cases hs
    cases hs'
    exact h
  | cons hu _ ih =>
    cases hs with
    | cons hstep hrest =>
      cases hs' with
      | cons hstep' hrest' =>
        obtain rfl := hstep
        obtain rfl := hstep'
        exact ih (Tighter.update h.revoked hu) hrest hrest'

/-- Two registries with the same links, and two runs of updates with the same links: where the
second has every revocation of the first, it admits no address that the first does not admit. -/
theorem revoking_never_widens {us us' : List UpdateCall} (hlinks : reg.links = reg'.links)
    (hrev : ∀ p ∈ reg.revoked, p ∈ reg'.revoked) (hus : List.Forall₂ RevokesMore us us')
    (h : Steps (updateStep V) reg us t) (h' : Steps (updateStep V) reg' us' t')
    (roster : Entries) :
    ∀ a ∈ allowedSet (effectiveRoster roster t'), a ∈ allowedSet (effectiveRoster roster t) := by
  have ht : Tighter t' t := (Tighter.of_links hlinks hrev).steps hus h h'
  intro a ha
  exact mem_allowedSet_of_subset (mem_effectiveRoster_of_narrower (ht.gateOf roster)) ha

/-- The second member keeps its place when the first one has revoked its device. -/
theorem revoking_never_widens_sample :
    m2 ∈ allowedSet (effectiveRoster [(m1, "member"), (m2, "member")]
        (DeviceRegistry.new.update [signed (linkOf '1' '1' 0 0)] [revoke m1 d1] plainVerifier).2) ∧
      m2 ∈ allowedSet (effectiveRoster [(m1, "member"), (m2, "member")]
        (DeviceRegistry.new.update [signed (linkOf '1' '1' 0 0)] [] plainVerifier).2) := by
  have hm2 : Canonical m2 := canonical_address rfl rfl
  have hne : m1 ≠ m2 := by simp [m1, m2, address_inj]
  have hrecorded : recorded plainVerifier (revoke m1 d1) = some (m1, d1) :=
    recorded_revoke (canonical_address rfl rfl) (canonical_address rfl rfl)
  have hvalid : ∀ l ∈ [linkOf '1' '1' 0 0], l.Valid := fun l hl =>
    List.mem_singleton.mp hl ▸ valid_linkOf rfl rfl (by decide)
  have hrun : ∀ u : UpdateCall, Steps (updateStep plainVerifier) .new [u]
      (DeviceRegistry.new.update u.links u.revocations plainVerifier).2 := fun _ => .single rfl
  have hkept : m2 ∈ allowedSet (effectiveRoster [(m1, "member"), (m2, "member")]
      (DeviceRegistry.new.update [signed (linkOf '1' '1' 0 0)] [revoke m1 d1] plainVerifier).2) := by
    rw [mem_allowedSet_effectiveRoster (wellFormed_new.update _ _ _).canonical_device]
    refine .inl ⟨⟨(m2, "member"), by simp, by decide, hm2.canonicalAddress⟩, ?_⟩
    rintro (⟨d, hrev⟩ | ⟨d, hown, _⟩)
    · obtain hold | ⟨r, hr, hrec⟩ := (mem_update_revoked (by decide) _).mp hrev
      · simp [DeviceRegistry.new] at hold
      · obtain rfl := List.mem_singleton.mp hr
        exact hne (Prod.ext_iff.mp (Option.some.inj (hrecorded.symm.trans hrec))).1
    · have hclaim := ((owner_update_iff plainVerifier (by decide)).mp hown).1
      obtain ⟨l, hl, _, hm⟩ := (claims_signed hvalid d m2).mp hclaim
      obtain rfl := List.mem_singleton.mp hl
      exact hne hm
  have hus : RevokesMore ⟨[signed (linkOf '1' '1' 0 0)], []⟩
      ⟨[signed (linkOf '1' '1' 0 0)], [revoke m1 d1]⟩ := ⟨rfl, by simp, by decide, by decide⟩
  exact ⟨hkept, revoking_never_widens rfl (fun _ hp => hp) (.cons hus .nil) (hrun _) (hrun _) _ _
    hkept⟩

end CitrateCluster.Narrowing
