import CitrateCluster.Revocation

namespace CitrateCluster.RoleGate

open Std (ExtTreeMap ExtTreeSet)
open Runs Roster Collections Device DeviceGate DeviceRegistry Registry EffectiveRoster Revocation

variable {V : LinkVerifier} {roster : Entries} {reg : DeviceRegistry} {a role : String}
  {l : DeviceLink}

section Highest

/-- A role under which a roster lists an address, with no higher one. -/
def HighestRole (roster : Entries) (a role : String) : Prop :=
  (∃ e ∈ roster, canonicalAddress e.1 = some a ∧ e.2 = role) ∧
    ∀ e ∈ roster, canonicalAddress e.1 = some a → roleRank e.2 ≤ roleRank role

theorem highestRole_iff :
    HighestRole roster a role ↔
      role ∈ rolesFor roster a ∧ ∀ r ∈ rolesFor roster a, roleRank r ≤ roleRank role := by
  simp only [HighestRole, mem_rolesFor]
  apply and_congr_right
  intro _
  constructor
  · rintro h _ ⟨e, he, ha, rfl⟩
    exact h e he ha
  · exact fun h e he ha => h e.2 ⟨e, he, ha, rfl⟩

theorem highestRole_of_roleOf (h : (roleOf roster)[a]? = some role) : HighestRole roster a role := by
  rw [highestRole_iff]
  obtain ⟨_, hn⟩ | ⟨r, hr, hsome, hmax⟩ := roleOf_cases roster a
  · cases hn.symm.trans h
  · cases hsome.symm.trans h
    exact ⟨hr, hmax⟩

/-- Among the roles that pass the gate a rank has one role only. -/
theorem eq_of_roleRank_eq {r r' : String} (hr : minClusterRank ≤ roleRank r)
    (h : roleRank r = roleRank r') : r = r' := by
  have hpass : ∀ s, minClusterRank ≤ roleRank s →
      s = "owner" ∨ s = "admin" ∨ s = "partner" ∨ s = "member" := by
    intro s hs
    unfold roleRank at hs
    split at hs <;> simp_all [minClusterRank]
  obtain rfl | rfl | rfl | rfl := hpass r hr <;>
    obtain rfl | rfl | rfl | rfl := hpass r' (h ▸ hr) <;> first | rfl | cases h

theorem roleOf_of_highestRole (h : HighestRole roster a role)
    (hr : minClusterRank ≤ roleRank role) : (roleOf roster)[a]? = some role := by
  obtain ⟨hm, hmax⟩ := highestRole_iff.mp h
  obtain ⟨hn, _⟩ | ⟨r, hr', hsome, hmax'⟩ := roleOf_cases roster a
  · simp [hn] at hm
  · rw [hsome, eq_of_roleRank_eq hr (le_antisymm (hmax' role hm) (hmax r hr'))]

/-- The highest role of an address passes the gate when one of its roles does. -/
theorem mem_members_iff_highestRole :
    a ∈ (gateOf roster reg).members ↔
      ∃ role, HighestRole roster a role ∧ minClusterRank ≤ roleRank role := by
  rw [mem_members_iff]
  constructor
  · rintro ⟨role, h, hr⟩
    exact ⟨role, highestRole_of_roleOf h, hr⟩
  · rintro ⟨role, h, hr⟩
    exact ⟨role, roleOf_of_highestRole h hr, hr⟩

/-- A link counts: its device is no roster address and its member's highest role is Member or
above. -/
def LinkCounts (roster : Entries) (l : DeviceLink) : Prop :=
  (∀ e ∈ roster, canonicalAddress e.1 ≠ some l.device) ∧
    ∃ role, HighestRole roster l.member role ∧ minClusterRank ≤ roleRank role

theorem contains_roleOf_eq_false_iff :
    (roleOf roster).contains a = false ↔ ∀ e ∈ roster, canonicalAddress e.1 ≠ some a := by
  have h : (roleOf roster).contains a = true ↔ a ∈ (gateOf roster .new).listed :=
    contains_roleOf_iff
  rw [← Bool.not_eq_true, h]
  simp [gateOf]

theorem roleOf_eq_some_iff (hr : minClusterRank ≤ roleRank role) :
    (roleOf roster)[a]? = some role ↔ HighestRole roster a role :=
  ⟨highestRole_of_roleOf, fun h => roleOf_of_highestRole h hr⟩

theorem adds_iff :
    Adds roster l role ↔ (∀ e ∈ roster, canonicalAddress e.1 ≠ some l.device) ∧
      HighestRole roster l.member role ∧ minClusterRank ≤ roleRank role := by
  rw [Adds, contains_roleOf_eq_false_iff]
  apply and_congr_right
  intro _
  apply and_congr_left
  exact roleOf_eq_some_iff

theorem linkCounts_iff : LinkCounts roster l ↔ ∃ role, Adds roster l role := by
  simp only [LinkCounts, adds_iff, exists_and_left]

theorem counts_gateOf_iff {d m : String} :
    (gateOf roster reg).Counts d m ↔
      ∃ l ∈ reg.listLinks, l.device = d ∧ l.member = m ∧ LinkCounts roster l := by
  simp only [counts_iff, linkCounts_iff]

end Highest

section Entries

/-- The device entries name the devices of some of the links, in their order. -/
theorem foldl_addDevice_devices (roster : Entries) (links : List DeviceLink)
    (acc : Entries × AddressSet) :
    ∃ devices, (links.foldl (addDevice (roleOf roster)) acc).1 = acc.1 ++ devices ∧
      (devices.map Prod.fst).Sublist (links.map DeviceLink.device) := by
  induction links generalizing acc with
  | nil => exact ⟨[], by simp, List.Sublist.refl _⟩
  | cons l links ih =>
    obtain ⟨devices, heq, hsub⟩ := ih (addDevice (roleOf roster) acc l)
    rw [List.foldl_cons, heq, List.map_cons]
    obtain ⟨role, _, hacc⟩ | ⟨_, hacc⟩ := addDevice_cases roster acc l
    · refine ⟨(l.device, role) :: devices, by rw [hacc]; simp, ?_⟩
      simpa using hsub
    · exact ⟨devices, by rw [hacc], hsub.cons _⟩

theorem nodup_keys {β : Type} (m : ExtTreeMap String β) : (m.toList.map Prod.fst).Nodup := by
  apply List.pairwise_map.mpr
  exact ExtTreeMap.distinct_keys_toList.imp fun h he => h (by simp [he])

theorem nodup_devices (h : Filed reg) : (reg.listLinks.map DeviceLink.device).Nodup := by
  have hkeys : reg.listLinks.map DeviceLink.device = reg.links.toList.map Prod.fst := by
    rw [listLinks, List.map_map]
    apply List.map_congr_left
    rintro ⟨d, l⟩ hm
    exact h d l (ExtTreeMap.mem_toList_iff_getElem?_eq_some.mp hm)
  rw [hkeys]
  exact nodup_keys _

/-- Every address has one entry at most. -/
theorem nodup_effectiveRoster (h : Filed reg) :
    ((effectiveRoster roster reg).map Prod.fst).Nodup := by
  let revokers : AddressSet := ExtTreeSet.ofList (reg.revoked.toList.map (·.1))
  obtain ⟨devices, heq, hsub⟩ := foldl_addDevice_devices roster reg.listLinks ([], revokers)
  let keys := (reg.listLinks.foldl (addDevice (roleOf roster)) ([], revokers)).2
  have hperm : ((effectiveRoster roster reg).map Prod.fst).Perm
      ((((roleOf roster).toList.filter fun e => !keys.contains e.1) ++ devices).map Prod.fst) := by
    have hout : effectiveRoster roster reg =
        (((roleOf roster).toList.filter fun e => !keys.contains e.1) ++ devices).insertionSort
          fun a b => (lexCmp a b).isLE := by
      rw [effectiveRoster]
      simp only [heq, List.nil_append, keys, revokers]
    rw [hout]
    exact (List.perm_insertionSort _ _).map _
  rw [hperm.nodup_iff, List.map_append, List.nodup_append]
  refine ⟨?_, hsub.nodup (nodup_devices h), ?_⟩
  · exact (nodup_keys (roleOf roster)).sublist ((List.filter_sublist).map _)
  · rintro a ha b hb rfl
    obtain ⟨⟨a, role⟩, hrole, rfl⟩ := List.mem_map.mp ha
    obtain ⟨⟨d, role'⟩, hdev, hd⟩ := List.mem_map.mp hb
    have hm := (mem_foldl_addDevice_devices reg.listLinks ([], revokers) (d, role')).mp
      (by rw [heq]; exact hdev)
    obtain hm | ⟨l, _, hld, hadds⟩ := hm
    · cases hm
    · have hlisted := ExtTreeMap.mem_toList_iff_getElem?_eq_some.mp (List.mem_filter.mp hrole).1
      simp only at hd hld
      have hc := hadds.1
      rw [hld, hd, ExtTreeMap.contains_eq_isSome_getElem?, hlisted] at hc
      cases hc

end Entries

section Reachable

variable {us : List UpdateCall}

theorem wellFormed_of_steps (h : Steps (updateStep V) .new us reg) : WellFormed reg := by
  refine h.invariant (I := WellFormed) ?_ wellFormed_new
  rintro reg u _ hreg rfl
  exact hreg.update V _ _

theorem mem_allowedSet_iff (h : WellFormed reg) :
    a ∈ allowedSet (effectiveRoster roster reg) ↔
      ((∃ role, HighestRole roster a role ∧ minClusterRank ≤ roleRank role) ∧
          (∀ d, (a, d) ∉ reg.revoked) ∧
          ∀ l ∈ reg.listLinks, l.member = a → ¬ LinkCounts roster l) ∨
        ∃ l ∈ reg.listLinks, l.device = a ∧ LinkCounts roster l := by
  rw [mem_allowedSet_effectiveRoster h.canonical_device]
  simp only [Gate.admitted, Gate.onDeviceKeys, Set.mem_ofPred_eq, mem_members_iff_highestRole,
    counts_gateOf_iff]
  apply or_congr
  · apply and_congr_right
    intro _
    rw [not_or]
    apply and_congr
    · simp [gateOf]
    · constructor
      · exact fun hno l hl hm hc => hno ⟨l.device, l, hl, rfl, hm, hc⟩
      · rintro hno ⟨_, l, hl, _, hm, hc⟩
        exact hno l hl hm hc
  · constructor
    · rintro ⟨_, l, hl, hd, _, hc⟩
      exact ⟨l, hl, hd, hc⟩
    · rintro ⟨l, hl, hd, hc⟩
      exact ⟨l.member, l, hl, hd, rfl, hc⟩

/-- The entry of a device comes from its one link, not from the roster. -/
theorem mem_device_iff {l : DeviceLink} (h : Filed reg) (hl : l ∈ reg.listLinks)
    (hd : ∀ e ∈ roster, canonicalAddress e.1 ≠ some l.device) :
    (l.device, role) ∈ effectiveRoster roster reg ↔
      HighestRole roster l.member role ∧ minClusterRank ≤ roleRank role := by
  have hadds : Adds roster l role ↔
      HighestRole roster l.member role ∧ minClusterRank ≤ roleRank role := by
    rw [adds_iff, and_iff_right hd]
  rw [mem_effectiveRoster, ← hadds]
  constructor
  · rintro (⟨hrole, _⟩ | ⟨l', hl', hdev, h'⟩)
    · obtain ⟨⟨e, he, ha, _⟩, _⟩ := highestRole_of_roleOf hrole
      exact absurd ha (hd e he)
    · obtain rfl := h.eq_of_device hl hl' hdev
      exact h'
  · exact fun h' => .inr ⟨l, hl, rfl, h'⟩

/-- No entry carries more than the highest role of its own address or of the member that its one
counting link names. -/
theorem role_of_mem (h : (a, role) ∈ effectiveRoster roster reg) :
    HighestRole roster a role ∨
      ∃ l ∈ reg.listLinks, l.device = a ∧ LinkCounts roster l ∧ HighestRole roster l.member role := by
  obtain ⟨hrole, _⟩ | ⟨l, hl, hd, hadds⟩ := mem_effectiveRoster.mp h
  · exact .inl (highestRole_of_roleOf hrole)
  · exact .inr ⟨l, hl, hd, linkCounts_iff.mpr ⟨role, hadds⟩, (adds_iff.mp hadds).2.1⟩

/-- What the effective roster of a reachable registry admits: the members that have revoked nothing
and have no counting link, and the devices of the counting links, each under one entry. A device
that is no roster address has an entry exactly with the highest role of its member, from Member on,
and no entry carries another role. -/
theorem effective_roster_is_role_gate (h : Steps (updateStep V) .new us reg) (roster : Entries) :
    (∀ a, a ∈ allowedSet (effectiveRoster roster reg) ↔
      ((∃ role, HighestRole roster a role ∧ minClusterRank ≤ roleRank role) ∧
          (∀ d, (a, d) ∉ reg.revoked) ∧
          ∀ l ∈ reg.listLinks, l.member = a → ¬ LinkCounts roster l) ∨
        ∃ l ∈ reg.listLinks, l.device = a ∧ LinkCounts roster l) ∧
      ((effectiveRoster roster reg).map Prod.fst).Nodup ∧
      (∀ l ∈ reg.listLinks, (∀ e ∈ roster, canonicalAddress e.1 ≠ some l.device) → ∀ role,
        (l.device, role) ∈ effectiveRoster roster reg ↔
          HighestRole roster l.member role ∧ minClusterRank ≤ roleRank role) ∧
      ∀ a role, (a, role) ∈ effectiveRoster roster reg → HighestRole roster a role ∨
        ∃ l ∈ reg.listLinks, l.device = a ∧ LinkCounts roster l ∧
          HighestRole roster l.member role := by
  have hwf : WellFormed reg := wellFormed_of_steps h
  exact ⟨fun a => mem_allowedSet_iff hwf, nodup_effectiveRoster hwf.filed,
    fun l hl hd role => mem_device_iff hwf.filed hl hd, fun a role => role_of_mem⟩

theorem effective_roster_is_role_gate_sample :
    (d1, "owner") ∈ effectiveRoster [(m1, "guest"), ("0x" ++ m1, "owner"), (m2, "member")]
      (DeviceRegistry.new.update [signed (linkOf '1' '1' 0 0)] [] plainVerifier).2 := by
  have hm1 : canonicalAddress m1 = some m1 := (canonical_address rfl rfl).canonicalAddress
  have hm1' : canonicalAddress ("0x" ++ m1) = some m1 := by decide +kernel
  have hm2 : canonicalAddress m2 = some m2 := (canonical_address rfl rfl).canonicalAddress
  have hne : m2 ≠ m1 := by simp [m1, m2, address_inj]
  have hd : m1 ≠ d1 ∧ m2 ≠ d1 := by simp [m1, m2, d1, address_inj]
  have hrun : Steps (updateStep plainVerifier) .new [⟨[signed (linkOf '1' '1' 0 0)], []⟩]
      (DeviceRegistry.new.update [signed (linkOf '1' '1' 0 0)] [] plainVerifier).2 := .single rfl
  obtain ⟨l, hl, hdev, hmem⟩ : ∃ l ∈ (DeviceRegistry.new.update [signed (linkOf '1' '1' 0 0)] []
      plainVerifier).2.listLinks, l.device = d1 ∧ l.member = m1 :=
    owner_signed (valid_linkOf rfl rfl (by decide))
  have hhigh : HighestRole [(m1, "guest"), ("0x" ++ m1, "owner"), (m2, "member")] m1 "owner" := by
    refine ⟨⟨("0x" ++ m1, "owner"), by simp, hm1', rfl⟩, ?_⟩
    simp [hm1, hm1', hm2, hne, roleRank]
  have hunlisted : ∀ e ∈ [(m1, "guest"), ("0x" ++ m1, "owner"), (m2, "member")],
      canonicalAddress e.1 ≠ some l.device := by
    rw [hdev]
    simpa [hm1, hm1', hm2, linkOf, d1] using hd
  have hentry := ((effective_roster_is_role_gate hrun _).2.2.1 l hl hunlisted "owner").mpr
    ⟨hmem ▸ hhigh, by decide⟩
  rwa [hdev] at hentry

end Reachable

end CitrateCluster.RoleGate
