import CitrateCluster.Registry

namespace CitrateCluster.EffectiveRoster

open Std (ExtTreeMap ExtTreeSet)
open Roster Collections Device DeviceGate Registry

/-- One round of the first loop of `effective_roster`: the highest role wins, ties to the first. -/
def addRole (roleOf : ExtTreeMap String String) (entry : String × String) :
    ExtTreeMap String String :=
  let (addr, role) := entry
  match canonicalAddress addr with
  | none => roleOf
  | some a =>
    let better := (roleOf[a]?.map fun r => decide (roleRank role > roleRank r)).getD true
    if better then roleOf.insert a role else roleOf

def roleOf (roster : Entries) : ExtTreeMap String String := roster.foldl addRole ∅

/-- One round of the second loop: a link counts unless its device is listed itself or its member
does not pass the gate. -/
def addDevice (roleOf : ExtTreeMap String String) (acc : Entries × AddressSet) (l : DeviceLink) :
    Entries × AddressSet :=
  if roleOf.contains l.device then acc
  else
    match roleOf[l.member]? with
    | some role =>
      if roleRank role ≥ minClusterRank then
        (acc.1 ++ [(l.device, role)], acc.2.insert l.member)
      else acc
    | none => acc

def effectiveRoster (roster : Entries) (registry : DeviceRegistry) : Entries :=
  let roles := roleOf roster
  let revokers : AddressSet := ExtTreeSet.ofList (registry.revoked.toList.map (·.1))
  let (devices, onDeviceKeys) := registry.listLinks.foldl (addDevice roles) ([], revokers)
  let out := (roles.toList.filter fun e => !onDeviceKeys.contains e.1) ++ devices
  out.insertionSort fun a b => (lexCmp a b).isLE

/-- The gate that a roster and a registry describe. -/
def gateOf (roster : Entries) (registry : DeviceRegistry) : Gate String where
  listed := {a | ∃ e ∈ roster, canonicalAddress e.1 = some a}
  members := {a | ∃ e ∈ roster, minClusterRank ≤ roleRank e.2 ∧ canonicalAddress e.1 = some a}
  members_listed := fun _ ⟨e, he, _, ha⟩ => ⟨e, he, ha⟩
  owner := fun d m => ∃ l ∈ registry.listLinks, l.device = d ∧ l.member = m
  retired := {m | ∃ d, (m, d) ∈ registry.revoked}

section Roles

variable {roster : Entries} {a role : String}

/-- The roles under which a roster lists one address. -/
def rolesFor (roster : Entries) (a : String) : List String :=
  (roster.filter fun e => decide (canonicalAddress e.1 = some a)).map (·.2)

theorem mem_rolesFor {r : String} :
    r ∈ rolesFor roster a ↔ ∃ e ∈ roster, canonicalAddress e.1 = some a ∧ e.2 = r := by
  simp [rolesFor]

theorem getElem?_addRole (m : ExtTreeMap String String) (e : String × String) (a : String) :
    (addRole m e)[a]? =
      if canonicalAddress e.1 = some a then keepBest roleRank m[a]? e.2 else m[a]? := by
  obtain ⟨addr, role⟩ := e
  cases hb : canonicalAddress addr with
  | none => simp [addRole, hb]
  | some b =>
    by_cases hba : b = a
    · subst hba
      cases hmb : m[b]? with
      | none => simp [addRole, keepBest, hb, hmb]
      | some r => by_cases hgt : roleRank role > roleRank r <;> simp [addRole, keepBest, hb, hmb, hgt]
    · simp only [addRole, hb, Option.some.injEq, if_neg hba]
      split
      · simp [ExtTreeMap.getElem?_insert, hba]
      · rfl

theorem getElem?_foldl_addRole (roster : Entries) (m : ExtTreeMap String String) (a : String) :
    (roster.foldl addRole m)[a]? = (rolesFor roster a).foldl (keepBest roleRank) m[a]? := by
  induction roster generalizing m with
  | nil => rfl
  | cons e roster ih =>
    rw [List.foldl_cons, ih, getElem?_addRole]
    by_cases hc : canonicalAddress e.1 = some a <;> simp [rolesFor, hc]

theorem roleOf_cases (roster : Entries) (a : String) :
    (rolesFor roster a = [] ∧ (roleOf roster)[a]? = none) ∨
      ∃ role ∈ rolesFor roster a, (roleOf roster)[a]? = some role ∧
        ∀ r ∈ rolesFor roster a, roleRank r ≤ roleRank role := by
  rw [roleOf, getElem?_foldl_addRole, ExtTreeMap.getElem?_empty]
  exact foldl_keepBest roleRank _

theorem contains_roleOf_iff {registry : DeviceRegistry} :
    (roleOf roster).contains a = true ↔ a ∈ (gateOf roster registry).listed := by
  have hl : a ∈ (gateOf roster registry).listed ↔ ∃ r, r ∈ rolesFor roster a := by
    simp only [mem_rolesFor]
    exact ⟨fun ⟨e, he, ha⟩ => ⟨e.2, e, he, ha, rfl⟩, fun ⟨_, e, he, ha, _⟩ => ⟨e, he, ha⟩⟩
  rw [hl, ExtTreeMap.contains_eq_isSome_getElem?]
  rcases roleOf_cases roster a with ⟨hn, hr⟩ | ⟨role, hm, hr, _⟩
  · simp [hn, hr]
  · simpa [hr] using ⟨role, hm⟩

/-- The role an address is admitted with passes the gate when some listed role does. -/
theorem mem_members_iff {registry : DeviceRegistry} :
    a ∈ (gateOf roster registry).members ↔
      ∃ role, (roleOf roster)[a]? = some role ∧ minClusterRank ≤ roleRank role := by
  have hl : a ∈ (gateOf roster registry).members ↔
      ∃ r ∈ rolesFor roster a, minClusterRank ≤ roleRank r := by
    simp only [gateOf, Set.mem_ofPred_eq, mem_rolesFor]
    constructor
    · rintro ⟨e, he, hr, ha⟩
      exact ⟨e.2, ⟨e, he, ha, rfl⟩, hr⟩
    · rintro ⟨r, ⟨e, he, ha, rfl⟩, hr⟩
      exact ⟨e, he, hr, ha⟩
  rw [hl]
  rcases roleOf_cases roster a with ⟨hn, hr⟩ | ⟨role, hm, hr, hall⟩
  · simp [hn, hr]
  · constructor
    · rintro ⟨r, hrm, hle⟩
      exact ⟨role, hr, hle.trans (hall r hrm)⟩
    · rintro ⟨r, hrr, hle⟩
      rw [hr, Option.some.injEq] at hrr
      exact ⟨role, hm, hrr ▸ hle⟩

end Roles

section Effective

variable {roster : Entries} {registry : DeviceRegistry}

/-- What one round of the device loop adds. -/
def Adds (roster : Entries) (l : DeviceLink) (role : String) : Prop :=
  (roleOf roster).contains l.device = false ∧ (roleOf roster)[l.member]? = some role ∧
    minClusterRank ≤ roleRank role

theorem addDevice_cases (roster : Entries) (acc : Entries × AddressSet) (l : DeviceLink) :
    (∃ role, Adds roster l role ∧
        addDevice (roleOf roster) acc l = (acc.1 ++ [(l.device, role)], acc.2.insert l.member)) ∨
      ((∀ role, ¬ Adds roster l role) ∧ addDevice (roleOf roster) acc l = acc) := by
  simp only [addDevice, Adds]
  cases hd : (roleOf roster).contains l.device with
  | true => right; simp
  | false =>
    cases hm : (roleOf roster)[l.member]? with
    | none => right; simp
    | some role =>
      by_cases hr : minClusterRank ≤ roleRank role
      · left; exact ⟨role, by simp [hr]⟩
      · right; simp [hr, Nat.lt_of_not_le hr]

theorem mem_foldl_addDevice_devices (links : List DeviceLink) (acc : Entries × AddressSet)
    (e : String × String) :
    e ∈ (links.foldl (addDevice (roleOf roster)) acc).1 ↔
      e ∈ acc.1 ∨ ∃ l ∈ links, l.device = e.1 ∧ Adds roster l e.2 := by
  apply foldl_iff (fun acc : Entries × AddressSet => e ∈ acc.1)
  intro acc l
  rcases addDevice_cases roster acc l with ⟨role, hadd, hacc⟩ | ⟨hno, hacc⟩
  · have hrole : ∀ r, Adds roster l r ↔ r = role := by
      intro r
      exact ⟨fun h => Option.some.inj (h.2.1.symm.trans hadd.2.1), fun h => h ▸ hadd⟩
    rw [hacc, hrole]
    simp [Prod.ext_iff, eq_comm]
  · simp [hacc, hno]

theorem mem_foldl_addDevice_members (links : List DeviceLink) (acc : Entries × AddressSet)
    (m : String) :
    m ∈ (links.foldl (addDevice (roleOf roster)) acc).2 ↔
      m ∈ acc.2 ∨ ∃ l ∈ links, l.member = m ∧ ∃ role, Adds roster l role := by
  apply foldl_iff (fun acc : Entries × AddressSet => m ∈ acc.2)
  intro acc l
  rcases addDevice_cases roster acc l with ⟨role, hadd, hacc⟩ | ⟨hno, hacc⟩
  · have hex : ∃ r, Adds roster l r := ⟨role, hadd⟩
    rw [hacc, mem_insert_iff]
    simp only [hex, and_true]
    tauto
  · simp [hacc, hno]

theorem counts_iff {d m : String} :
    (gateOf roster registry).Counts d m ↔
      ∃ l ∈ registry.listLinks, l.device = d ∧ l.member = m ∧ ∃ role, Adds roster l role := by
  have hc : ∀ d', (roleOf roster).contains d' = false ↔ d' ∉ (gateOf roster registry).listed := by
    intro d'
    rw [← contains_roleOf_iff, Bool.not_eq_true]
  simp only [Gate.Counts, mem_members_iff, Adds, hc]
  constructor
  · rintro ⟨⟨l, hl, rfl, rfl⟩, hd, role, hr, hle⟩
    exact ⟨l, hl, rfl, rfl, role, hd, hr, hle⟩
  · rintro ⟨l, hl, rfl, rfl, role, hd, hr, hle⟩
    exact ⟨⟨l, hl, rfl, rfl⟩, hd, role, hr, hle⟩

theorem mem_effectiveRoster {a role : String} :
    (a, role) ∈ effectiveRoster roster registry ↔
      ((roleOf roster)[a]? = some role ∧ a ∉ (gateOf roster registry).onDeviceKeys) ∨
        ∃ l ∈ registry.listLinks, l.device = a ∧ Adds roster l role := by
  have hkeys : a ∈ (registry.listLinks.foldl (addDevice (roleOf roster))
      ([], ExtTreeSet.ofList (registry.revoked.toList.map (·.1)))).2 ↔
        a ∈ (gateOf roster registry).onDeviceKeys := by
    rw [mem_foldl_addDevice_members]
    simp only [Gate.onDeviceKeys, Set.mem_ofPred_eq, counts_iff]
    apply or_congr
    · rw [mem_ofList_iff]
      simp [gateOf]
    · constructor
      · rintro ⟨l, hl, rfl, hr⟩
        exact ⟨l.device, l, hl, rfl, rfl, hr⟩
      · rintro ⟨_, l, hl, _, hm, hr⟩
        exact ⟨l, hl, hm, hr⟩
  simp only [effectiveRoster, List.mem_insertionSort, List.mem_append, List.mem_filter,
    ExtTreeMap.mem_toList_iff_getElem?_eq_some, mem_foldl_addDevice_devices, List.not_mem_nil,
    false_or, Bool.not_eq_true', contains_eq_false_iff, hkeys]

theorem canonical_of_roleOf {a role : String} (h : (roleOf roster)[a]? = some role) :
    Canonical a := by
  rcases roleOf_cases roster a with ⟨_, hn⟩ | ⟨r, hr, _⟩
  · rw [hn] at h
    cases h
  · obtain ⟨e, _, ha, _⟩ := mem_rolesFor.mp hr
    exact canonical_of_canonicalAddress ha

/-- The admission boundary is the gate: what `allowed_set` makes of the effective roster is the
set of addresses that the gate admits. -/
theorem mem_allowedSet_effectiveRoster (hl : ∀ l ∈ registry.listLinks, Canonical l.device)
    {a : String} :
    a ∈ allowedSet (effectiveRoster roster registry) ↔ a ∈ (gateOf roster registry).admitted := by
  rw [mem_allowedSet]
  constructor
  · rintro ⟨⟨b, role⟩, he, hr, hc⟩
    rcases mem_effectiveRoster.mp he with ⟨hb, hk⟩ | ⟨l, hm, rfl, hadd⟩
    · rw [(canonical_of_roleOf hb).canonicalAddress, Option.some.injEq] at hc
      subst hc
      exact .inl ⟨mem_members_iff.mpr ⟨role, hb, hr⟩, hk⟩
    · rw [(hl l hm).canonicalAddress, Option.some.injEq] at hc
      subst hc
      exact .inr ⟨l.member, counts_iff.mpr ⟨l, hm, rfl, rfl, role, hadd⟩⟩
  · rintro (⟨hm, hk⟩ | ⟨m, hc⟩)
    · obtain ⟨role, hr, hle⟩ := mem_members_iff.mp hm
      exact ⟨(a, role), mem_effectiveRoster.mpr (.inl ⟨hr, hk⟩), hle,
        (canonical_of_roleOf hr).canonicalAddress⟩
    · obtain ⟨l, hm, rfl, _, role, hadd⟩ := counts_iff.mp hc
      exact ⟨(l.device, role), mem_effectiveRoster.mpr (.inr ⟨l, hm, rfl, hadd⟩), hadd.2.2,
        (hl l hm).canonicalAddress⟩

end Effective

end CitrateCluster.EffectiveRoster
