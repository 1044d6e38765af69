import CitrateCluster.Registry

namespace CitrateCluster.UpdateSpec

open Std (ExtTreeMap ExtTreeSet)
open Text Roster Collections Device DeviceGate DeviceRegistry Registry

variable {V : LinkVerifier} {reg : DeviceRegistry} {links : List SignedDeviceLink}
  {revocations : List SignedRevocation}

section Verdicts

/-- A revocation is well formed and signed by its member. -/
def SignedByMember (V : LinkVerifier) (r : SignedRevocation) (p : String × String) : Prop :=
  ∃ rev, DeviceRevocation.new r.revocation.member r.revocation.device r.revocation.revokedAt =
      some rev ∧
    V.recover rev.signingMessage r.memberSig = some rev.member ∧ p = (rev.member, rev.device)

/-- A link passes validation as a given canonical body, and its member, its device and its wallet
have each signed that body. -/
structure Verifies (V : LinkVerifier) (s : SignedDeviceLink) (c : DeviceLink) : Prop where
  canon : s.canon = some c
  member : V.recover c.signingMessage s.memberSig = some c.member
  device : V.recover c.signingMessage s.deviceSig = some c.device
  wallet : V.recover c.signingMessage s.walletSig = some c.wallet

/-- What is reported about a revocation, if anything: the device it names, in canonical form if both
addresses have one. -/
def revocationRefusal (V : LinkVerifier) (r : SignedRevocation) : Option LinkRejection :=
  match DeviceRevocation.new r.revocation.member r.revocation.device r.revocation.revokedAt with
  | none => some (.badRevocation r.revocation.device)
  | some rev =>
    if V.recover rev.signingMessage r.memberSig = some rev.member then none
    else some (.badRevocation rev.device)

/-- What is reported about a link, if anything: that it is malformed, or the first signature that
fails. -/
def linkRefusal (V : LinkVerifier) (s : SignedDeviceLink) : Option LinkRejection :=
  match s.canon with
  | none => some (.malformed s.link.device)
  | some c =>
    if V.recover c.signingMessage s.memberSig ≠ some c.member then
      some (.badSignature c.device "member")
    else if V.recover c.signingMessage s.deviceSig ≠ some c.device then
      some (.badSignature c.device "device")
    else if V.recover c.signingMessage s.walletSig ≠ some c.wallet then
      some (.badSignature c.device "wallet")
    else none

theorem recorded_eq_some_iff {r : SignedRevocation} {p : String × String} :
    recorded V r = some p ↔ SignedByMember V r p := by
  rw [recorded, SignedByMember]
  split
  · next h => simp [h]
  · next rev h =>
    simp only [h, Option.some.injEq, Option.ite_none_right_eq_some, exists_eq_left', eq_comm (a := p)]

theorem revocationRefusal_eq_none_iff {r : SignedRevocation} :
    revocationRefusal V r = none ↔ ∃ p, SignedByMember V r p := by
  rw [revocationRefusal]
  simp only [SignedByMember]
  split
  · next h => simp [h]
  · next rev h => simp [h]

theorem verifyLink_eq (s : SignedDeviceLink) :
    verifyLink s V = match linkRefusal V s with
      | some e => .error e
      | none => .ok () := by
  rw [verifyLink, linkRefusal]
  cases s.canon with
  | none => rfl
  | some c =>
    by_cases hm : V.recover c.signingMessage s.memberSig = some c.member
    · by_cases hd : V.recover c.signingMessage s.deviceSig = some c.device
      · by_cases hw : V.recover c.signingMessage s.walletSig = some c.wallet
        · simp [hm, hd, hw]
          rfl
        · simp [hm, hd, hw]
          rfl
      · simp [hm, hd]
        rfl
    · simp [hm]
      rfl

theorem check_eq_none_iff {α : Type} {p : Prop} [Decidable p] {x : α} {rest : Option α} :
    (if ¬ p then some x else rest) = none ↔ p ∧ rest = none := by
  by_cases hp : p <;> simp [hp]

theorem verifies_iff_of_canon {s : SignedDeviceLink} {c : DeviceLink} (hc : s.canon = some c) :
    linkRefusal V s = none ↔ Verifies V s c := by
  simp only [linkRefusal, hc, ne_eq, check_eq_none_iff, and_true]
  exact ⟨fun ⟨hm, hd, hw⟩ => ⟨hc, hm, hd, hw⟩, fun h => ⟨h.member, h.device, h.wallet⟩⟩

theorem body_eq_some_iff {s : SignedDeviceLink} {c : DeviceLink} :
    body V s = some c ↔ Verifies V s c := by
  rw [body, verifyLink_eq]
  constructor
  · intro h
    cases hr : linkRefusal V s with
    | none =>
      simp only [hr] at h
      exact (verifies_iff_of_canon h).mp hr
    | some e => simp [hr] at h
  · intro h
    rw [(verifies_iff_of_canon h.canon).mpr h]
    exact h.canon

theorem linkRefusal_eq_none_iff {s : SignedDeviceLink} :
    linkRefusal V s = none ↔ ∃ c, Verifies V s c := by
  constructor
  · intro h
    cases hc : s.canon with
    | none => simp [linkRefusal, hc] at h
    | some c => exact ⟨c, (verifies_iff_of_canon hc).mp h⟩
  · rintro ⟨c, hc⟩
    exact (verifies_iff_of_canon hc.canon).mpr hc

end Verdicts

section Loops

theorem snd_recordRevocation (acc : ExtTreeSet (String × String) lexCmp × List LinkRejection)
    (r : SignedRevocation) :
    (recordRevocation V acc r).2 = acc.2 ++ (revocationRefusal V r).toList := by
  rw [recordRevocation, revocationRefusal]
  generalize DeviceRevocation.new _ _ _ = o
  cases o with
  | none => rfl
  | some rev =>
    dsimp only
    split
    · exact (List.append_nil _).symm
    · rfl

theorem snd_collectLink (acc : ExtTreeMap String (List DeviceLink) × List LinkRejection)
    (s : SignedDeviceLink) :
    (collectLink V acc s).2 = acc.2 ++ (linkRefusal V s).toList := by
  rw [collectLink, verifyLink_eq]
  cases linkRefusal V s with
  | some e => rfl
  | none =>
    dsimp only
    cases s.canon <;> exact (List.append_nil _).symm

/-- What is reported about a device with verified links. -/
def deviceRefusal (revoked : ExtTreeSet (String × String) lexCmp)
    (entry : String × List DeviceLink) : Option LinkRejection :=
  if (ExtTreeSet.ofList (entry.2.map (·.member))).size > 1 then some (.conflict entry.1)
  else
    match latest issueKey entry.2 with
    | none => none
    | some newest =>
      if revoked.contains (newest.member, newest.device) then some (.revoked entry.1) else none

theorem snd_resolveDevice (revoked : ExtTreeSet (String × String) lexCmp)
    (acc : ExtTreeMap String DeviceLink × List LinkRejection) (entry : String × List DeviceLink) :
    (resolveDevice revoked acc entry).2 = acc.2 ++ (deviceRefusal revoked entry).toList := by
  obtain ⟨device, ls⟩ := entry
  simp only [resolveDevice, deviceRefusal]
  split
  · rfl
  · cases latest issueKey ls with
    | none => exact (List.append_nil _).symm
    | some newest =>
      dsimp only
      split
      · rfl
      · exact (List.append_nil _).symm

/-- The verified links of an update, under their devices. -/
def verifiedLinks (V : LinkVerifier) (links : List SignedDeviceLink) :
    ExtTreeMap String (List DeviceLink) :=
  (links.foldl (collectLink V) (∅, [])).1

theorem getElem?_verifiedLinks (d : String) :
    (verifiedLinks V links)[d]?.getD [] = bodiesFor V links d :=
  getElem?_foldl_collectLink V links [] d

/-- The list that an update returns: what it says about each revocation, each link and each device,
in this order. -/
theorem fst_update (h : WithinCap links revocations) :
    (reg.update links revocations V).1 =
      revocations.filterMap (revocationRefusal V) ++ links.filterMap (linkRefusal V) ++
        (verifiedLinks V links).toList.filterMap
          (deviceRefusal (reg.update links revocations V).2.revoked) := by
  have hverified : ∀ rejected, (links.foldl (collectLink V) (∅, rejected)).1 =
      verifiedLinks V links := by
    intro rejected
    rw [verifiedLinks, foldl_collectLink, foldl_collectLink]
  rw [update, if_neg (by simp only [WithinCap] at h; omega)]
  simp only [hverified, foldl_snd_eq _ (snd_resolveDevice _), foldl_snd_eq _ snd_collectLink,
    foldl_snd_eq _ snd_recordRevocation, List.nil_append]

end Loops

section Devices

variable {revoked : ExtTreeSet (String × String) lexCmp} {d : String} {x : LinkRejection}

/-- A verified link for a device, as its canonical body. -/
def VerifiedFor (V : LinkVerifier) (links : List SignedDeviceLink) (d : String) (c : DeviceLink) :
    Prop :=
  (∃ s ∈ links, Verifies V s c) ∧ c.device = d

/-- All verified links for a device, of which there is one at least, name one member. -/
def Uncontested (V : LinkVerifier) (links : List SignedDeviceLink) (d m : String) : Prop :=
  (∃ c, VerifiedFor V links d c) ∧ ∀ c, VerifiedFor V links d c → c.member = m

/-- Verified links for a device name two members. -/
def Contested (V : LinkVerifier) (links : List SignedDeviceLink) (d : String) : Prop :=
  ∃ c c', VerifiedFor V links d c ∧ VerifiedFor V links d c' ∧ c.member ≠ c'.member

theorem mem_bodiesFor_iff {c : DeviceLink} : c ∈ bodiesFor V links d ↔ VerifiedFor V links d c := by
  simp only [mem_bodiesFor, body_eq_some_iff, VerifiedFor]

theorem soleClaim_iff {m : String} {p : Set (String × String)} :
    SoleClaim (Claims V links) p d m ↔ Uncontested V links d m ∧ (m, d) ∉ p := by
  simp only [SoleClaim, claims_iff, mem_bodiesFor_iff, Uncontested]
  constructor
  · rintro ⟨⟨c, hc, _⟩, hsole, hp⟩
    exact ⟨⟨⟨c, hc⟩, fun c' hc' => hsole _ ⟨c', hc', rfl⟩⟩, hp⟩
  · rintro ⟨⟨⟨c, hc⟩, hall⟩, hp⟩
    refine ⟨⟨c, hc, hall c hc⟩, ?_, hp⟩
    rintro _ ⟨c', hc', rfl⟩
    exact hall c' hc'

theorem mem_deviceRefusals :
    x ∈ (verifiedLinks V links).toList.filterMap (deviceRefusal revoked) ↔
      ∃ d, deviceRefusal revoked (d, bodiesFor V links d) = some x := by
  simp only [List.mem_filterMap, Prod.exists, ExtTreeMap.mem_toList_iff_getElem?_eq_some]
  apply exists_congr
  intro d
  rw [← getElem?_verifiedLinks]
  cases hd : (verifiedLinks V links)[d]? with
  | some ls => simp
  | none => simp [deviceRefusal, (latest_eq_none issueKey).mpr rfl]

/-- The device that a report of the third loop names. -/
theorem deviceRefusal_cases {ls : List DeviceLink} (h : deviceRefusal revoked (d, ls) = some x) :
    x = .conflict d ∨ x = .revoked d := by
  rw [deviceRefusal] at h
  split at h
  · exact .inl (Option.some.inj h).symm
  · split at h
    · cases h
    · split at h
      · exact .inr (Option.some.inj h).symm
      · cases h

/-- What the third loop reports about a device: that it is contested, or that the one member that
links it has revoked it. -/
theorem deviceRefusal_iff :
    deviceRefusal revoked (d, bodiesFor V links d) = some x ↔
      (x = .conflict d ∧ Contested V links d) ∨
        (x = .revoked d ∧ ∃ m, Uncontested V links d m ∧ (m, d) ∈ revoked) := by
  have hsize : (ExtTreeSet.ofList ((bodiesFor V links d).map (·.member))).size > 1 ↔
      Contested V links d := by
    rw [gt_iff_lt, ← not_le, size_ofList_le_one_iff]
    simp [Contested, mem_bodiesFor_iff]
  rw [deviceRefusal]
  by_cases hc : Contested V links d
  · have hno : ∀ m, ¬ Uncontested V links d m := by
      rintro m ⟨_, hall⟩
      obtain ⟨c, c', h, h', hne⟩ := hc
      exact hne ((hall c h).trans (hall c' h').symm)
    rw [if_pos (hsize.mpr hc)]
    simp [hc, hno, eq_comm]
  · rw [if_neg (mt hsize.mp hc)]
    cases hl : latest issueKey (bodiesFor V links d) with
    | none =>
      have hno : ∀ m, ¬ Uncontested V links d m := by
        rintro m ⟨⟨c, h⟩, _⟩
        rw [← mem_bodiesFor_iff, (latest_eq_none issueKey).mp hl] at h
        cases h
      simp [hc, hno]
    | some newest =>
      have hnewest := mem_bodiesFor_iff.mp (mem_of_latest issueKey hl)
      have hsole : ∀ m, Uncontested V links d m ↔ newest.member = m := by
        refine fun m => ⟨fun h => h.2 newest hnewest, ?_⟩
        rintro rfl
        refine ⟨⟨newest, hnewest⟩, fun c h => ?_⟩
        by_contra hne
        exact hc ⟨c, newest, h, hnewest, hne⟩
      simp only [hc, and_false, false_or, hsole, exists_eq_left', hnewest.2,
        ExtTreeSet.contains_iff_mem]
      by_cases hr : (newest.member, d) ∈ revoked <;> simp [hr, eq_comm]

theorem nodup_deviceRefusals :
    ((verifiedLinks V links).toList.filterMap (deviceRefusal revoked)).Nodup := by
  rw [List.Nodup, List.pairwise_filterMap]
  refine ExtTreeMap.distinct_keys_toList.imp ?_
  rintro ⟨d, ls⟩ ⟨d', ls'⟩ hne x hx y hy rfl
  have hd : d ≠ d' := fun he => hne (by simp [he])
  obtain rfl | rfl := deviceRefusal_cases hx
  · obtain h | h := deviceRefusal_cases hy
    · exact hd (LinkRejection.conflict.inj h)
    · cases h
  · obtain h | h := deviceRefusal_cases hy
    · cases h
    · exact hd (LinkRejection.revoked.inj h)

end Devices

/-- What an update has to return, as a function of its arguments and the state before it. -/
structure Specified (V : LinkVerifier) (reg : DeviceRegistry) (links : List SignedDeviceLink)
    (revocations : List SignedRevocation) (rejected : List LinkRejection) (reg' : DeviceRegistry) :
    Prop where
  revoked : ∀ p, p ∈ reg'.revoked ↔ p ∈ reg.revoked ∨ ∃ r ∈ revocations, SignedByMember V r p
  active : ∀ d, (∃ l, reg'.links[d]? = some l) ↔
    ∃ m, Uncontested V links d m ∧ (m, d) ∉ reg'.revoked
  record : ∀ (d : String) l, reg'.links[d]? = some l →
    VerifiedFor V links d l ∧ ∀ c, VerifiedFor V links d c → issueKey c ≤ issueKey l
  rejected : ∃ resolved, rejected = revocations.filterMap (revocationRefusal V) ++
      links.filterMap (linkRefusal V) ++ resolved ∧ resolved.Nodup ∧
    ∀ x, x ∈ resolved ↔ (∃ d, x = .conflict d ∧ Contested V links d) ∨
      ∃ d m, x = .revoked d ∧ Uncontested V links d m ∧ (m, d) ∈ reg'.revoked

theorem specified_update (h : WithinCap links revocations) :
    Specified V reg links revocations (reg.update links revocations V).1
      (reg.update links revocations V).2 where
  revoked p := by
    rw [mem_update_revoked h]
    simp only [recorded_eq_some_iff]
  active d := by
    constructor
    · rintro ⟨l, hl⟩
      rw [getElem?_update_links h] at hl
      exact ⟨l.member, soleClaim_iff.mp (resolve_owner_iff.mp ⟨l, hl, rfl⟩)⟩
    · rintro ⟨m, hm⟩
      obtain ⟨l, hl, _⟩ := resolve_owner_iff.mpr (soleClaim_iff.mpr hm)
      exact ⟨l, (getElem?_update_links h d).trans hl⟩
  record d l hl := by
    rw [getElem?_update_links h, resolve_eq_some_iff] at hl
    refine ⟨mem_bodiesFor_iff.mp (mem_of_latest issueKey hl.1), fun c hc => ?_⟩
    exact le_of_latest issueKey hl.1 c (mem_bodiesFor_iff.mpr hc)
  rejected := by
    refine ⟨_, fst_update h, nodup_deviceRefusals, fun x => ?_⟩
    simp only [mem_deviceRefusals, deviceRefusal_iff, exists_or, exists_and_left]

/-- An update within the cap returns what its specification says, and one beyond it changes
nothing; a revocation or a link is reported exactly if it fails. -/
theorem update_meets_specification (V : LinkVerifier) (reg : DeviceRegistry)
    (links : List SignedDeviceLink) (revocations : List SignedRevocation) :
    (WithinCap links revocations →
        Specified V reg links revocations (reg.update links revocations V).1
          (reg.update links revocations V).2) ∧
      (¬ WithinCap links revocations →
        reg.update links revocations V = ([.tooMany], reg)) ∧
      (∀ r, revocationRefusal V r = none ↔ ∃ p, SignedByMember V r p) ∧
      ∀ s, linkRefusal V s = none ↔ ∃ c, Verifies V s c :=
  ⟨specified_update, update_of_not_withinCap, fun _ => revocationRefusal_eq_none_iff,
    fun _ => linkRefusal_eq_none_iff⟩

end CitrateCluster.UpdateSpec
