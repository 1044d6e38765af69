import CitrateCluster.Device
import CitrateCluster.DeviceGate

namespace CitrateCluster.Registry

open Std (ExtTreeMap ExtTreeSet)
open Text Roster Collections Device DeviceGate DeviceRegistry

variable (V : LinkVerifier)

/-- The pair that a revocation records: none unless it is well formed and signed by its member. -/
def recorded (r : SignedRevocation) : Option (String × String) :=
  match DeviceRevocation.new r.revocation.member r.revocation.device r.revocation.revokedAt with
  | none => none
  | some rev =>
    if V.recover rev.signingMessage r.memberSig = some rev.member then some (rev.member, rev.device)
    else none

/-- The canonical body of a link that passes validation and carries all three signatures. -/
def body (s : SignedDeviceLink) : Option DeviceLink :=
  match verifyLink s V with
  | .ok () => s.canon
  | .error _ => none

/-- The verified bodies for one device, in the order of the update. -/
def bodiesFor (links : List SignedDeviceLink) (d : String) : List DeviceLink :=
  (links.filterMap (body V)).filter fun c => decide (c.device = d)

def resolve (revoked : ExtTreeSet (String × String) lexCmp) (ls : List DeviceLink) :
    Option DeviceLink :=
  if (ExtTreeSet.ofList (ls.map (·.member))).size > 1 then none
  else (latest issueKey ls).filter fun l => !revoked.contains (l.member, l.device)

def WithinCap (links : List SignedDeviceLink) (revocations : List SignedRevocation) : Prop :=
  links.length ≤ maxLinksPerUpdate ∧ revocations.length ≤ maxLinksPerUpdate

instance (links : List SignedDeviceLink) (revocations : List SignedRevocation) :
    Decidable (WithinCap links revocations) := inferInstanceAs (Decidable (_ ∧ _))

/-- A link list claims a device for a member: a fully signed link says so. -/
def Claims (links : List SignedDeviceLink) (d m : String) : Prop :=
  ∃ s ∈ links, ∃ c, body V s = some c ∧ c.device = d ∧ c.member = m

/-- What is revoked once the revocations of an update are recorded. -/
def revokedAfter (reg : DeviceRegistry) (revocations : List SignedRevocation) :
    Set (String × String) :=
  {p | p ∈ reg.revoked ∨ ∃ r ∈ revocations, recorded V r = some p}

@[simp] theorem mem_revokedAfter_nil {reg : DeviceRegistry} {p : String × String} :
    p ∈ revokedAfter V reg [] ↔ p ∈ reg.revoked := by
  simp [revokedAfter]

theorem fst_recordRevocation (acc : ExtTreeSet (String × String) lexCmp × List LinkRejection)
    (r : SignedRevocation) :
    (recordRevocation V acc r).1 =
      match recorded V r with
      | some p => acc.1.insert p
      | none => acc.1 := by
  rw [recordRevocation, recorded]
  generalize DeviceRevocation.new _ _ _ = o
  cases o with
  | none => rfl
  | some rev => dsimp only; split <;> rfl

theorem mem_foldl_recordRevocation (revocations : List SignedRevocation)
    (acc : ExtTreeSet (String × String) lexCmp × List LinkRejection) (p : String × String) :
    p ∈ (revocations.foldl (recordRevocation V) acc).1 ↔
      p ∈ acc.1 ∨ ∃ r ∈ revocations, recorded V r = some p := by
  apply foldl_iff (fun a : ExtTreeSet (String × String) lexCmp × List LinkRejection => p ∈ a.1)
    (fun r => recorded V r = some p)
  intro a r
  rw [fst_recordRevocation]
  cases recorded V r with
  | none => simp
  | some q => rw [mem_insert_iff, Option.some.injEq, or_comm, eq_comm]

theorem fst_collectLink (acc : ExtTreeMap String (List DeviceLink) × List LinkRejection)
    (s : SignedDeviceLink) :
    (collectLink V acc s).1 =
      match body V s with
      | some c => acc.1.insert c.device (acc.1[c.device]?.getD [] ++ [c])
      | none => acc.1 := by
  rw [collectLink, body]
  generalize verifyLink s V = v
  cases v with
  | error e => rfl
  | ok u => cases s.canon <;> rfl

theorem foldl_collectLink (links : List SignedDeviceLink)
    (acc : ExtTreeMap String (List DeviceLink) × List LinkRejection) :
    (links.foldl (collectLink V) acc).1 =
      (links.filterMap (body V)).foldl
        (fun m c => m.insert c.device (m[c.device]?.getD [] ++ [c])) acc.1 := by
  induction links generalizing acc with
  | nil => rfl
  | cons s links ih =>
    rw [List.foldl_cons, ih, fst_collectLink, List.filterMap_cons]
    cases body V s <;> rfl

theorem getElem?_foldl_collectLink (links : List SignedDeviceLink) (rejected : List LinkRejection)
    (d : String) :
    ((links.foldl (collectLink V) (∅, rejected)).1[d]?).getD [] = bodiesFor V links d := by
  rw [foldl_collectLink, getElem?_foldl_group (fun c : DeviceLink => c.device)]
  simp [bodiesFor]

theorem fst_resolveDevice (revoked : ExtTreeSet (String × String) lexCmp)
    (acc : ExtTreeMap String DeviceLink × List LinkRejection) (entry : String × List DeviceLink) :
    (resolveDevice revoked acc entry).1 =
      match resolve revoked entry.2 with
      | some l => acc.1.insert entry.1 l
      | none => acc.1 := by
  obtain ⟨device, ls⟩ := entry
  simp only [resolveDevice, resolve]
  split
  · rfl
  · cases latest issueKey ls with
    | none => rfl
    | some l =>
      cases hr : revoked.contains (l.member, l.device) <;> simp [Option.filter, hr]

theorem getElem?_foldl_resolveDevice (revoked : ExtTreeSet (String × String) lexCmp)
    (verified : ExtTreeMap String (List DeviceLink)) (rejected : List LinkRejection) (d : String) :
    (verified.toList.foldl (resolveDevice revoked) (∅, rejected)).1[d]? =
      resolve revoked (verified[d]?.getD []) := by
  let put (m : ExtTreeMap String DeviceLink) (entry : String × List DeviceLink) :=
    match resolve revoked entry.2 with
    | some l => m.insert entry.1 l
    | none => m
  have hfst : (verified.toList.foldl (resolveDevice revoked) (∅, rejected)).1 =
      verified.toList.foldl put ∅ :=
    (List.foldl_hom Prod.fst fun acc entry => (fst_resolveDevice revoked acc entry).symm).symm
  have hne : ∀ m (kv : String × List DeviceLink) k, kv.1 ≠ k → (put m kv)[k]? = m[k]? := by
    intro m kv k hk
    simp only [put]
    split
    · rw [ExtTreeMap.getElem?_insert, if_neg (by simpa using hk)]
    · rfl
  have heq : ∀ m (kv : String × List DeviceLink), m[kv.1]? = none →
      (put m kv)[kv.1]? = resolve revoked kv.2 := by
    intro m kv hk
    simp only [put]
    split
    · next l hl => rw [hl, ExtTreeMap.getElem?_insert_self]
    · next hl => rw [hl, hk]
  rw [hfst, getElem?_foldl_toList (f := fun _ ls => resolve revoked ls) hne heq]
  cases verified[d]? with
  | none => simp [resolve, (latest_eq_none issueKey).mpr rfl]
  | some ls => rfl

section Update

variable {V} {reg : DeviceRegistry} {links : List SignedDeviceLink}
  {revocations : List SignedRevocation}

theorem update_of_not_withinCap (h : ¬ WithinCap links revocations) :
    reg.update links revocations V = ([.tooMany], reg) := by
  rw [update, if_pos]
  simp only [WithinCap] at h
  omega

theorem mem_update_revoked (h : WithinCap links revocations) (p : String × String) :
    p ∈ (reg.update links revocations V).2.revoked ↔
      p ∈ reg.revoked ∨ ∃ r ∈ revocations, recorded V r = some p := by
  rw [update, if_neg (by simp only [WithinCap] at h; omega)]
  exact mem_foldl_recordRevocation V revocations (reg.revoked, []) p

theorem getElem?_update_links (h : WithinCap links revocations) (d : String) :
    (reg.update links revocations V).2.links[d]? =
      resolve (reg.update links revocations V).2.revoked (bodiesFor V links d) := by
  rw [update, if_neg (by simp only [WithinCap] at h; omega)]
  simp only
  rw [getElem?_foldl_resolveDevice, getElem?_foldl_collectLink]

/-- An update keeps no more links than the cap lets in. -/
theorem size_links_update (h : reg.links.size ≤ maxLinksPerUpdate) :
    (reg.update links revocations V).2.links.size ≤ maxLinksPerUpdate := by
  by_cases hcap : WithinCap links revocations
  · have hcollect : ∀ acc (s : SignedDeviceLink),
        (collectLink V acc s).1.size ≤ acc.1.size + 1 := by
      intro acc s
      rw [fst_collectLink]
      split
      · exact ExtTreeMap.size_insert_le
      · exact Nat.le_succ _
    have hresolve : ∀ revoked acc (entry : String × List DeviceLink),
        (resolveDevice revoked acc entry).1.size ≤ acc.1.size + 1 := by
      intro revoked acc entry
      rw [fst_resolveDevice]
      split
      · exact ExtTreeMap.size_insert_le
      · exact Nat.le_succ _
    rw [update, if_neg (by simp only [WithinCap] at hcap; omega)]
    refine (size_foldl_le Prod.fst (hresolve _) _ _).trans ?_
    rw [ExtTreeMap.length_toList, ExtTreeMap.size_empty, Nat.zero_add]
    refine (size_foldl_le Prod.fst hcollect _ _).trans ?_
    rw [ExtTreeMap.size_empty, Nat.zero_add]
    exact hcap.1
  · rwa [update_of_not_withinCap hcap]

end Update

section Active

variable {V} {links : List SignedDeviceLink} {d : String}

theorem mem_bodiesFor {c : DeviceLink} :
    c ∈ bodiesFor V links d ↔ (∃ s ∈ links, body V s = some c) ∧ c.device = d := by
  simp [bodiesFor]

theorem claims_iff {m : String} : Claims V links d m ↔ ∃ c ∈ bodiesFor V links d, c.member = m := by
  simp only [Claims, mem_bodiesFor]
  constructor
  · rintro ⟨s, hs, c, hc, hd, hm⟩
    exact ⟨c, ⟨⟨s, hs, hc⟩, hd⟩, hm⟩
  · rintro ⟨c, ⟨⟨s, hs, hc⟩, hd⟩, hm⟩
    exact ⟨s, hs, c, hc, hd, hm⟩

theorem valid_of_body {s : SignedDeviceLink} {c : DeviceLink} (h : body V s = some c) :
    c.Valid := by
  rw [body] at h
  split at h
  · exact DeviceLink.valid_of_new h
  · cases h

theorem resolve_eq_some_iff {revoked : ExtTreeSet (String × String) lexCmp} {ls : List DeviceLink}
    {l : DeviceLink} :
    resolve revoked ls = some l ↔
      latest issueKey ls = some l ∧ (∀ b ∈ ls, b.member = l.member) ∧
        (l.member, l.device) ∉ revoked := by
  have hsize : ¬ (ExtTreeSet.ofList (ls.map (·.member))).size > 1 ↔
      ∀ b ∈ ls, ∀ b' ∈ ls, b.member = b'.member := by
    rw [not_lt, size_ofList_le_one_iff]
    simp
  simp only [resolve, Option.ite_none_left_eq_some, hsize, Option.filter_eq_some_iff,
    Bool.not_eq_true', contains_eq_false_iff]
  constructor
  · rintro ⟨hall, hl, hr⟩
    exact ⟨hl, fun b hb => hall b hb l (mem_of_latest issueKey hl), hr⟩
  · rintro ⟨hl, hall, hr⟩
    exact ⟨fun b hb b' hb' => (hall b hb).trans (hall b' hb').symm, hl, hr⟩

/-- Which devices a resolution makes active, and for which member. -/
theorem resolve_owner_iff {revoked : ExtTreeSet (String × String) lexCmp} {m : String} :
    (∃ l, resolve revoked (bodiesFor V links d) = some l ∧ l.member = m) ↔
      SoleClaim (Claims V links) {p | p ∈ revoked} d m := by
  constructor
  · rintro ⟨l, hl, rfl⟩
    obtain ⟨hlast, hall, hr⟩ := resolve_eq_some_iff.mp hl
    have hm := mem_of_latest issueKey hlast
    refine ⟨claims_iff.mpr ⟨l, hm, rfl⟩, fun m' hc => ?_, ?_⟩
    · obtain ⟨b, hb, rfl⟩ := claims_iff.mp hc
      exact hall b hb
    · rwa [(mem_bodiesFor.mp hm).2] at hr
  · rintro ⟨hc, hsole, hr⟩
    have hall : ∀ b ∈ bodiesFor V links d, b.member = m := fun b hb =>
      hsole _ (claims_iff.mpr ⟨b, hb, rfl⟩)
    cases hlast : latest issueKey (bodiesFor V links d) with
    | none =>
      obtain ⟨b, hb, _⟩ := claims_iff.mp hc
      rw [(latest_eq_none issueKey).mp hlast] at hb
      cases hb
    | some l =>
      have hm := mem_of_latest issueKey hlast
      refine ⟨l, resolve_eq_some_iff.mpr ⟨hlast, fun b hb => ?_, ?_⟩, hall l hm⟩
      · rw [hall b hb, hall l hm]
      · rwa [hall l hm, (mem_bodiesFor.mp hm).2]

end Active

section Listing

variable {reg : DeviceRegistry} {d : String} {l : DeviceLink}

theorem mem_listLinks_iff : l ∈ reg.listLinks ↔ ∃ d : String, reg.links[d]? = some l := by
  simp [listLinks, ExtTreeMap.mem_toList_iff_getElem?_eq_some]

/-- Every link stands under its own device. -/
def Filed (reg : DeviceRegistry) : Prop :=
  ∀ (d : String) (l : DeviceLink), reg.links[d]? = some l → l.device = d

theorem Filed.getElem?_links_iff (h : Filed reg) :
    reg.links[d]? = some l ↔ l ∈ reg.listLinks ∧ l.device = d := by
  rw [mem_listLinks_iff]
  constructor
  · intro hl
    exact ⟨⟨d, hl⟩, h d l hl⟩
  · rintro ⟨⟨d', hl⟩, rfl⟩
    rwa [← h d' l hl] at hl

theorem Filed.eq_of_device (h : Filed reg) {l' : DeviceLink} (hl : l ∈ reg.listLinks)
    (hl' : l' ∈ reg.listLinks) (hd : l'.device = l.device) : l' = l := by
  have h₁ := h.getElem?_links_iff.mpr ⟨hl, rfl⟩
  have h₂ := h.getElem?_links_iff.mpr ⟨hl', hd⟩
  exact Option.some.inj (h₂.symm.trans h₁)

end Listing

theorem memberOf_eq_some_iff {reg : DeviceRegistry} (h : Filed reg) {spelling d m : String}
    (hd : canonicalAddress spelling = some d) :
    reg.memberOf spelling = some m ↔ ∃ l ∈ reg.listLinks, l.device = d ∧ l.member = m := by
  simp only [memberOf, hd, Option.bind_eq_bind, Option.bind_some, Option.bind_eq_some_iff,
    Option.some.injEq, h.getElem?_links_iff, and_assoc]

/-- What holds of a registry that only `update` has written: each link is valid, filed under its
own device and not revoked, and revocations are pairs of canonical addresses. -/
structure WellFormed (reg : DeviceRegistry) : Prop where
  links : ∀ d l, reg.links[d]? = some l → l.device = d ∧ l.Valid ∧ (l.member, d) ∉ reg.revoked
  revoked : ∀ p ∈ reg.revoked, Canonical p.1 ∧ Canonical p.2

theorem WellFormed.filed {reg : DeviceRegistry} (h : WellFormed reg) : Filed reg :=
  fun d l hl => (h.links d l hl).1

theorem wellFormed_new : WellFormed .new :=
  ⟨fun d l h => by simp [DeviceRegistry.new] at h, fun p h => by simp [DeviceRegistry.new] at h⟩

theorem WellFormed.canonical_device {reg : DeviceRegistry} (h : WellFormed reg) :
    ∀ l ∈ reg.listLinks, Canonical l.device := by
  intro l hl
  obtain ⟨d, hd⟩ := mem_listLinks_iff.mp hl
  exact (h.links d l hd).2.1.device

theorem canonical_of_recorded {r : SignedRevocation} {p : String × String}
    (h : recorded V r = some p) : Canonical p.1 ∧ Canonical p.2 := by
  rw [recorded] at h
  split at h
  · cases h
  · next rev hrev =>
    split at h
    · cases h
      simp only [DeviceRevocation.new, Option.bind_eq_bind, Option.bind_eq_some_iff,
        Option.some.injEq] at hrev
      obtain ⟨m, hm, d, hd, rfl⟩ := hrev
      exact ⟨canonical_of_canonicalAddress hm, canonical_of_canonicalAddress hd⟩
    · cases h

/-- After an update within the cap the links are valid, filed and not revoked, whatever the
registry held before. -/
theorem active_of_update {reg : DeviceRegistry} {links : List SignedDeviceLink}
    {revocations : List SignedRevocation} (hcap : WithinCap links revocations) {d : String}
    {l : DeviceLink} (hl : (reg.update links revocations V).2.links[d]? = some l) :
    l.device = d ∧ l.Valid ∧ (l.member, d) ∉ (reg.update links revocations V).2.revoked := by
  rw [getElem?_update_links hcap, resolve_eq_some_iff] at hl
  obtain ⟨⟨s, _, hs⟩, hd⟩ := mem_bodiesFor.mp (mem_of_latest issueKey hl.1)
  exact ⟨hd, valid_of_body hs, hd ▸ hl.2.2⟩

theorem filed_update {reg : DeviceRegistry} {links : List SignedDeviceLink}
    {revocations : List SignedRevocation} (hcap : WithinCap links revocations) :
    Filed (reg.update links revocations V).2 := by
  intro d l hl
  exact (active_of_update V hcap hl).1

theorem WellFormed.update {reg : DeviceRegistry} (h : WellFormed reg)
    (links : List SignedDeviceLink) (revocations : List SignedRevocation) :
    WellFormed (reg.update links revocations V).2 := by
  by_cases hcap : WithinCap links revocations
  · refine ⟨fun d l hl => active_of_update V hcap hl, fun p hp => ?_⟩
    rcases (mem_update_revoked hcap p).mp hp with hp | ⟨r, _, hr⟩
    · exact h.revoked p hp
    · exact canonical_of_recorded V hr
  · rw [update_of_not_withinCap hcap]
    exact h

/-- An update within the cap depends on the past only through what is revoked. -/
theorem update_eq_of_revoked {reg : DeviceRegistry} {links : List SignedDeviceLink}
    {revocations : List SignedRevocation} (hcap : WithinCap links revocations)
    {revoked : ExtTreeSet (String × String) lexCmp}
    (hrev : ∀ p, p ∈ revoked ↔ p ∈ revokedAfter V reg revocations) :
    (reg.update links revocations V).2 = (update ⟨∅, revoked⟩ links [] V).2 := by
  have hcap' : WithinCap links [] := ⟨hcap.1, Nat.zero_le _⟩
  have hrevoked : (reg.update links revocations V).2.revoked =
      (update ⟨∅, revoked⟩ links [] V).2.revoked := by
    apply ExtTreeSet.ext_mem
    intro p
    rw [mem_update_revoked hcap, mem_update_revoked hcap', hrev]
    simp [revokedAfter]
  apply DeviceRegistry.ext
  · apply ExtTreeMap.ext_getElem?
    intro d
    rw [getElem?_update_links hcap, getElem?_update_links hcap', hrevoked]
  · exact hrevoked

/-- The member that a link list makes each device act for, after an update within the cap. -/
theorem owner_update_iff {reg : DeviceRegistry} {links : List SignedDeviceLink}
    {revocations : List SignedRevocation} (hcap : WithinCap links revocations) {d m : String} :
    (∃ l ∈ (reg.update links revocations V).2.listLinks, l.device = d ∧ l.member = m) ↔
      SoleClaim (Claims V links) (revokedAfter V reg revocations) d m := by
  have hrev : {p | p ∈ (reg.update links revocations V).2.revoked} =
      revokedAfter V reg revocations := by
    ext p
    exact mem_update_revoked hcap p
  rw [← hrev, ← resolve_owner_iff, ← getElem?_update_links hcap]
  constructor
  · rintro ⟨l, hl, hd, hm⟩
    exact ⟨l, (filed_update V hcap).getElem?_links_iff.mpr ⟨hl, hd⟩, hm⟩
  · rintro ⟨l, hl, hm⟩
    obtain ⟨hmem, hd⟩ := (filed_update V hcap).getElem?_links_iff.mp hl
    exact ⟨l, hmem, hd, hm⟩

section Samples

/-- A verifier whose signatures carry the signer, 40 characters, and the message. -/
def plainVerifier : LinkVerifier where
  recover message sig :=
    if sig.toList.drop 40 = ':' :: message.toList then some (String.ofList (sig.toList.take 40))
    else none

def plainSign (signer message : String) : String := signer ++ ":" ++ message

def signed (l : DeviceLink) : SignedDeviceLink :=
  ⟨l, plainSign l.member l.signingMessage, plainSign l.device l.signingMessage,
    plainSign l.wallet l.signingMessage⟩

def revoke (member device : String) : SignedRevocation :=
  let r : DeviceRevocation := ⟨member, device, 1790000100⟩
  ⟨r, plainSign member r.signingMessage⟩

theorem recover_plainSign {signer : String} (h : Canonical signer) (message : String) :
    plainVerifier.recover message (plainSign signer message) = some signer := by
  have hs : (plainSign signer message).toList = signer.toList ++ ':' :: message.toList := by
    simp [plainSign]
  simp only [plainVerifier, hs]
  rw [← h.1, List.drop_left, List.take_left, if_pos rfl, String.ofList_toList]

theorem body_signed {l : DeviceLink} (h : l.Valid) : body plainVerifier (signed l) = some l := by
  have hcanon : (signed l).canon = some l := h.new
  have hverify : verifyLink (signed l) plainVerifier = .ok () := by
    simp only [verifyLink, hcanon]
    simp [signed, recover_plainSign, h.member, h.device, h.wallet]
    rfl
  rw [body, hverify]
  exact hcanon

theorem bodiesFor_signed {ls : List DeviceLink} (h : ∀ l ∈ ls, l.Valid) (d : String) :
    bodiesFor plainVerifier (ls.map signed) d = ls.filter fun l => decide (l.device = d) := by
  rw [bodiesFor, List.filterMap_map, List.filterMap_congr (g := some), List.filterMap_some]
  exact fun l hl => body_signed (h l hl)

theorem claims_signed {ls : List DeviceLink} (h : ∀ l ∈ ls, l.Valid) (d m : String) :
    Claims plainVerifier (ls.map signed) d m ↔ ∃ l ∈ ls, l.device = d ∧ l.member = m := by
  rw [claims_iff, bodiesFor_signed h]
  simp [and_assoc]

theorem soleClaim_signed {l : DeviceLink} (h : l.Valid) {revoked : Set (String × String)}
    {m : String} :
    SoleClaim (Claims plainVerifier [signed l]) revoked l.device m ↔
      l.member = m ∧ (m, l.device) ∉ revoked := by
  have hclaims : ∀ m', Claims plainVerifier [signed l] l.device m' ↔ l.member = m' := by
    intro m'
    rw [show [signed l] = [l].map signed from rfl, claims_signed (by simpa using h)]
    simp
  simp only [SoleClaim, hclaims]
  constructor
  · rintro ⟨hm, _, hr⟩
    exact ⟨hm, hr⟩
  · rintro ⟨rfl, hr⟩
    exact ⟨rfl, fun _ hm => hm.symm, hr⟩

/-- The first update with one signed link files it. -/
theorem owner_signed {l : DeviceLink} (h : l.Valid) :
    ∃ l' ∈ (DeviceRegistry.new.update [signed l] [] plainVerifier).2.listLinks,
      l'.device = l.device ∧ l'.member = l.member := by
  have hcap : WithinCap [signed l] [] := by simp [WithinCap, maxLinksPerUpdate]
  rw [owner_update_iff plainVerifier hcap, soleClaim_signed h]
  simp [DeviceRegistry.new]

/-- A registry with one link on file. -/
def onlyLink (l : DeviceLink) : DeviceRegistry :=
  ⟨(∅ : ExtTreeMap String DeviceLink).insert l.device l, ∅⟩

@[simp] theorem listLinks_onlyLink (l : DeviceLink) : (onlyLink l).listLinks = [l] := by
  simp [onlyLink, listLinks, toList_insert_empty]

@[simp] theorem not_mem_revoked_onlyLink (l : DeviceLink) (p : String × String) :
    p ∉ (onlyLink l).revoked := ExtTreeSet.not_mem_empty

/-- The first update with one verified link and no good revocation files the link. -/
theorem update_single {V : LinkVerifier} {s : SignedDeviceLink} {l : DeviceLink}
    {revocations : List SignedRevocation} {rejected : List LinkRejection} (h : body V s = some l)
    (hlen : revocations.length ≤ maxLinksPerUpdate)
    (hr : revocations.foldl (recordRevocation V) (∅, []) = (∅, rejected)) :
    DeviceRegistry.new.update [s] revocations V = (rejected, onlyLink l) := by
  have hcollect : collectLink V (∅, rejected) s =
      ((∅ : ExtTreeMap String (List DeviceLink)).insert l.device [l], rejected) := by
    cases hv : verifyLink s V with
    | error e => simp [body, hv] at h
    | ok _ =>
      simp only [body, hv] at h
      simp [collectLink, hv, h]
  have hcap : ¬ ([s].length > maxLinksPerUpdate ∨ revocations.length > maxLinksPerUpdate) := by
    simp [maxLinksPerUpdate] at hlen ⊢
    omega
  rw [update, if_neg hcap]
  simp [DeviceRegistry.new, hr, onlyLink, hcollect, toList_insert_empty, resolveDevice, latest,
    ExtTreeSet.size_insert]

theorem recorded_revoke {m d : String} (hm : Canonical m) (hd : Canonical d) :
    recorded plainVerifier (revoke m d) = some (m, d) := by
  simp [recorded, revoke, DeviceRevocation.new, hm.canonicalAddress, hd.canonicalAddress,
    recover_plainSign hm]

/-- A link of a device to a member, in the member's wallet. -/
def linkOf (member device : Char) (index issuedAt : Nat) : DeviceLink :=
  ⟨address 'a' member, address 'd' device, address 'b' member, index, "laptop", issuedAt⟩

theorem labelIsValid_laptop : labelIsValid "laptop" = true := by decide +kernel

theorem valid_linkOf {member device : Char} {index issuedAt : Nat}
    (hm : inRange '0' '9' member = true) (hd : inRange '0' '9' device = true)
    (hi : index ≤ maxDeviceIndex) : (linkOf member device index issuedAt).Valid where
  member := canonical_address (by decide) hm
  device := canonical_address (by decide) hd
  wallet := canonical_address (by decide) hm
  device_ne_member := by simp [linkOf, address_inj]
  device_ne_wallet := by simp [linkOf, address_inj]
  index := hi
  label := labelIsValid_laptop

end Samples

end CitrateCluster.Registry
