import CitrateCluster.EffectiveRoster

namespace CitrateCluster.Resolution

open Std (ExtTreeMap ExtTreeSet)
open Roster Collections Device DeviceGate DeviceRegistry Registry EffectiveRoster

section Links

variable {V : LinkVerifier} {reg : DeviceRegistry} {links links' : List SignedDeviceLink}
  {revocations revocations' : List SignedRevocation}

theorem bodiesFor_perm (h : links.Perm links') (d : String) :
    (bodiesFor V links d).Perm (bodiesFor V links' d) := (h.filterMap _).filter _

theorem claims_congr (h : ∀ s, s ∈ links ↔ s ∈ links') (d m : String) :
    Claims V links d m ↔ Claims V links' d m := by
  simp only [Claims, h]

theorem WithinCap.perm (h : links.Perm links') (hcap : WithinCap links revocations) :
    WithinCap links' revocations := ⟨h.length_eq ▸ hcap.1, hcap.2⟩

/-- What is revoked once an update is done depends on the revocations alone. -/
theorem update_revoked_congr (h : ∀ r, r ∈ revocations ↔ r ∈ revocations')
    (hcap : WithinCap links revocations) (hcap' : WithinCap links' revocations') :
    (reg.update links revocations V).2.revoked = (reg.update links' revocations' V).2.revoked := by
  apply ExtTreeSet.ext_mem
  intro p
  rw [mem_update_revoked hcap, mem_update_revoked hcap']
  simp only [h]

variable (V reg links revocations)

/-- Every two orders of the links give the same active links, all fields included. -/
def SameLinks : Prop :=
  ∀ l₁ l₂, l₁.Perm links → l₂.Perm links →
    (reg.update l₁ revocations V).2.listLinks = (reg.update l₂ revocations V).2.listLinks

/-- Links of greatest sort key for one uncontested device name the same wallet and index. -/
def TiesAgree : Prop :=
  ∀ d m, SoleClaim (Claims V links) (revokedAfter V reg revocations) d m →
    ∀ b ∈ bodiesFor V links d, ∀ b' ∈ bodiesFor V links d,
      (∀ x ∈ bodiesFor V links d, issueKey x ≤ issueKey b) →
      (∀ x ∈ bodiesFor V links d, issueKey x ≤ issueKey b') →
        b.wallet = b'.wallet ∧ b.index = b'.index

variable {V reg links revocations}

theorem resolve_perm {revoked : ExtTreeSet (String × String) lexCmp} (hp : links.Perm links')
    (hties : TiesAgree V reg links revocations)
    (hrev : {p | p ∈ revoked} = revokedAfter V reg revocations) {d : String} {l : DeviceLink}
    (h : resolve revoked (bodiesFor V links d) = some l) :
    resolve revoked (bodiesFor V links' d) = some l := by
  have hmem : ∀ b, b ∈ bodiesFor V links' d ↔ b ∈ bodiesFor V links d := fun b =>
    (bodiesFor_perm hp d).symm.mem_iff
  have hsole : SoleClaim (Claims V links) (revokedAfter V reg revocations) d l.member :=
    hrev ▸ resolve_owner_iff.mp ⟨l, h, rfl⟩
  obtain ⟨hlast, hall, hr⟩ := resolve_eq_some_iff.mp h
  have hl := mem_of_latest issueKey hlast
  have hmax := le_of_latest issueKey hlast
  cases hlast' : latest issueKey (bodiesFor V links' d) with
  | none =>
    have hnil := (latest_eq_none issueKey).mp hlast'
    rw [← hmem, hnil] at hl
    cases hl
  | some l' =>
    have hl' := (hmem l').mp (mem_of_latest issueKey hlast')
    have hmax' : ∀ x ∈ bodiesFor V links d, issueKey x ≤ issueKey l' := fun x hx =>
      le_of_latest issueKey hlast' x ((hmem x).mpr hx)
    obtain ⟨hw, hi⟩ := hties d l.member hsole l hl l' hl' hmax hmax'
    have hkey : l.issuedAt = l'.issuedAt ∧ l.label = l'.label := by
      have he : issueKey l = issueKey l' := le_antisymm (hmax' l hl) (hmax l' hl')
      exact Prod.ext_iff.mp (toLex.injective he)
    have hd : l.device = l'.device :=
      (mem_bodiesFor.mp hl).2.trans (mem_bodiesFor.mp hl').2.symm
    have hll : l = l' := DeviceLink.ext (hall l' hl').symm hd hw hi hkey.2 hkey.1
    refine resolve_eq_some_iff.mpr ⟨hll ▸ hlast', fun b hb => ?_, hr⟩
    exact hall b ((hmem b).mp hb)

theorem sameLinks_of_tiesAgree (hcap : WithinCap links revocations)
    (hties : TiesAgree V reg links revocations) : SameLinks V reg links revocations := by
  intro l₁ l₂ h₁ h₂
  have hcap₁ := WithinCap.perm h₁.symm hcap
  have hcap₂ := WithinCap.perm h₂.symm hcap
  have hties' : ∀ l', l'.Perm links → TiesAgree V reg l' revocations := by
    intro l' hp d m hs b hb b' hb' hmax hmax'
    have hmem : ∀ x, x ∈ bodiesFor V l' d ↔ x ∈ bodiesFor V links d := fun x =>
      (bodiesFor_perm hp d).mem_iff
    simp only [hmem] at hb hb' hmax hmax'
    refine hties d m ((SoleClaim.congr ?_ rfl d m).mp hs) b hb b' hb' hmax hmax'
    exact claims_congr fun s => hp.mem_iff
  have hrev : (reg.update l₁ revocations V).2.revoked = (reg.update l₂ revocations V).2.revoked :=
    update_revoked_congr (fun _ => Iff.rfl) hcap₁ hcap₂
  have hafter : {p | p ∈ (reg.update l₁ revocations V).2.revoked} =
      revokedAfter V reg revocations := by
    ext p
    exact mem_update_revoked hcap₁ p
  have hlinks : (reg.update l₁ revocations V).2.links = (reg.update l₂ revocations V).2.links := by
    apply ExtTreeMap.ext_getElem?
    intro d
    apply Option.ext
    intro l
    rw [getElem?_update_links hcap₁, getElem?_update_links hcap₂, ← hrev]
    exact ⟨resolve_perm (h₁.trans h₂.symm) (hties' l₁ h₁) hafter,
      resolve_perm (h₂.trans h₁.symm) (hties' l₂ h₂) hafter⟩
  rw [listLinks, listLinks, hlinks]

/-- A body of greatest sort key becomes the active link once its entry is moved to the end. -/
theorem exists_perm_active (hcap : WithinCap links revocations) {d m : String}
    (hsole : SoleClaim (Claims V links) (revokedAfter V reg revocations) d m) {b : DeviceLink}
    (hb : b ∈ bodiesFor V links d) (hmax : ∀ x ∈ bodiesFor V links d, issueKey x ≤ issueKey b) :
    ∃ l, l.Perm links ∧ (reg.update l revocations V).2.links[d]? = some b := by
  obtain ⟨⟨s, hs, hbody⟩, hd⟩ := mem_bodiesFor.mp hb
  obtain ⟨p, q, rfl⟩ := List.append_of_mem hs
  have hp : ((p ++ q) ++ [s]).Perm (p ++ s :: q) :=
    (List.perm_append_singleton s (p ++ q)).trans List.perm_middle.symm
  have hcap' := WithinCap.perm hp.symm hcap
  have hmem : ∀ x, x ∈ bodiesFor V ((p ++ q) ++ [s]) d ↔ x ∈ bodiesFor V (p ++ s :: q) d :=
    fun x => (bodiesFor_perm hp d).mem_iff
  have hconcat : bodiesFor V ((p ++ q) ++ [s]) d = bodiesFor V (p ++ q) d ++ [b] := by
    simp [bodiesFor, hbody, hd]
  have hsole' : ∀ x ∈ bodiesFor V (p ++ s :: q) d, x.member = m := fun x hx =>
    hsole.2.1 _ (claims_iff.mpr ⟨x, hx, rfl⟩)
  refine ⟨_, hp, ?_⟩
  rw [getElem?_update_links hcap', resolve_eq_some_iff]
  refine ⟨?_, fun x hx => ?_, fun hr => hsole.2.2 ?_⟩
  · rw [hconcat]
    apply latest_concat
    intro x hx
    apply hmax
    rw [← hmem, hconcat]
    exact List.mem_append_left [b] hx
  · rw [hsole' x ((hmem x).mp hx), hsole' b hb]
  · rw [hsole' b hb, hd] at hr
    exact (mem_update_revoked hcap' _).mp hr

theorem tiesAgree_of_sameLinks (hcap : WithinCap links revocations)
    (hsame : SameLinks V reg links revocations) : TiesAgree V reg links revocations := by
  intro d m hsole b hb b' hb' hmax hmax'
  obtain ⟨l₁, hp₁, h₁⟩ := exists_perm_active hcap hsole hb hmax
  obtain ⟨l₂, hp₂, h₂⟩ := exists_perm_active hcap hsole hb' hmax'
  have hf₁ : Filed (reg.update l₁ revocations V).2 :=
    filed_update V (WithinCap.perm hp₁.symm hcap)
  have hf₂ : Filed (reg.update l₂ revocations V).2 :=
    filed_update V (WithinCap.perm hp₂.symm hcap)
  have hbb : b = b' := by
    rw [hf₁.getElem?_links_iff, hsame l₁ l₂ hp₁ hp₂, ← hf₂.getElem?_links_iff, h₂] at h₁
    exact (Option.some.inj h₁).symm
  exact ⟨congrArg DeviceLink.wallet hbb, congrArg DeviceLink.index hbb⟩

variable (V reg links revocations)

/-- Resolution is independent of the order of the links exactly when ties agree. -/
theorem sameLinks_iff_tiesAgree :
    SameLinks V reg links revocations ↔
      (WithinCap links revocations → TiesAgree V reg links revocations) := by
  by_cases hcap : WithinCap links revocations
  · exact ⟨fun h _ => tiesAgree_of_sameLinks hcap h, fun h => sameLinks_of_tiesAgree hcap (h hcap)⟩
  · refine ⟨fun _ h => absurd h hcap, fun _ l₁ l₂ h₁ h₂ => ?_⟩
    rw [update_of_not_withinCap fun h => hcap (WithinCap.perm h₁ h),
      update_of_not_withinCap fun h => hcap (WithinCap.perm h₂ h)]

theorem sameLinks_fails_on_tie :
    ¬ ∀ (V : LinkVerifier) (reg : DeviceRegistry) (links : List SignedDeviceLink)
      (revocations : List SignedRevocation), WithinCap links revocations →
        SameLinks V reg links revocations := by
  intro h
  let tied : List DeviceLink := [linkOf '1' '1' 0 0, linkOf '1' '1' 1 0]
  have hvalid : ∀ l ∈ tied, l.Valid := by
    simp only [tied, List.forall_mem_cons, List.not_mem_nil, false_imp_iff, implies_true, and_true]
    exact ⟨valid_linkOf rfl rfl (by decide), valid_linkOf rfl rfl (by decide)⟩
  have hsole : SoleClaim (Claims plainVerifier (tied.map signed)) (revokedAfter plainVerifier .new [])
      d1 m1 := by
    simp only [SoleClaim, claims_signed hvalid]
    refine ⟨by simp [tied, linkOf, d1, m1], fun m' hm' => ?_, by simp [DeviceRegistry.new]⟩
    simpa [tied, linkOf, d1, m1, eq_comm] using hm'
  have hbodies : bodiesFor plainVerifier (tied.map signed) d1 = tied := by
    rw [bodiesFor_signed hvalid]
    simp [tied, linkOf, d1]
  have hcap : WithinCap (tied.map signed) [] := by decide
  have hties := tiesAgree_of_sameLinks hcap (h plainVerifier .new _ [] hcap) d1 m1 hsole
  have hmax : ∀ i, ∀ x ∈ tied, issueKey x ≤ issueKey (linkOf '1' '1' i 0) := by
    intro i x hx
    simp only [tied, List.mem_cons, List.not_mem_nil, or_false] at hx
    rcases hx with rfl | rfl <;> exact le_refl _
  rw [hbodies] at hties
  have hindex := (hties (linkOf '1' '1' 0 0) (by simp [tied]) (linkOf '1' '1' 1 0) (by simp [tied])
    (hmax 0) (hmax 1)).2
  exact absurd hindex (by decide)

end Links

section Admission

variable {V : LinkVerifier} {reg : DeviceRegistry} {roster roster' : Entries}
  {links links' : List SignedDeviceLink} {revocations revocations' : List SignedRevocation}

/-- The gate depends on which entries the three lists hold, not on their order or number. -/
theorem gateOf_update_congr (hroster : ∀ e, e ∈ roster ↔ e ∈ roster')
    (hlinks : ∀ s, s ∈ links ↔ s ∈ links') (hrevs : ∀ r, r ∈ revocations ↔ r ∈ revocations')
    (hcap : WithinCap links revocations) (hcap' : WithinCap links' revocations') :
    gateOf roster (reg.update links revocations V).2 =
      gateOf roster' (reg.update links' revocations' V).2 := by
  have hafter : revokedAfter V reg revocations = revokedAfter V reg revocations' := by
    simp only [revokedAfter, hrevs]
  apply Gate.ext
  · simp only [gateOf, hroster]
  · simp only [gateOf, hroster]
  · funext d m
    apply propext
    refine (owner_update_iff V hcap).trans ((SoleClaim.congr ?_ hafter d m).trans
      (owner_update_iff V hcap').symm)
    exact claims_congr hlinks
  · simp only [gateOf, update_revoked_congr hrevs hcap hcap']

theorem canonical_of_mem_update (hcap : WithinCap links revocations) :
    ∀ l ∈ (reg.update links revocations V).2.listLinks, Canonical l.device := by
  intro l hl
  obtain ⟨d, hd⟩ := mem_listLinks_iff.mp hl
  exact (active_of_update V hcap hd).2.1.device

theorem allowedSet_update_congr (hroster : ∀ e, e ∈ roster ↔ e ∈ roster')
    (hlinks : ∀ s, s ∈ links ↔ s ∈ links') (hrevs : ∀ r, r ∈ revocations ↔ r ∈ revocations')
    (hcap : WithinCap links revocations) (hcap' : WithinCap links' revocations') :
    allowedSet (effectiveRoster roster (reg.update links revocations V).2) =
      allowedSet (effectiveRoster roster' (reg.update links' revocations' V).2) := by
  apply ExtTreeSet.ext_mem
  intro a
  rw [mem_allowedSet_effectiveRoster (canonical_of_mem_update hcap),
    mem_allowedSet_effectiveRoster (canonical_of_mem_update hcap'),
    gateOf_update_congr hroster hlinks hrevs hcap hcap']

theorem allowedSet_update_congr_sample :
    allowedSet (effectiveRoster [(m1, "guest"), ("0x" ++ m1, "owner"), (m2, "member")]
        (DeviceRegistry.new.update [signed (linkOf '1' '1' 0 0), signed (linkOf '2' '1' 0 0)]
          [revoke m1 d2] plainVerifier).2) =
      allowedSet (effectiveRoster [(m2, "member"), ("0x" ++ m1, "owner"), (m1, "guest"),
          (m2, "member")]
        (DeviceRegistry.new.update [signed (linkOf '2' '1' 0 0), signed (linkOf '1' '1' 0 0),
          signed (linkOf '2' '1' 0 0)] [revoke m1 d2, revoke m1 d2] plainVerifier).2) := by
  apply allowedSet_update_congr
  · intro e
    simp only [List.mem_cons, List.not_mem_nil]
    tauto
  · intro s
    simp only [List.mem_cons, List.not_mem_nil]
    tauto
  · intro r
    simp only [List.mem_cons, List.not_mem_nil]
    tauto
  · decide
  · decide

end Admission

end CitrateCluster.Resolution
