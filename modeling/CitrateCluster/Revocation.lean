import CitrateCluster.Runs
import CitrateCluster.EffectiveRoster

namespace CitrateCluster.Revocation

open Std (ExtTreeMap ExtTreeSet)
open Runs Roster Collections Device DeviceGate DeviceRegistry Registry EffectiveRoster

/-- The arguments of one `update` call. -/
structure UpdateCall where
  links : List SignedDeviceLink
  revocations : List SignedRevocation

def updateStep (V : LinkVerifier) : DeviceRegistry → UpdateCall → DeviceRegistry → Prop :=
  total fun reg u => (reg.update u.links u.revocations V).2

/-- A device key is nobody's active device: it resolves to no member, and a roster that does not
list it gives it no entry. -/
def Inactive (reg : DeviceRegistry) (d : String) : Prop :=
  (∀ spelling, canonicalAddress spelling = some d → reg.memberOf spelling = none) ∧
    ∀ roster, ∀ e ∈ effectiveRoster roster reg, e.1 = d →
      ∃ entry ∈ roster, canonicalAddress entry.1 = some d

/-- An update gives the key to a member other than the one that revokes it: that member alone
claims it with fully signed links and has not revoked it itself. -/
def RelinksElsewhere (V : LinkVerifier) (reg : DeviceRegistry) (u : UpdateCall) (d m : String) :
    Prop :=
  WithinCap u.links u.revocations ∧
    ∃ m', m' ≠ m ∧ SoleClaim (Claims V u.links) (revokedAfter V reg u.revocations) d m'

/-- What a recorded revocation keeps true: the pair stays recorded and no link stands for the
device. -/
structure Quarantined (reg : DeviceRegistry) (d m : String) : Prop where
  filed : Filed reg
  revoked : (m, d) ∈ reg.revoked
  unlinked : ∀ l ∈ reg.listLinks, l.device ≠ d

variable {V : LinkVerifier} {reg t : DeviceRegistry} {u : UpdateCall} {us : List UpdateCall}
  {d m : String}

theorem Quarantined.inactive (h : Quarantined reg d m) : Inactive reg d := by
  constructor
  · intro spelling hd
    cases hm : reg.memberOf spelling with
    | none => rfl
    | some m' =>
      obtain ⟨l, hl, hld, _⟩ := (memberOf_eq_some_iff h.filed hd).mp hm
      exact absurd hld (h.unlinked l hl)
  · rintro roster ⟨a, role⟩ he rfl
    rcases mem_effectiveRoster.mp he with ⟨hrole, _⟩ | ⟨l, hl, hld, _⟩
    · have hlisted : (roleOf roster).contains a = true := by
        rw [ExtTreeMap.contains_eq_isSome_getElem?, hrole]
        rfl
      exact (contains_roleOf_iff.mp hlisted : a ∈ (gateOf roster reg).listed)
    · exact absurd hld (h.unlinked l hl)

theorem quarantined_of_update (hcap : WithinCap u.links u.revocations)
    (hrev : (m, d) ∈ revokedAfter V reg u.revocations) (hguard : ¬ RelinksElsewhere V reg u d m) :
    Quarantined (reg.update u.links u.revocations V).2 d m where
  filed := filed_update V hcap
  revoked := (mem_update_revoked hcap _).mpr hrev
  unlinked := by
    intro l hl hd
    have hsole := (owner_update_iff V hcap).mp ⟨l, hl, hd, rfl⟩
    by_cases hm : l.member = m
    · exact hsole.2.2 (hm ▸ hrev)
    · exact hguard ⟨hcap, l.member, hm, hsole⟩

theorem Quarantined.step (h : Quarantined reg d m)
    (hs : Meeting (updateStep V) (fun reg u => ¬ RelinksElsewhere V reg u d m) reg u t) :
    Quarantined t d m := by
  obtain ⟨rfl, hguard⟩ := hs
  by_cases hcap : WithinCap u.links u.revocations
  · exact quarantined_of_update hcap (.inl h.revoked) hguard
  · change Quarantined (reg.update u.links u.revocations V).2 d m
    rwa [update_of_not_withinCap hcap]

theorem not_inactive_of_relinksElsewhere (hd : Canonical d) (h : RelinksElsewhere V reg u d m) :
    ¬ Inactive (reg.update u.links u.revocations V).2 d := by
  intro hinactive
  obtain ⟨hcap, m', _, hsole⟩ := h
  have hmember := (memberOf_eq_some_iff (filed_update V hcap) hd.canonicalAddress).mpr
    ((owner_update_iff V hcap).mpr hsole)
  rw [hinactive.1 d hd.canonicalAddress] at hmember
  cases hmember

variable (V d m)

/-- Once a revocation of a device key is recorded the key stays inactive as long as no update
gives it to another member, and such an update makes it active again. -/
theorem inactive_while_not_relinked :
    (∀ reg u us t, WithinCap u.links u.revocations →
      (∃ r ∈ u.revocations, recorded V r = some (m, d)) →
        Steps (Meeting (updateStep V) fun reg u => ¬ RelinksElsewhere V reg u d m) reg (u :: us) t →
          Inactive t d) ∧
      ∀ reg u t, Canonical d → updateStep V reg u t → RelinksElsewhere V reg u d m →
        ¬ Inactive t d := by
  constructor
  · intro reg u us t hcap hrev hsteps
    cases hsteps with
    | cons hs hrest =>
      obtain ⟨rfl, hguard⟩ := hs
      have hq := quarantined_of_update hcap (.inr hrev) hguard
      exact (hrest.invariant (I := (Quarantined · d m)) (fun _ _ _ h hs => h.step hs) hq).inactive
  · rintro reg u t hd rfl h
    exact not_inactive_of_relinksElsewhere hd h

theorem inactive_while_not_relinked_sample :
    Inactive ((DeviceRegistry.new.update [signed (linkOf '1' '1' 0 0)] [revoke m1 d1]
      plainVerifier).2.update [signed (linkOf '1' '1' 0 1)] [] plainVerifier).2 d1 := by
  have hv : ∀ issuedAt, (linkOf '1' '1' 0 issuedAt).Valid := fun _ =>
    valid_linkOf rfl rfl (by decide)
  have hguard : ∀ reg revs issuedAt,
      ¬ RelinksElsewhere plainVerifier reg ⟨[signed (linkOf '1' '1' 0 issuedAt)], revs⟩ d1 m1 := by
    rintro reg revs issuedAt ⟨_, m', hne, hsole⟩
    exact hne ((soleClaim_signed (hv issuedAt)).mp hsole).1.symm
  refine (inactive_while_not_relinked plainVerifier d1 m1).1 .new
    ⟨[signed (linkOf '1' '1' 0 0)], [revoke m1 d1]⟩ [⟨[signed (linkOf '1' '1' 0 1)], []⟩] _
    (by decide) ⟨_, List.mem_cons_self, ?_⟩ ?_
  · exact recorded_revoke (canonical_address rfl rfl) (canonical_address rfl rfl)
  · exact .cons ⟨rfl, hguard _ _ 0⟩ (.cons ⟨rfl, hguard _ _ 1⟩ (.nil _))

/-- The same key as a device of the second member, after the first one revoked it. -/
theorem relinksElsewhere_linkOf (h : ∀ p, p ∈ reg.revoked ↔ p = (m1, d1)) :
    RelinksElsewhere plainVerifier reg ⟨[signed (linkOf '2' '1' 0 0)], []⟩ d1 m1 := by
  have hne : m2 ≠ m1 := by simp [m1, m2, address_inj]
  refine ⟨by decide, m2, hne, ?_⟩
  apply (soleClaim_signed (valid_linkOf rfl rfl (by decide))).mpr
  refine ⟨rfl, ?_⟩
  rw [mem_revokedAfter_nil]
  exact fun hp => hne (Prod.ext_iff.mp ((h _).mp hp)).1

theorem revoked_key_linked_to_another_member :
    ¬ ∀ (V : LinkVerifier) (reg : DeviceRegistry) (u : UpdateCall) (us : List UpdateCall)
      (t : DeviceRegistry) (d m : String), reg.memberOf d = some m →
        WithinCap u.links u.revocations → (∃ r ∈ u.revocations, recorded V r = some (m, d)) →
          Steps (updateStep V) reg (u :: us) t → Inactive t d := by
  intro h
  have hd : Canonical d1 := canonical_address rfl rfl
  have hrecorded : recorded plainVerifier (revoke m1 d1) = some (m1, d1) :=
    recorded_revoke (canonical_address rfl rfl) hd
  have hlinked : (DeviceRegistry.new.update [signed (linkOf '1' '1' 0 0)] [] plainVerifier).2.memberOf
      d1 = some m1 := by
    rw [memberOf_eq_some_iff (filed_update _ (by decide)) hd.canonicalAddress]
    exact owner_signed (valid_linkOf rfl rfl (by decide))
  have hsteps : ∀ reg u₁ u₂, Steps (updateStep plainVerifier) reg [u₁, u₂]
      ((reg.update u₁.links u₁.revocations plainVerifier).2.update u₂.links u₂.revocations
        plainVerifier).2 := fun _ _ _ => .cons rfl (.cons rfl (.nil _))
  have hinactive := h plainVerifier _ ⟨[signed (linkOf '1' '1' 0 0)], [revoke m1 d1]⟩
    [⟨[signed (linkOf '2' '1' 0 0)], []⟩] _ d1 m1 hlinked (by decide)
    ⟨_, List.mem_cons_self, hrecorded⟩ (hsteps _ _ _)
  refine not_inactive_of_relinksElsewhere hd (relinksElsewhere_linkOf fun p => ?_) hinactive
  rw [mem_update_revoked (by decide), mem_update_revoked (by decide)]
  simp [hrecorded, DeviceRegistry.new, eq_comm]

end CitrateCluster.Revocation
