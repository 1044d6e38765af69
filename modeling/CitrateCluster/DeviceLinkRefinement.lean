import CitrateCluster.DeviceLinkModel
import CitrateCluster.Evictions
import Mathlib.Order.CompletePartialOrder

namespace CitrateCluster.DeviceLinkRefinement

open Std (ExtTreeMap ExtTreeSet)
open CitrateCluster.Membership Runs Simulation Roster Collections Device DeviceGate DeviceRegistry
  Registry EffectiveRoster Transport Session Daemon ClusterDaemon Ipc DaemonStep Admission
  GroupState StateWrites GroupEffect Evictions DeviceLinkModel

section Links

variable {M D : Type} {L L' R R' : Set (D × M)} {s t : State M D D} {d : D} {m : M}

/-- A state that carries these links and these revocations. Each device draws itself as its key. -/
structure Carries (L R : Set (D × M)) (s : State M D D) : Prop where
  links : s.links = L
  revokedBy : s.revokedBy = R
  revokeLog : s.revokeLog = R
  revoked : s.revoked = {d | ∃ m, (d, m) ∈ R}
  key : ∀ d k, s.key d = some k → k = d
  admitted : s.admitted.Finite
  legacy : s.legacy.Finite

/-- Nobody but this member has a link of the device. -/
def OnlyOwner (L : Set (D × M)) (d : D) (m : M) : Prop := ∀ m', (d, m') ∈ L → m' = m

theorem OnlyOwner.subset (h : OnlyOwner L d m) (hsub : L' ⊆ L) : OnlyOwner L' d m :=
  fun m' hm' => h m' (hsub hm')

theorem OnlyOwner.linksOf (h : OnlyOwner L d m) (hl : (d, m) ∈ L) : linksOf L d = {(d, m)} := by
  ext ⟨e, m'⟩
  rw [Set.mem_singleton_iff]
  constructor
  · rintro ⟨hmem, rfl⟩
    rw [h m' hmem]
  · rintro ⟨⟩
    exact ⟨hl, rfl⟩

theorem OnlyOwner.linksOf_ne_empty (h : OnlyOwner L d m) (hl : (d, m) ∈ L) :
    DeviceLinkModel.linksOf L d ≠ ∅ := by
  rw [h.linksOf hl]
  exact Set.singleton_ne_empty _

variable [DecidableEq D]

theorem Carries.dropLink (h : Carries L R s) (hd : OnlyOwner L d m) (hl : (d, m) ∈ L) :
    Leads Next Action.IsLink s (Carries (L \ {(d, m)}) R) := by
  rw [← h.links] at hd hl ⊢
  refine .single (a := .dropLink d) trivial (.dropLink (hd.linksOf_ne_empty hl)) ?_
  exact { h with links := by rw [hd.linksOf hl], admitted := h.admitted.subset Set.sdiff_subset }

theorem Carries.mintKey (h : Carries L R s) (d : D) :
    Leads Next Action.IsLink s fun t => Carries L R t ∧ t.key d ≠ none := by
  by_cases hd : s.key d = none
  · have hunused : d ∉ usedKeys s := by
      rintro ⟨e, he⟩
      rw [h.key e d he, he] at hd
      cases hd
    refine .single (a := .mintKey d) trivial (.mintKey hd hunused) ⟨{ h with key := ?_ }, by simp⟩
    intro e k (hk : Function.update s.key d (some d) e = some k)
    by_cases he : e = d
    · subst he
      rw [Function.update_self, Option.some.injEq] at hk
      exact hk.symm
    · rw [Function.update_of_ne he] at hk
      exact h.key e k hk
  · exact .refl ⟨h, hd⟩

theorem Carries.issueLink (h : Carries L R s) (hr : ∀ m', (d, m') ∉ R) (hd : OnlyOwner L d m) :
    Leads Next Action.IsLink s (Carries (insert (d, m) L) R) := by
  apply (h.mintKey d).bind
  rintro t ⟨ht, hkey⟩
  have hrevoked : d ∉ t.revoked := by
    rw [ht.revoked]
    rintro ⟨m', hm'⟩
    exact hr m' hm'
  have hmember : memberOf t d ⊆ {m} := by
    intro m' hm'
    exact hd m' (ht.links ▸ hm')
  refine .single (a := .issueLink d m) trivial (.issueLink hkey hrevoked hmember) ?_
  exact { ht with
    links := by rw [ht.links]
    legacy := ht.legacy.subset Set.sdiff_subset }

theorem Carries.revoke (h : Carries L R s) (hd : OnlyOwner L d m) (hl : (d, m) ∈ L) :
    Leads Next Action.IsLink s (Carries L (insert (d, m) R)) := by
  have hlinks : linksOf s.links d = {(d, m)} := by
    rw [h.links, hd.linksOf hl]
  have hne : linksOf s.links d ≠ ∅ := by
    rw [hlinks]
    exact Set.singleton_ne_empty _
  refine .single (a := .revoke d) trivial (.revoke hne) { h with
    revokedBy := by simp only [hlinks, h.revokedBy, Set.union_singleton]
    revokeLog := by simp only [hlinks, h.revokeLog, Set.union_singleton]
    revoked := ?_
    admitted := h.admitted.subset Set.sdiff_subset
    legacy := h.legacy.subset Set.sdiff_subset }
  ext e
  simp only [h.revoked, Set.mem_insert_iff, Set.mem_ofPred_eq, Prod.mk.injEq]
  constructor
  · rintro (rfl | ⟨m', hm'⟩)
    · exact ⟨m, .inl ⟨rfl, rfl⟩⟩
    · exact ⟨m', .inr hm'⟩
  · rintro ⟨m', ⟨rfl, rfl⟩ | hm'⟩
    · exact .inl rfl
    · exact .inr ⟨m', hm'⟩

/-- A member revokes a device that it has, had or never had. -/
theorem Carries.retire (h : Carries L R s) (hr : ∀ m', (d, m') ∉ R) (hd : OnlyOwner L d m) :
    Leads Next Action.IsLink s (Carries (L \ {(d, m)}) (insert (d, m) R)) := by
  have hd' : OnlyOwner (insert (d, m) L) d m := by
    rintro m' (hm' | hm')
    · exact (Prod.ext_iff.mp hm').2
    · exact hd m' hm'
  have hl : (d, m) ∈ insert (d, m) L := Set.mem_insert _ _
  have hdrop : insert (d, m) L \ {(d, m)} = L \ {(d, m)} := by
    ext x
    simp only [Set.mem_sdiff, Set.mem_insert_iff, Set.mem_singleton_iff]
    tauto
  apply (h.issueLink hr hd).bind
  intro t ht
  apply (ht.revoke hd' hl).bind
  intro u hu
  rw [← hdrop]
  exact hu.dropLink hd' hl

/-- No device is revoked by two members, and none that is linked has been revoked. -/
structure Uncontested (L R : Set (D × M)) : Prop where
  revoker : ∀ d m, (d, m) ∈ R → OnlyOwner R d m
  unrevoked : ∀ d m m', (d, m) ∈ L → (d, m') ∉ R

/-- New links and new revocations, one after the other. -/
theorem Carries.update (h : Carries L R s) (hL : ∀ d m, (d, m) ∈ L → OnlyOwner L d m)
    (hL' : ∀ d m, (d, m) ∈ L' → OnlyOwner L' d m) (hR : Uncontested L' R') (hsub : R ⊆ R')
    (hd : Disjoint L R) (hfin : L.Finite) (hfin' : L'.Finite) (hrev : R'.Finite) :
    Leads Next Action.IsLink s (Carries L' R') := by
  have hstale : Leads Next Action.IsLink s (Carries (L ∩ (L' ∪ R')) R) := by
    have hsdiff : L ∩ (L' ∪ R') = L \ (L \ (L' ∪ R')) := by
      rw [Set.sdiff_sdiff_right_self]
    rw [hsdiff]
    refine (leads_diff (fun A t => A ⊆ L ∧ Carries A R t) ?_ (hfin.subset Set.sdiff_subset)
      ⟨subset_rfl, h⟩).mono fun t ht => ht.2
    rintro A ⟨d, m⟩ t ⟨hA, ht⟩ hx
    apply (ht.dropLink ((hL d m (hA hx)).subset hA) hx).mono
    exact fun u hu => ⟨Set.sdiff_subset.trans hA, hu⟩
  have hretired : ∀ t, Carries (L ∩ (L' ∪ R')) R t →
      Leads Next Action.IsLink t (Carries (L ∩ L') R') := by
    intro t ht
    have hstart : (L ∩ (L' ∪ R')) \ R = L ∩ (L' ∪ R') :=
      (hd.mono_left Set.inter_subset_left).sdiff_eq_left
    have hend : (L ∩ (L' ∪ R')) \ (R ∪ R') = L ∩ L' := by
      ext ⟨d, m⟩
      have hnot : (d, m) ∈ L' → (d, m) ∉ R' := hR.unrevoked d m m
      simp only [Set.union_eq_self_of_subset_left hsub, Set.mem_sdiff, Set.mem_inter_iff,
        Set.mem_union]
      tauto
    refine (leads_union (fun A t => A ⊆ R' ∧ Carries ((L ∩ (L' ∪ R')) \ A) A t) (· ∈ R') ?_ hrev
      (fun x hx => hx) ⟨hsub, hstart.symm ▸ ht⟩).mono ?_
    · rintro A ⟨d, m⟩ u ⟨hA, hu⟩ hn hx
      have hnot : ∀ m', (d, m') ∉ A := by
        intro m' hm'
        rw [hR.revoker d m hx m' (hA hm')] at hm'
        exact hn hm'
      have hsole : OnlyOwner ((L ∩ (L' ∪ R')) \ A) d m := by
        rintro m' ⟨⟨_, hm' | hm'⟩, _⟩
        · exact absurd hx (hR.unrevoked d m' m hm')
        · exact hR.revoker d m hx m' hm'
      apply (hu.retire hnot hsole).mono
      intro v hv
      have hsdiff : ((L ∩ (L' ∪ R')) \ A) \ {(d, m)} = (L ∩ (L' ∪ R')) \ insert (d, m) A := by
        ext y
        simp only [Set.mem_sdiff, Set.mem_insert_iff, Set.mem_singleton_iff]
        tauto
      exact ⟨Set.insert_subset hx hA, hsdiff ▸ hv⟩
    · rintro u ⟨_, hu⟩
      rwa [hend, Set.union_eq_self_of_subset_left hsub] at hu
  have hissued : ∀ t, Carries (L ∩ L') R' t → Leads Next Action.IsLink t (Carries L' R') := by
    intro t ht
    have hunion : L' = (L ∩ L') ∪ L' := by
      rw [Set.union_eq_self_of_subset_left Set.inter_subset_right]
    rw [hunion]
    refine (leads_union (fun A t => A ⊆ L' ∧ Carries A R' t) (· ∈ L') ?_ hfin' (fun x hx => hx)
      ⟨Set.inter_subset_right, ht⟩).mono fun t ht => ht.2
    rintro A ⟨d, m⟩ t ⟨hA, ht⟩ _ hx
    apply (ht.issueLink (fun m' => hR.unrevoked d m m' hx) ((hL' d m hx).subset hA)).mono
    exact fun u hu => ⟨Set.insert_subset hx hA, hu⟩
  exact (hstale.bind hretired).bind hissued

/-- Peers that come and go lead from one mesh to any other that the gate allows. -/
theorem leads_peers {A : Set D} {B : Set M} (hA : A ⊆ allowedDevices s)
    (hB : B ⊆ legacyAllowed s) (hs : s.admitted.Finite) (hs' : s.legacy.Finite) (hfin : A.Finite)
    (hfin' : B.Finite) :
    Leads Next Action.IsPeer s (· = { s with admitted := A, legacy := B }) := by
  have hdevices : Leads Next Action.IsPeer s (· = { s with admitted := A }) := by
    refine leads_exchange (fun X u => u = { s with admitted := X }) (· ∈ allowedDevices s) ?_ ?_
      hs hfin hA rfl
    · rintro X d _ rfl hn hd
      exact .single (a := .admitDevice d) trivial (.admitDevice hd hn) rfl
    · rintro X d _ rfl hd
      exact .single (a := .leave d) trivial (.leave hd) rfl
  apply hdevices.bind
  rintro _ rfl
  refine leads_exchange (fun X u => u = { s with admitted := A, legacy := X })
    (· ∈ legacyAllowed s) ?_ ?_ hs' hfin' hB rfl
  · rintro X m _ rfl hn hm
    exact .single (a := .legacyAdmit m) trivial (.legacyAdmit hm hn) rfl
  · rintro X m _ rfl hm
    exact .single (a := .legacyLeave m) trivial (.legacyLeave hm) rfl

end Links

section Gate

variable {roster : Entries} {registry : DeviceRegistry}

/-- Each active device with its member. -/
def linksOn (registry : DeviceRegistry) : Set (String × String) :=
  {x | ∃ l ∈ registry.listLinks, l.device = x.1 ∧ l.member = x.2}

def revokedOn (registry : DeviceRegistry) : Set (String × String) :=
  {x | (x.2, x.1) ∈ registry.revoked}

/-- No device is contested between members, and none is a listed address itself. -/
structure Orderly (roster : Entries) (registry : DeviceRegistry) : Prop where
  uncontested : Uncontested (linksOn registry) (revokedOn registry)
  uncrossed : ∀ l ∈ registry.listLinks, l.device ∉ (gateOf roster registry).listed

theorem onlyOwner_linksOn (h : WellFormed registry) {d m : String} (hl : (d, m) ∈ linksOn registry) :
    OnlyOwner (linksOn registry) d m := by
  obtain ⟨l, hmem, rfl, rfl⟩ := hl
  rintro _ ⟨l', hmem', hd, rfl⟩
  rw [h.filed.eq_of_device hmem hmem' hd]

theorem disjoint_linksOn (h : WellFormed registry) :
    Disjoint (linksOn registry) (revokedOn registry) := by
  rw [Set.disjoint_left]
  rintro ⟨d, m⟩ ⟨l, hmem, rfl, rfl⟩ hrev
  obtain ⟨d, hd⟩ := mem_listLinks_iff.mp hmem
  obtain ⟨rfl, _, hnot⟩ := h.links d l hd
  exact hnot hrev

theorem revokedOn_subset (V : LinkVerifier) (registry : DeviceRegistry)
    (links : List SignedDeviceLink) (revocations : List SignedRevocation) :
    revokedOn registry ⊆ revokedOn (registry.update links revocations V).2 := by
  rintro ⟨d, m⟩ hrev
  by_cases hcap : WithinCap links revocations
  · exact (mem_update_revoked hcap _).mpr (.inl hrev)
  · rwa [update_of_not_withinCap hcap]

theorem finite_linksOn (registry : DeviceRegistry) : (linksOn registry).Finite := by
  refine (List.finite_toSet (registry.listLinks.map fun l => (l.device, l.member))).subset ?_
  rintro ⟨d, m⟩ ⟨l, hmem, rfl, rfl⟩
  exact List.mem_map.mpr ⟨l, hmem, rfl⟩

theorem finite_revokedOn (registry : DeviceRegistry) : (revokedOn registry).Finite := by
  refine (List.finite_toSet (registry.revoked.toList.map Prod.swap)).subset ?_
  rintro ⟨d, m⟩ hrev
  exact List.mem_map.mpr ⟨(m, d), ExtTreeSet.mem_toList.mpr hrev, rfl⟩

theorem Orderly.counts_iff (h : Orderly roster registry) {d m : String} :
    (gateOf roster registry).Counts d m ↔
      (d, m) ∈ linksOn registry ∧ m ∈ (gateOf roster registry).members := by
  constructor
  · rintro ⟨howner, _, hm⟩
    exact ⟨howner, hm⟩
  · rintro ⟨⟨l, hmem, rfl, rfl⟩, hm⟩
    exact ⟨⟨l, hmem, rfl, rfl⟩, h.uncrossed l hmem, hm⟩

variable {t : State String String String}

/-- The two gates allow the same, apart from the names that the model gives to what is allowed. -/
theorem Orderly.allowed (h : Orderly roster registry) (hwf : WellFormed registry)
    (ht : Carries (linksOn registry) (revokedOn registry) t)
    (hm : t.allowed = (gateOf roster registry).members) :
    {a | a ∈ allowedSet (effectiveRoster roster registry)} =
      allowedDevices t ∪ legacyAllowed t := by
  have hdevice : ∀ a, a ∈ allowedDevices t ↔ ∃ m, (gateOf roster registry).Counts a m := by
    intro a
    simp only [h.counts_iff]
    constructor
    · rintro ⟨⟨m, hmem, hl⟩, _⟩
      exact ⟨m, ht.links ▸ hl, hm ▸ hmem⟩
    · rintro ⟨m, hl, hmem⟩
      refine ⟨⟨m, hm ▸ hmem, ht.links ▸ hl⟩, ?_⟩
      rw [ht.revoked]
      rintro ⟨m', hrev⟩
      exact h.uncontested.unrevoked a m m' hl hrev
  have hlegacy : ∀ a, a ∈ legacyAllowed t ↔
      a ∈ (gateOf roster registry).members ∧ a ∉ (gateOf roster registry).onDeviceKeys := by
    intro a
    simp only [legacyAllowed, OnDeviceKeys, Set.mem_ofPred_eq, Gate.onDeviceKeys, h.counts_iff,
      ht.links, ht.revokedBy, hm]
    apply and_congr_right
    intro hmem
    simp only [hmem, and_true]
    rw [or_comm]
    rfl
  ext a
  rw [Set.mem_union, hdevice, hlegacy, or_comm]
  exact mem_allowedSet_effectiveRoster hwf.canonical_device

end Gate

section Refinement

variable {T : Type} {V : LinkVerifier} {d d' : ClusterDaemon T} {g : String}
  {t : State String String String}

def init : State String String String := ⟨∅, fun _ => none, ∅, ∅, ∅, ∅, ∅, ∅⟩

/-- What the model shows of a group: its links and revocations, whom it allows, and who is meshed. -/
structure Shows (g : String) (d : ClusterDaemon T) (t : State String String String) : Prop where
  carries : Carries (linksOn (registryOf d g)) (revokedOn (registryOf d g)) t
  allowed : {a | a ∈ allowedOf d g} = allowedDevices t ∪ legacyAllowed t
  admitted : t.admitted = {a | a ∈ admittedOf d g} ∩ allowedDevices t
  legacy : t.legacy = {a | a ∈ admittedOf d g} ∩ legacyAllowed t

theorem Shows.congr (h : Shows g d t) (hreg : registryOf d' g = registryOf d g)
    (hgroup : d'.groups[g]? = d.groups[g]?) : Shows g d' t := by
  have hallowed : allowedOf d' g = allowedOf d g := by
    rw [allowedOf, hgroup, allowedOf]
  have hadmitted : admittedOf d' g = admittedOf d g := by
    rw [admittedOf, hgroup, admittedOf]
  constructor
  · rw [hreg]
    exact h.carries
  · rw [hallowed]
    exact h.allowed
  · rw [hadmitted]
    exact h.admitted
  · rw [hadmitted]
    exact h.legacy

theorem admittedOf_subset (h : Sound d) (g : String) :
    {a | a ∈ admittedOf d g} ⊆ {a | a ∈ allowedOf d g} := by
  intro a ha
  simp only [Set.mem_ofPred_eq, admittedOf, allowedOf] at ha ⊢
  cases hs : d.groups[g]? with
  | none => simp [hs] at ha
  | some s =>
    rw [hs] at ha
    exact (h.sessions g s hs).admitted_allowed a ha

/-- Once the gate is the group's, peers that come and go make the mesh the group's. -/
theorem leads_shows (hc : Carries (linksOn (registryOf d g)) (revokedOn (registryOf d g)) t)
    (ha : {a | a ∈ allowedOf d g} = allowedDevices t ∪ legacyAllowed t) :
    Leads Next Action.IsPeer t (Shows g d) := by
  have hA := (finite_addressSet (admittedOf d g)).inter_of_left (allowedDevices t)
  have hB := (finite_addressSet (admittedOf d g)).inter_of_left (legacyAllowed t)
  apply (leads_peers Set.inter_subset_right Set.inter_subset_right hc.admitted hc.legacy hA hB).mono
  rintro _ rfl
  exact ⟨{ hc with admitted := hA, legacy := hB }, ha, rfl, rfl⟩

theorem Shows.leave (h : Shows g d t) :
    Shows g (d.leave g) { t with
      allowed := ∅
      admitted := {d | d ∈ t.admitted ∧ ∃ m ∈ (∅ : Set String), (d, m) ∈ t.links}
      legacy := t.legacy ∩ ∅ } where
  carries := { h.carries with
    admitted := h.carries.admitted.subset fun _ hd => hd.1
    legacy := h.carries.legacy.subset Set.inter_subset_left }
  allowed := by
    ext a
    simp [allowedOf_leave, allowedDevices, LinkedToAllowed, legacyAllowed]
  admitted := by
    ext a
    simp [admittedOf, ClusterDaemon.leave]
  legacy := by
    ext a
    simp [admittedOf, ClusterDaemon.leave]

variable [MeshTransport T]

theorem leads_rostered {s : ClusterSession T} {roster : Entries} {links : List DeviceLinkWire}
    {revocations : List RevocationWire} (hwf : WellFormed (registryOf d g)) (h : Shows g d t)
    (ho : Orderly roster (registryAfter V d g links revocations).2) :
    ∃ links' peers t', (∀ a ∈ links', a.IsLink) ∧ (∀ a ∈ peers, a.IsPeer) ∧
      Steps Next t (links' ++ .reconcile (gateOf roster
        (registryAfter V d g links revocations).2).members :: peers) t' ∧
        Shows g (rostered V d g s roster links revocations) t' := by
  have hwf' := hwf.update V (links.map DeviceLinkWire.toSigned)
    (revocations.map RevocationWire.toSigned)
  obtain ⟨links', t₁, hlinks, hsteps, ht₁⟩ := h.carries.update (fun _ _ => onlyOwner_linksOn hwf)
    (fun _ _ => onlyOwner_linksOn hwf') ho.uncontested (revokedOn_subset V _ _ _)
    (disjoint_linksOn hwf) (finite_linksOn _) (finite_linksOn _) (finite_revokedOn _)
  let na := (gateOf roster (registryAfter V d g links revocations).2).members
  have hnext := Next.reconcile t₁ na
  generalize ht₂ : ({ t₁ with
    allowed := na
    admitted := {d | d ∈ t₁.admitted ∧ ∃ m ∈ na, (d, m) ∈ t₁.links}
    legacy := t₁.legacy ∩ na } : State String String String) = t₂ at hnext
  have hcarries : Carries (linksOn (registryAfter V d g links revocations).2)
      (revokedOn (registryAfter V d g links revocations).2) t₂ := by
    rw [← ht₂]
    exact { ht₁ with
      admitted := ht₁.admitted.subset fun e he => he.1
      legacy := ht₁.legacy.subset Set.inter_subset_left }
  have hallowed := ho.allowed hwf' hcarries (by rw [← ht₂])
  obtain ⟨peers, t', hpeers, hsteps', ht'⟩ :=
    leads_shows (d := rostered V d g s roster links revocations) (g := g)
      (by rwa [registryOf_rostered]) (by rwa [allowedOf_rostered])
  exact ⟨links', peers, t', hlinks, hpeers, hsteps.append (.cons hnext hsteps'), ht'⟩

/-- A new roster of the group that is not refused is links and revocations, then one `Reconcile` with
the members that the roster lists, then peers that come and go. Leaving the group is a `Reconcile`
with nobody, and apart from that peers come and go. -/
def explains (V : LinkVerifier) (g : String) :
    ClusterDaemon T → Event T → ClusterDaemon T → List (Action String String) → Prop :=
  ExplainedBy V g Action.IsPeer
    (fun roster registry acts => ∃ links peers,
      acts = links ++ .reconcile (gateOf roster registry).members :: peers ∧
        (∀ a ∈ links, a.IsLink) ∧ ∀ a ∈ peers, a.IsPeer)
    (· = [.reconcile ∅])

/-- A daemon that is sound, and a state of the model that shows one of its groups. -/
structure Seen (g : String) (d : ClusterDaemon T) (t : State String String String) : Prop where
  sound : Sound d
  shows : Shows g d t

/-- The steps of the daemon after which the group's devices are in order. -/
def Ordered (V : LinkVerifier) (g : String) :
    ClusterDaemon T → Event T → ClusterDaemon T → Prop :=
  Meeting (total (step V)) fun d e =>
    Orderly (rosterOf (step V d e) g) (registryOf (step V d e) g)

theorem simulates (V : LinkVerifier) (g : String) :
    Simulates (Ordered (T := T) V g) Next (Seen g) (explains V g) := by
  rintro d e d' t ⟨hsound, hshows⟩ ⟨hs, ho⟩
  have hsound' := hsound.step hs
  obtain rfl := hs
  refine (?_ : ∃ acts t', explains V g d e (step V d e) acts ∧ Steps Next t acts t' ∧
    Shows g (step V d e) t').imp fun acts ⟨t', he, hst, ht⟩ => ⟨t', he, hst, hsound', ht⟩
  have heff := onGroup_step V g d e
  generalize step V d e = d' at heff hsound' ho
  cases heff with
  | apart he h =>
    have hreg : registryOf d' g = registryOf d g := by
      rw [registryOf, h.deviceState, registryOf]
    exact ⟨[], t, .apart he, .nil _, hshows.congr hreg h.groups⟩
  | refused h => exact ⟨[], t, .refused h, .nil _, hshows⟩
  | @rostered s roster links revocations _ _ hopen h =>
    rw [registryOf_rostered, rosterOf_rostered] at ho
    obtain ⟨links', peers, t', hlinks, hpeers, hsteps, ht'⟩ :=
      leads_rostered (s := s) (hsound.registries g) hshows ho
    exact ⟨_, t', .rostered h ⟨links', peers, rfl, hlinks, hpeers⟩, hsteps, ht'⟩
  | left => exact ⟨_, _, .left rfl, .single (.reconcile t ∅), hshows.leave⟩
  | unchanged he hgroup hg hdev =>
    have hreg : registryOf d' g = registryOf d g := by
      rw [registryOf, hdev, registryOf]
    exact ⟨[], t, .quiet he hgroup (by simp), .nil _, hshows.congr hreg hg⟩
  | @worked _ _ s ops he hgroup hopen _ hg hdev =>
    have hreg : registryOf d' g = registryOf d g := by
      rw [registryOf, hdev, registryOf]
    have hallowed : allowedOf d' g = allowedOf d g := by
      rw [allowedOf_of_getElem? hg, SessionOp.runAll_allowed, allowed_of_opened hopen]
    obtain ⟨peers, t', hpeers, hsteps, ht'⟩ := leads_shows (d := d') (g := g) (t := t)
      (by rw [hreg]; exact hshows.carries) (by rw [hallowed]; exact hshows.allowed)
    exact ⟨peers, t', .quiet he hgroup hpeers, hsteps, ht'⟩

omit [MeshTransport T] in
/-- Whoever is meshed is meshed in the model, as a device or under a comms identity. -/
theorem Seen.admittedOf_eq (h : Seen g d t) : {a | a ∈ admittedOf d g} = t.admitted ∪ t.legacy := by
  have hsub : {a | a ∈ admittedOf d g} ⊆ {a | a ∈ allowedOf d g} := admittedOf_subset h.sound g
  rw [h.shows.admitted, h.shows.legacy, ← Set.inter_union_distrib_left, ← h.shows.allowed,
    Set.inter_eq_left.mpr hsub]

omit [MeshTransport T] in
theorem shows_of_initial (hd : Initial d) (g : String) : Shows g d init := by
  have hreg : registryOf d g = .new := by
    simp only [registryOf, hd.deviceState]
    rfl
  have hlinks : linksOn .new = ∅ := by
    ext x
    simp [linksOn, listLinks, DeviceRegistry.new]
  have hrevoked : revokedOn .new = ∅ := by
    ext x
    simp [revokedOn, DeviceRegistry.new]
  constructor
  · rw [hreg, hlinks, hrevoked]
    exact ⟨rfl, rfl, rfl, by simp [init], by simp [init], Set.finite_empty, Set.finite_empty⟩
  · ext a
    simp [allowedOf, hd.groups, allowedDevices, LinkedToAllowed, legacyAllowed, init]
  · ext a
    simp [admittedOf, hd.groups, init]
  · ext a
    simp [admittedOf, hd.groups, init]

/-- Every run of the daemon that keeps a group's devices in order is for this group a run of the
device model, state by state, links and revocations included: whoever is meshed is meshed there, as
a device or under a comms identity. -/
theorem daemon_refines_deviceLink {es : List (Event T)} (hd : Initial d)
    (h : Steps (Ordered V g) d es d') :
    ∃ t, Lockstep (Ordered V g) Next
      (fun d t => Shows g d t ∧ {a | a ∈ admittedOf d g} = t.admitted ∪ t.legacy) (explains V g)
      d init es d' t := by
  obtain ⟨t, hlock⟩ := (simulates V g).lockstep h ⟨sound_of_initial hd, shows_of_initial hd g⟩
  exact ⟨t, hlock.mono fun _ _ h => ⟨h.shows, h.admittedOf_eq⟩⟩

end Refinement

/-- A member with one linked device. -/
def linkingCall : Event InProcessTransport :=
  .request (.setRoster "group" [(m1, "member")] [linkWire (signed (linkOf '1' '1' 0 0))] [])

theorem daemon_refines_deviceLink_sample :
    ∃ t, Lockstep (Ordered plainVerifier "group") Next
        (fun d t => Shows "group" d t ∧ {a | a ∈ admittedOf d "group"} = t.admitted ∪ t.legacy)
        (explains plainVerifier "group") nodeDaemon init [linkingCall]
        (step plainVerifier nodeDaemon linkingCall) t ∧
      (d1, m1) ∈ t.links := by
  have hv : (linkOf '1' '1' 0 0).Valid := valid_linkOf rfl rfl (by decide)
  obtain ⟨_, _, hreply⟩ := handleRequest_nodeDaemon plainVerifier [(m1, "member")]
    [linkWire (signed (linkOf '1' '1' 0 0))] []
  have ho : Orderly [(m1, "member")] (onlyLink (linkOf '1' '1' 0 0)) := by
    constructor
    · exact ⟨fun d m h => absurd h (not_mem_revoked_onlyLink _ _),
        fun d m m' _ => not_mem_revoked_onlyLink _ _⟩
    · rintro l hl ⟨e, he, ha⟩
      rw [listLinks_onlyLink, List.mem_singleton] at hl
      have hm : canonicalAddress m1 = some m1 := (canonical_address rfl rfl).canonicalAddress
      rw [List.mem_singleton.mp he, hl, hm] at ha
      simp [m1, linkOf, address_inj] at ha
  have hrun : Steps (Ordered plainVerifier "group") nodeDaemon [linkingCall]
      (step plainVerifier nodeDaemon linkingCall) := by
    refine .single ⟨rfl, ?_⟩
    dsimp only
    rw [linkingCall, step, hreply, registryOf_rostered, rosterOf_rostered, registryAfter_linked hv]
    exact ho
  obtain ⟨t, hlock⟩ := daemon_refines_deviceLink (initial_withFactory _ _) hrun
  refine ⟨t, hlock, ?_⟩
  rw [hlock.last.1.carries.links, linkingCall, step, hreply, registryOf_rostered,
    registryAfter_linked hv]
  exact ⟨linkOf '1' '1' 0 0, by simp, rfl, rfl⟩

end CitrateCluster.DeviceLinkRefinement
