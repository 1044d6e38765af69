import CitrateCluster.GroupState

namespace CitrateCluster.History

open Std (ExtTreeMap ExtTreeSet)
open CitrateCluster.Membership Runs Roster Collections Device DeviceRegistry Registry
  EffectiveRoster Transport Session Daemon ClusterDaemon Ipc DaemonStep Admission GroupState

variable {T : Type} [MeshTransport T] {V : LinkVerifier} {d d' : ClusterDaemon T} {g : String}

/-- What a group has been sent: the revocations of every call that took effect, and the roster and
the links of the last one, while the group has not been left since. -/
structure Ledger where
  revocations : List SignedRevocation
  last : Option (Entries × List SignedDeviceLink)

def Ledger.record (V : LinkVerifier) (g : String) (d : ClusterDaemon T) (ledger : Ledger) :
    Event T → Ledger
  | .request (.setRoster g' roster links revocations) =>
    match (handleRequest V d (.setRoster g' roster links revocations)).1 with
    | .reconciled _ _ =>
      if g' = g then
        ⟨ledger.revocations ++ revocations.map RevocationWire.toSigned,
          some (roster, links.map DeviceLinkWire.toSigned)⟩
      else ledger
    | _ => ledger
  | .request (.leave g') => if g' = g then { ledger with last := none } else ledger
  | _ => ledger

/-- A daemon beside the ledger of one group. -/
def recordStep (V : LinkVerifier) (g : String) (p : ClusterDaemon T × Ledger) (e : Event T) :
    ClusterDaemon T × Ledger := (step V p.1 e, p.2.record V g p.1 e)

/-- Every call on the group stays within the cap. -/
def CallsFit (g : String) (_ : ClusterDaemon T × Ledger) (e : Event T) : Prop :=
  ∀ roster links revocations, e = .request (.setRoster g roster links revocations) →
    Fits links revocations

/-- The pairs that a list of revocations records. -/
def verified (V : LinkVerifier) (revocations : List SignedRevocation) :
    ExtTreeSet (String × String) lexCmp :=
  ExtTreeSet.ofList (revocations.filterMap (recorded V)) lexCmp

omit [MeshTransport T] in
theorem mem_verified {revocations : List SignedRevocation} {p : String × String} :
    p ∈ verified V revocations ↔ ∃ r ∈ revocations, recorded V r = some p := by
  rw [verified, mem_ofList_iff, List.mem_filterMap]

/-- The device state and the session of a group are a function of its ledger. -/
structure Agrees (V : LinkVerifier) (g : String) (d : ClusterDaemon T) (ledger : Ledger) : Prop where
  revoked : (registryOf d g).revoked = verified V ledger.revocations
  last : ∀ roster links, ledger.last = some (roster, links) → g ∈ d.groups ∧
    registryOf d g = (update ⟨∅, verified V ledger.revocations⟩ links [] V).2 ∧
      allowedOf d g = allowedSet (effectiveRoster roster (registryOf d g))

omit [MeshTransport T] in
theorem agrees_of_initial (h : Initial d) : Agrees V g d ⟨[], none⟩ where
  revoked := by
    simp only [registryOf, h.deviceState]
    rfl
  last := fun _ _ hl => by cases hl

omit [MeshTransport T] in
/-- A state in which nothing of the group has changed but what its transport holds. -/
theorem Agrees.congr {ledger : Ledger} (h : Agrees V g d ledger)
    (hregistry : registryOf d' g = registryOf d g) (hallowed : allowedOf d' g = allowedOf d g)
    (hgroups : g ∈ d.groups → g ∈ d'.groups) : Agrees V g d' ledger where
  revoked := hregistry ▸ h.revoked
  last := by
    intro roster links hl
    obtain ⟨hg, hr, ha⟩ := h.last roster links hl
    exact ⟨hgroups hg, hregistry ▸ hr, by rw [hallowed, hregistry, ha]⟩

omit [MeshTransport T] in
theorem Agrees.frame {ledger : Ledger} (h : Agrees V g d ledger)
    (hregistry : registryOf d' g = registryOf d g) (hgroups : d'.groups[g]? = d.groups[g]?) :
    Agrees V g d' ledger := by
  apply h.congr hregistry
  · rw [allowedOf, hgroups, allowedOf]
  · intro hmem
    rwa [ExtTreeMap.mem_iff_isSome_getElem?, hgroups, ← ExtTreeMap.mem_iff_isSome_getElem?]

theorem record_of_quiet {e : Event T} (he : Quiet e) (ledger : Ledger) :
    ledger.record V g d e = ledger := by
  cases e with
  | request r =>
    cases r with
    | setRoster => exact he.elim
    | leave => exact he.elim
    | _ => rfl
  | _ => rfl

theorem agrees_rostered {ledger : Ledger} (h : Agrees V g d ledger) {roster : Entries}
    {links : List DeviceLinkWire} {revocations : List RevocationWire} (hfit : Fits links revocations)
    (s : ClusterSession T) :
    Agrees V g (rostered V d g s roster links revocations)
      ⟨ledger.revocations ++ revocations.map RevocationWire.toSigned,
        some (roster, links.map DeviceLinkWire.toSigned)⟩ := by
  have hunion : ∀ p, p ∈ verified V (ledger.revocations ++ revocations.map RevocationWire.toSigned) ↔
      p ∈ revokedAfter V (registryOf d g) (revocations.map RevocationWire.toSigned) := by
    intro p
    simp only [mem_verified, List.mem_append, or_and_right, exists_or, revokedAfter,
      Set.mem_ofPred_eq, h.revoked]
  refine ⟨?_, ?_⟩
  · apply ExtTreeSet.ext_mem
    intro p
    rw [registryOf_rostered, registryAfter, mem_update_revoked hfit, hunion]
    rfl
  · rintro _ _ ⟨⟩
    refine ⟨by simp [rostered], ?_, by simp⟩
    rw [registryOf_rostered, registryAfter]
    exact update_eq_of_revoked V hfit hunion

theorem Agrees.step {e : Event T} {ledger : Ledger} (h : Agrees V g d ledger)
    (he : Effect V d e d') (hfit : CallsFit g (d, ledger) e) :
    Agrees V g d' (ledger.record V g d e) := by
  cases he with
  | refused hr =>
    simp only [Ledger.record, hr]
    exact h
  | @rostered g' s roster links revocations _ _ _ hr =>
    simp only [Ledger.record, hr]
    split
    · next hg =>
      subst hg
      exact agrees_rostered h (hfit roster links revocations rfl) s
    · next hg =>
      exact h.frame (registryOf_rostered_of_ne (Ne.symm hg)) (groups_rostered_of_ne (Ne.symm hg))
  | left g' =>
    simp only [Ledger.record]
    split
    · exact ⟨h.revoked, fun _ _ hl => by cases hl⟩
    · next hg =>
      exact h.frame rfl (groups_leave_of_ne (Ne.symm hg))
  | factory => exact h.congr rfl rfl id
  | quiet hq ht =>
    rw [record_of_quiet hq]
    exact h.congr (registryOf_of_touched ht g) (allowedOf_of_touched ht g)
      (mem_groups_of_touched ht)

/-- What a group admits depends on its past only through the revocations that ever verified: its
registry is what the last links make of an otherwise empty registry with them, and its allowed set
is that of the last roster under this registry. -/
theorem history_independent {es : List (Event T)} {ledger : Ledger} (hd : Initial d)
    (h : Steps (Meeting (total (recordStep V g)) (CallsFit g)) (d, ⟨[], none⟩) es (d', ledger)) :
    (∀ p, p ∈ (registryOf d' g).revoked ↔ ∃ r ∈ ledger.revocations, recorded V r = some p) ∧
      ∀ roster links, ledger.last = some (roster, links) →
        registryOf d' g = (update ⟨∅, verified V ledger.revocations⟩ links [] V).2 ∧
          ∃ s, d'.groups[g]? = some s ∧
            s.membership.allowed = allowedSet (effectiveRoster roster (registryOf d' g)) := by
  have hagrees : Agrees V g d' ledger := by
    refine h.invariant (I := fun p => Agrees V g p.1 p.2) ?_ (agrees_of_initial hd)
    rintro ⟨d, ledger⟩ e _ hI ⟨rfl, hfit⟩
    exact hI.step (effect_step V d e) hfit
  refine ⟨fun p => by rw [hagrees.revoked, mem_verified], fun roster links hl => ?_⟩
  obtain ⟨hg, hr, ha⟩ := hagrees.last roster links hl
  obtain ⟨s, hs⟩ := Option.isSome_iff_exists.mp (ExtTreeMap.mem_iff_isSome_getElem?.mp hg)
  exact ⟨hr, s, hs, by rw [← allowedOf_of_getElem? hs, ha]⟩

section Samples

def firstLinks : List DeviceLinkWire := [linkWire (signed (linkOf '1' '1' 0 0))]

def firstRevocations : List RevocationWire := [revocationWire (revoke m1 d2)]

def lastRoster : Entries := [(m1, "member"), (m2, "owner")]

def lastLinks : List DeviceLinkWire :=
  [linkWire (signed (linkOf '1' '1' 0 0)), linkWire (signed (linkOf '1' '2' 1 0))]

def firstCall : Request := .setRoster "group" [(m1, "member")] firstLinks firstRevocations

def lastCall : Request := .setRoster "group" lastRoster lastLinks []

/-- A group that links one device and revokes another, is left and joined again, and is sent links of
both devices. -/
def relaunch : List (Event InProcessTransport) :=
  [.request firstCall, .request (.leave "group"), .request (.join "group"), .request lastCall,
    .request (.status "group")]

theorem firstCall_reconciled : ∃ evicted rejected,
    handleRequest plainVerifier nodeDaemon firstCall = (.reconciled evicted rejected,
      rostered plainVerifier nodeDaemon "group" (.new [] .new) [(m1, "member")] firstLinks
        firstRevocations) :=
  handleRequest_nodeDaemon plainVerifier _ firstLinks firstRevocations

/-- A group joined anew takes any roster. -/
theorem reconciled_of_join {d : ClusterDaemon InProcessTransport} (hsingle : d.singleGroup = none)
    (hgroups : d.groups = ∅) (hmake : d.makeTransport = fun _ => .ok .new) (roster : Entries)
    (links : List DeviceLinkWire) (revocations : List RevocationWire) :
    ∃ evicted rejected, (handleRequest plainVerifier (step plainVerifier d (.request (.join "group")))
      (.setRoster "group" roster links revocations)).1 = .reconciled evicted rejected := by
  have hnamed : (Text.trim "group").isEmpty = false := by decide +kernel
  have hjoin : step plainVerifier d (.request (.join "group")) =
      d.setSession "group" (.new [] .new) := by
    simp [step, handleRequest, join, ensureGroupAllowed, hsingle, ensureSession, hgroups, hnamed,
      hmake, maxGroups]
  have hallowed : (d.setSession "group" (.new [] .new)).ensureGroupAllowed "group" = .ok () := by
    simp [ensureGroupAllowed, setSession, hsingle]
  obtain ⟨evicted, rejected, hlast⟩ := handleRequest_setRoster_of_getElem? plainVerifier hallowed
    ExtTreeMap.getElem?_insert_self roster links revocations
  exact ⟨evicted, rejected, by rw [hjoin, hlast]⟩

theorem lastCall_reconciled : ∃ evicted rejected,
    (handleRequest plainVerifier (step plainVerifier (step plainVerifier (step plainVerifier
      nodeDaemon (.request firstCall)) (.request (.leave "group"))) (.request (.join "group")))
        lastCall).1 = .reconciled evicted rejected := by
  obtain ⟨_, _, hfirst⟩ := firstCall_reconciled
  have hleft : step plainVerifier (step plainVerifier nodeDaemon (.request firstCall))
      (.request (.leave "group")) = (rostered plainVerifier nodeDaemon "group" (.new [] .new)
        [(m1, "member")] firstLinks firstRevocations).leave "group" := by
    rw [step, step, hfirst]
    rfl
  rw [hleft]
  refine reconciled_of_join rfl ?_ rfl _ _ _
  apply ExtTreeMap.ext_getElem?
  intro k
  simp [rostered, leave, nodeDaemon, withFactory, ClusterDaemon.new]

/-- The ledger of the run: the revocation from before the group was left, and the last links. -/
theorem ledger_relaunch {d : ClusterDaemon InProcessTransport}
    (hfirst : ∃ evicted rejected,
      (handleRequest plainVerifier d firstCall).1 = .reconciled evicted rejected)
    (hlast : ∃ evicted rejected,
      (handleRequest plainVerifier (step plainVerifier (step plainVerifier (step plainVerifier
        d (.request firstCall)) (.request (.leave "group"))) (.request (.join "group")))
          lastCall).1 = .reconciled evicted rejected) :
    (relaunch.foldl (recordStep plainVerifier "group") (d, ⟨[], none⟩)).2 =
      ⟨[revoke m1 d2], some (lastRoster, [signed (linkOf '1' '1' 0 0),
        signed (linkOf '1' '2' 1 0)])⟩ := by
  obtain ⟨_, _, hfirst⟩ := hfirst
  obtain ⟨_, _, hlast⟩ := hlast
  simp only [firstCall, lastCall] at hfirst hlast
  simp only [relaunch, List.foldl_cons, List.foldl_nil, recordStep, Ledger.record, firstCall,
    lastCall, hfirst, hlast, if_true]
  simp [firstRevocations, lastLinks]

theorem history_independent_sample :
    ∃ d' ledger, Steps (Meeting (total (recordStep plainVerifier "group")) (CallsFit "group"))
        (nodeDaemon, ⟨[], none⟩) relaunch (d', ledger) ∧
      (m1, d2) ∈ (registryOf d' "group").revoked ∧
      registryOf d' "group" = (update ⟨∅, verified plainVerifier [revoke m1 d2]⟩
        [signed (linkOf '1' '1' 0 0), signed (linkOf '1' '2' 1 0)] [] plainVerifier).2 ∧
      ∃ s, d'.groups["group"]? = some s ∧
        s.membership.allowed = allowedSet (effectiveRoster lastRoster (registryOf d' "group")) := by
  have hfit : ∀ e ∈ relaunch, ∀ p, CallsFit "group" p e := by
    rintro e he p roster links revocations rfl
    simp only [relaunch, firstCall, lastCall, List.mem_cons, Event.request.injEq,
      Request.setRoster.injEq, reduceCtorEq, List.not_mem_nil, false_or, or_false] at he
    obtain ⟨_, rfl, rfl, rfl⟩ | ⟨_, rfl, rfl, rfl⟩ := he <;> decide
  have hsteps := steps_meeting_total (f := recordStep plainVerifier "group") hfit
    (nodeDaemon, ⟨[], none⟩)
  obtain ⟨evicted, rejected, hfirst⟩ := firstCall_reconciled
  have hledger := ledger_relaunch ⟨evicted, rejected, congrArg Prod.fst hfirst⟩ lastCall_reconciled
  generalize relaunch.foldl (recordStep plainVerifier "group") (nodeDaemon, ⟨[], none⟩) = p
    at hsteps hledger
  obtain ⟨d', ledger⟩ := p
  obtain rfl : ledger = _ := hledger
  obtain ⟨hrevoked, hlast⟩ := history_independent (initial_withFactory _ _) hsteps
  obtain ⟨hregistry, hallowed⟩ := hlast _ _ rfl
  refine ⟨d', _, hsteps, (hrevoked _).mpr ⟨revoke m1 d2, by simp, ?_⟩, hregistry, hallowed⟩
  exact recorded_revoke (canonical_address rfl rfl) (canonical_address rfl rfl)

end Samples

end CitrateCluster.History
