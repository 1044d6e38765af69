import CitrateCluster.Authorization
import CitrateCluster.GroupState
import CitrateCluster.UpdateSpec

namespace CitrateCluster.Resending

open Std (ExtTreeMap ExtTreeSet)
open CitrateCluster.Membership Roster Collections Device DeviceRegistry EffectiveRoster Transport
  Session Daemon ClusterDaemon Ipc DaemonStep Registry UpdateSpec SwarmLoop SwarmSurface
  Authorization GroupState

/-- A transport on which `authorize` settles: neither the order nor a repetition of its calls
matters. -/
class Settling (T : Type) extends MeshTransport T where
  authorize_self (t : T) (a : String) : authorize (authorize t a) a = authorize t a
  authorize_comm (t : T) (a b : String) : authorize (authorize t a) b = authorize (authorize t b) a

instance : Settling InProcessTransport where
  authorize_self _ _ := rfl
  authorize_comm _ _ _ := rfl

theorem wire_authorize_self (w : Wire) (peer : String) :
    (w.authorize peer).authorize peer = w.authorize peer := by
  simp only [Wire.authorize]
  cases canonicalAddress peer with
  | none => rfl
  | some a => simp only [set_insert_self]

theorem wire_authorize_comm (w : Wire) (peer peer' : String) :
    (w.authorize peer).authorize peer' = (w.authorize peer').authorize peer := by
  simp only [Wire.authorize]
  cases canonicalAddress peer with
  | none => rfl
  | some a =>
    cases canonicalAddress peer' with
    | none => rfl
    | some b => simp only [set_insert_comm]

instance {Key : Type} {I : Libp2p Key} : Settling (Libp2pTransport I) where
  authorize_self t peer := congrArg Libp2pTransport.mk (wire_authorize_self t.wire peer)
  authorize_comm t peer peer' := congrArg Libp2pTransport.mk (wire_authorize_comm t.wire peer peer')

section Registry

variable {V : LinkVerifier}

/-- An update finds nothing to do in the registry that it has left, and reports the same. -/
theorem update_update (reg : DeviceRegistry) (links : List SignedDeviceLink)
    (revocations : List SignedRevocation) :
    (reg.update links revocations V).2.update links revocations V =
      reg.update links revocations V := by
  by_cases hcap : WithinCap links revocations
  · have hrev : ((reg.update links revocations V).2.update links revocations V).2.revoked =
        (reg.update links revocations V).2.revoked := by
      apply ExtTreeSet.ext_mem
      intro p
      rw [mem_update_revoked hcap, mem_update_revoked hcap, or_assoc, or_self]
    have hlinks : ((reg.update links revocations V).2.update links revocations V).2.links =
        (reg.update links revocations V).2.links := by
      apply ExtTreeMap.ext_getElem?
      intro d
      rw [getElem?_update_links hcap, getElem?_update_links hcap, hrev]
    have hrejected : ((reg.update links revocations V).2.update links revocations V).1 =
        (reg.update links revocations V).1 := by
      rw [fst_update hcap, hrev, ← fst_update hcap]
    exact Prod.ext hrejected (DeviceRegistry.ext hlinks hrev)
  · rw [update_of_not_withinCap hcap, update_of_not_withinCap hcap]

end Registry

section Roster

variable {T : Type}

/-- A roster evicts nobody the second time. -/
theorem reconcile_reconcile (m : ClusterMembership) (roster : Entries) :
    (m.reconcile roster).2.reconcile roster = ([], (m.reconcile roster).2) := by
  have hevicted : ((m.reconcile roster).2.reconcile roster).1 = [] := by
    rw [List.eq_nil_iff_forall_not_mem]
    intro a ha
    obtain ⟨hm, hn⟩ := ClusterMembership.mem_reconcile_evicted.mp ha
    exact hn (ClusterMembership.mem_reconcile_admitted.mp hm).2
  apply Prod.ext hevicted
  change ClusterMembership.mk (allowedSet roster)
    (((m.reconcile roster).2.reconcile roster).1.foldl ExtTreeSet.erase _) = _
  rw [hevicted]
  rfl

theorem removed_applyRoster [MeshTransport T] (s : ClusterSession T) (roster : Entries) :
    removed (s.applyRoster roster).2 roster = [] := by
  rw [List.eq_nil_iff_forall_not_mem]
  intro a ha
  obtain ⟨hm, hn⟩ := mem_removed.mp ha
  exact hn hm

theorem transport_foldl_authorize [MeshTransport T] (l : List String) (t : Logged T) :
    (l.foldl authorize t).transport = l.foldl authorize t.transport :=
  (List.foldl_hom Logged.transport fun _ _ => rfl).symm

variable [Settling T]

/-- The second time a roster only repeats its calls of `authorize`, which change nothing. -/
theorem applyRoster_applyRoster (s : ClusterSession (Logged T)) (roster : Entries) :
    (s.applyRoster roster).2.applyRoster roster =
      ([], { (s.applyRoster roster).2 with
        transport.calls := (s.applyRoster roster).2.transport.calls ++
          (allowedSet roster).toList.map .authorize }) := by
  have hevicted : ((s.applyRoster roster).2.membership.reconcile roster).1 = [] :=
    congrArg Prod.fst (reconcile_reconcile s.membership roster)
  have htransport : ((s.applyRoster roster).2.applyRoster roster).2.transport =
      (allowedSet roster).toList.foldl authorize (s.applyRoster roster).2.transport := by
    rw [applyRoster_transport, hevicted, removed_applyRoster]
    rfl
  have hwire : ((allowedSet roster).toList.foldl authorize
      (s.applyRoster roster).2.transport).transport = (s.applyRoster roster).2.transport.transport := by
    rw [transport_foldl_authorize, applyRoster_transport, transport_foldl_authorize,
      foldl_foldl_self Settling.authorize_self Settling.authorize_comm]
  have hmembership : ((s.applyRoster roster).2.applyRoster roster).2.membership =
      (s.applyRoster roster).2.membership :=
    congrArg Prod.snd (reconcile_reconcile s.membership roster)
  refine Prod.ext hevicted (congrArg₂ ClusterSession.mk hmembership (htransport.trans ?_))
  exact congrArg₂ Logged.mk hwire (calls_foldl (fun _ _ => rfl) _ _)

theorem registryAfter_rostered (V : LinkVerifier) (d : ClusterDaemon (Logged T)) (g : String)
    (s : ClusterSession (Logged T)) (roster : Entries) (links : List DeviceLinkWire)
    (revocations : List RevocationWire) :
    registryAfter V (rostered V d g s roster links revocations) g links revocations =
      registryAfter V d g links revocations := by
  rw [registryAfter, registryOf_rostered, registryAfter, update_update]

/-- A roster that is sent to a daemon on which it has just taken effect. -/
theorem rostered_rostered (V : LinkVerifier) (d : ClusterDaemon (Logged T)) (g : String)
    (s s' : ClusterSession (Logged T)) (roster : Entries) (links : List DeviceLinkWire)
    (revocations : List RevocationWire) :
    rostered V (rostered V d g s roster links revocations) g s' roster links revocations =
      (rostered V d g s roster links revocations).setSession g (s'.applyRoster
        (effectiveRoster roster (registryAfter V d g links revocations).2)).2 := by
  have hstate : (rostered V d g s roster links revocations).deviceState.insert g
      ⟨roster, (registryAfter V d g links revocations).2⟩ =
        (rostered V d g s roster links revocations).deviceState :=
    insert_insert _ _ _ _
  rw [rostered, registryAfter_rostered, setSession]
  simp only [hstate]

/-- After a roster that took effect the same roster, sent again at once, evicts nobody, reports the
same, disconnects nobody and leaves the daemon as it was: the group has the same roster and
registry, the same allowed and admitted sets and the same transport, which is only told again whom
to authorize. -/
theorem setRoster_again {V : LinkVerifier} {d d' : ClusterDaemon (Logged T)} {g : String}
    {roster : Entries} {links : List DeviceLinkWire} {revocations : List RevocationWire}
    {evicted rejected : List String}
    (h : handleRequest V d (.setRoster g roster links revocations) =
      (.reconciled evicted rejected, d')) :
    ∃ s calls, d'.groups[g]? = some s ∧ (∀ a, .disconnect a ∉ calls) ∧
      handleRequest V d' (.setRoster g roster links revocations) =
        (.reconciled [] rejected,
          d'.setSession g { s with transport.calls := s.transport.calls ++ calls }) := by
  cases hg : d.ensureGroupAllowed g with
  | error e => simp [handleRequest, setRosterWithDevices, hg] at h
  | ok _ =>
    obtain ⟨e, he⟩ | ⟨s, hs, he⟩ := handleRequest_setRoster_cases V d g roster links revocations
    · simp [he] at h
    · rw [he] at h
      cases h
      have hagain := applyRoster_applyRoster s
        (effectiveRoster roster (registryAfter V d g links revocations).2)
      refine ⟨_, (allowedSet (effectiveRoster roster
        (registryAfter V d g links revocations).2)).toList.map .authorize, groups_rostered, ?_, ?_⟩
      · simp
      · have hallowed : (rostered V d g s roster links revocations).ensureGroupAllowed g = .ok () :=
          hg
        have hopened : ∀ s', (rostered V d g s roster links revocations).groups[g]? = some s' →
            (rostered V d g s roster links revocations).ensureSession g =
              .ok (s', (rostered V d g s roster links revocations).setSession g s') := by
          intro s' hs'
          rw [setSession, insert_eq_self hs', ensureSession, hs']
        rw [handleRequest_setRoster_of_ensureSession V hallowed (hopened _ groups_rostered),
          rostered_rostered, registryAfter_rostered, hagain]

/-- A request with a device's link and a malformed revocation. -/
def sampleRoster : Request :=
  .setRoster "group" [(m1, "member"), (m2, "guest")] [linkWire (signed (linkOf '1' '1' 0 0))]
    [⟨m1, "device", 0, ""⟩]

theorem setRoster_again_sample :
    ∃ d' s calls, handleRequest plainVerifier meshDaemon sampleRoster =
        (.reconciled [] ["device: revocation signature does not verify"], d') ∧
      (registryOf d' "group").listLinks = [linkOf '1' '1' 0 0] ∧
      d'.groups["group"]? = some s ∧ (∀ a, .disconnect a ∉ calls) ∧
      handleRequest plainVerifier d' sampleRoster =
        (.reconciled [] ["device: revocation signature does not verify"],
          d'.setSession "group" { s with transport.calls := s.transport.calls ++ calls }) := by
  have hv : (linkOf '1' '1' 0 0).Valid := valid_linkOf rfl rfl (by decide)
  have hm : canonicalAddress m1 = some m1 := (canonical_address rfl rfl).canonicalAddress
  have hdevice : canonicalAddress "device" = none := by decide +kernel
  have hrecord : recordRevocation plainVerifier (∅, []) ⟨⟨m1, "device", 0⟩, ""⟩ =
      (∅, [.badRevocation "device"]) := by
    simp [recordRevocation, DeviceRevocation.new, hm, hdevice]
  have hnew : registryOf meshDaemon "group" = .new := rfl
  have hafter : registryAfter plainVerifier meshDaemon "group"
      [linkWire (signed (linkOf '1' '1' 0 0))] [⟨m1, "device", 0, ""⟩] =
        ([.badRevocation "device"], onlyLink (linkOf '1' '1' 0 0)) := by
    rw [registryAfter, hnew]
    exact update_single (body_signed hv) (by decide) hrecord
  have hopen : meshDaemon.ensureSession "group" = .ok (.new [] ⟨⟨.new "group" m1⟩, []⟩,
      meshDaemon.setSession "group" (.new [] ⟨⟨.new "group" m1⟩, []⟩)) := rfl
  have hevicted : ∀ roster, ((ClusterSession.new [] (⟨⟨.new "group" m1⟩, []⟩ :
      Logged (Libp2pTransport plainLibp2p))).applyRoster roster).1 = [] := fun _ => rfl
  have hreply := handleRequest_setRoster_of_ensureSession plainVerifier rfl hopen
    [(m1, "member"), (m2, "guest")] [linkWire (signed (linkOf '1' '1' 0 0))]
    [⟨m1, "device", 0, ""⟩]
  rw [hevicted, hafter] at hreply
  obtain ⟨s, calls, hs, hcalls, hagain⟩ := setRoster_again hreply
  refine ⟨_, s, calls, hreply, ?_, hs, hcalls, hagain⟩
  rw [registryOf_rostered, hafter, listLinks_onlyLink]

end Roster

end CitrateCluster.Resending
