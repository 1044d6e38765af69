import CitrateCluster.Locality
import CitrateCluster.DeviceViews
import CitrateCluster.SwarmSurface

namespace CitrateCluster.Leaving

open Std (ExtTreeMap ExtTreeSet)
open Runs Roster Collections Device DeviceRegistry Registry EffectiveRoster Transport Session Daemon
  ClusterDaemon Ipc DaemonStep GroupState StateWrites Locality DeviceViews

/-- A transport whose connected peers are read without a change to it. -/
class StillReads (T : Type) [MeshTransport T] : Prop where
  connected_snd : ∀ t : T, (connected t).2 = t

instance : StillReads InProcessTransport := ⟨fun _ => rfl⟩

instance {Key : Type} {I : SwarmLoop.Libp2p Key} : StillReads (SwarmSurface.Libp2pTransport I) :=
  ⟨fun _ => rfl⟩

variable {T : Type} {V : LinkVerifier} {d d' : ClusterDaemon T} {g k : String}
  {state : Option GroupDevices}

/-- A daemon with other device state for one group, or with none. -/
def withDevices (g : String) (state : Option GroupDevices) (d : ClusterDaemon T) :
    ClusterDaemon T :=
  { d with deviceState := d.deviceState.alter g fun _ => state }

/-- A daemon that has never seen a group, as far as its device state goes. -/
def forget (g : String) (d : ClusterDaemon T) : ClusterDaemon T := withDevices g none d

/-- A daemon that keeps nothing of a group's device state but the recorded revocations. -/
def keepRevocations (g : String) (d : ClusterDaemon T) : ClusterDaemon T :=
  withDevices g (some ⟨[], ⟨∅, (registryOf d g).revoked⟩⟩) d

theorem getElem?_withDevices (k : String) :
    (withDevices g state d).deviceState[k]? = if k = g then state else d.deviceState[k]? := by
  by_cases hk : g = k
  · simp [withDevices, hk]
  · simp [withDevices, ExtTreeMap.getElem?_alter, hk, Ne.symm hk]

theorem withDevices_self : withDevices g d.deviceState[g]? d = d := by
  have h : (withDevices g d.deviceState[g]? d).deviceState = d.deviceState := by
    apply ExtTreeMap.ext_getElem?
    intro k
    rw [getElem?_withDevices]
    split
    · next hk => rw [hk]
    · rfl
  calc withDevices g d.deviceState[g]? d
      = { d with deviceState := (withDevices g d.deviceState[g]? d).deviceState } := rfl
    _ = d := by rw [h]

theorem registryOf_withDevices :
    registryOf (withDevices g state d) g = (state.getD default).registry := by
  simp [registryOf, getElem?_withDevices]

theorem keeps_withDevices (g k : String) (state : Option GroupDevices) :
    Keeps (withDevices g state : ClusterDaemon T → _) k where
  config _ := ⟨rfl, rfl, rfl⟩
  groups _ := rfl
  sharedFiles _ := rfl
  session _ _ := rfl
  share _ _ := rfl
  leave _ := rfl

theorem keepsDevices_withDevices (hk : k ≠ g) (state : Option GroupDevices) :
    KeepsDevices (withDevices g state : ClusterDaemon T → _) k where
  toKeeps := keeps_withDevices g k state
  deviceState d := by rw [getElem?_withDevices, if_neg hk]
  record d x := by
    have h : (d.deviceState.insert k x).alter g (fun _ => state) =
        (d.deviceState.alter g fun _ => state).insert k x := by
      apply ExtTreeMap.ext_getElem?
      intro a
      by_cases ha : g = a
      · simp [ExtTreeMap.getElem?_insert, ← ha, hk]
      · simp [ExtTreeMap.getElem?_alter, ExtTreeMap.getElem?_insert, ha]
    simp only [withDevices, h]

theorem sameRoom_withDevices : SameRoom (withDevices g state) d k := fun _ _ _ => Iff.rfl

variable [MeshTransport T]

/-- No event gives the group a roster. -/
def Unrostered (g : String) (_ : ClusterDaemon T) (e : Event T) : Prop :=
  ∀ roster links revocations, e ≠ .request (.setRoster g roster links revocations)

theorem readConnected_snd [StillReads T] (d : ClusterDaemon T) (g : String) :
    (d.readConnected g).2 = d := by
  rw [readConnected]
  split
  · rfl
  · next s hs =>
    simp only [StillReads.connected_snd, setSession, insert_eq_self hs]

theorem peers_snd [StillReads T] (d : ClusterDaemon T) (g : String) :
    (d.peers g).2 = d.syncAdmission g := by
  simp only [ClusterDaemon.peers]
  split
  · rfl
  · exact readConnected_snd _ g

theorem devices_snd [StillReads T] (d : ClusterDaemon T) (g : String) :
    (d.devices g).2 = d.syncAdmission g := by
  simp only [ClusterDaemon.devices]
  split
  · rfl
  · exact readConnected_snd _ g

/-- Apart from a new roster, what an event does has nothing to do with the group's devices. -/
theorem step_withDevices [StillReads T] {e : Event T} (he : Unrostered g d e) :
    step V (withDevices g state d) e = withDevices g state (step V d e) := by
  have hkeeps := keeps_withDevices (T := T) g g state
  cases hk : eventGroup e with
  | some k =>
    by_cases hkg : k = g
    · subst hkg
      by_cases hr : ∀ r, e = .request r → ¬ ReadsDevices r
      · exact hkeeps.step hk (fun _ _ => sameRoom_withDevices) hr
      · simp only [not_forall, not_not] at hr
        obtain ⟨r, rfl, hr⟩ := hr
        cases r with
        | setRoster k' roster links revocations =>
          cases hk
          exact absurd rfl (he roster links revocations)
        | devices k' =>
          cases hk
          simp only [Ipc.step, handleRequest, devices_snd]
          exact hkeeps.syncAdmission d
        | peers k' =>
          cases hk
          simp only [Ipc.step, handleRequest, peers_snd]
          exact hkeeps.syncAdmission d
        | _ => exact hr.elim
    · exact (keepsDevices_withDevices hkg state).step hk fun _ _ => sameRoom_withDevices
  | none =>
    cases e with
    | factory => rfl
    | _ => cases hk

theorem foldl_step_withDevices [StillReads T] {es : List (Event T)}
    (h : Steps (Meeting (total (step V)) (Unrostered g)) d es d') :
    es.foldl (step V) (withDevices g state d) = withDevices g state d' := by
  induction h with
  | nil => rfl
  | cons hstep _ ih =>
    obtain ⟨rfl, he⟩ := hstep
    rw [List.foldl_cons, step_withDevices he]
    exact ih

/-- The device state of a group changes with a new roster only. -/
theorem deviceState_of_unrostered [StillReads T] {es : List (Event T)}
    (h : Steps (Meeting (total (step V)) (Unrostered g)) d es d') :
    d'.deviceState[g]? = d.deviceState[g]? := by
  have hrun : es.foldl (step V) (withDevices g d.deviceState[g]? d) =
      withDevices g d.deviceState[g]? d' := foldl_step_withDevices h
  have hd' : es.foldl (step V) d = d' :=
    (steps_total_iff.mp (h.mono fun _ _ _ hr => hr.1)).symm
  rw [withDevices_self, hd'] at hrun
  rw [hrun, getElem?_withDevices, if_pos rfl]

theorem allowedOf_of_unrostered {e : Event T} (hd : allowedOf d g = ∅)
    (hs : Meeting (total (step V)) (Unrostered g) d e d') : allowedOf d' g = ∅ := by
  obtain ⟨rfl, he⟩ := hs
  have heff := effect_step V d e
  revert heff
  generalize step V d e = d'
  intro heff
  cases heff with
  | @rostered k _ roster links revocations =>
    have hk : g ≠ k := by
      rintro rfl
      exact he roster links revocations rfl
    rwa [allowedOf, groups_rostered_of_ne hk]
  | left k =>
    by_cases hk : g = k
    · rw [hk, allowedOf_leave]
    · rwa [allowedOf, groups_leave_of_ne hk]
  | quiet _ ht => rwa [allowedOf_of_touched ht]
  | _ => exact hd

/-- The requests that read a group. -/
def IsRead (g : String) : Request → Prop
  | .status k | .peers k | .devices k | .poll k | .sharedFiles k _ _ | .seed k => k = g
  | _ => False

theorem read_withDevices {r : Request} (hr : IsRead g r) (hd : allowedOf d g = ∅)
    (hne : r ≠ .devices g) :
    (handleRequest V (withDevices g state d) r).1 = (handleRequest V d r).1 := by
  have hkeeps := keeps_withDevices (T := T) g g state
  have hplain : ∀ r : Request, r.group = g → ¬ ReadsDevices r →
      (handleRequest V (withDevices g state d) r).1 = (handleRequest V d r).1 := by
    rintro r rfl hplain
    rw [hkeeps.handleRequest (fun _ _ => sameRoom_withDevices) hplain]
    rfl
  cases r with
  | devices k => exact absurd (congrArg Request.devices hr) hne
  | peers k =>
    cases hr
    obtain ⟨connected, hpeers⟩ := exists_peers_eq (withDevices g state d) g
    obtain ⟨connected', hpeers'⟩ := exists_peers_eq d g
    have hallowed : allowedOf (withDevices g state d) g = ∅ := hd
    simp only [handleRequest, hpeers, hpeers', hallowed, hd]
    rfl
  | status k => exact hplain _ hr (by simp [ReadsDevices])
  | poll k => exact hplain _ hr (by simp [ReadsDevices])
  | sharedFiles k offset limit => exact hplain _ hr (by simp [ReadsDevices])
  | seed k => exact hplain _ hr (by simp [ReadsDevices])
  | _ => exact hr.elim

/-- A roster without a member that passes the gate. -/
def ListsNoMember (roster : Entries) : Prop :=
  ∀ e ∈ roster, minClusterRank ≤ roleRank e.2 → canonicalAddress e.1 = none

theorem devices_eq_nil_iff : (d.devices g).1 = [] ↔ ListsNoMember (rosterOf d g) := by
  obtain ⟨connected, hdevices⟩ := exists_devices_eq d g
  rw [hdevices, List.map_eq_nil_iff, rosterOf]
  cases d.deviceState[g]? with
  | none =>
    have hempty : (default : GroupDevices).roster = [] := rfl
    simp [ListsNoMember, hempty]
  | some state => exact deviceRoster_eq_nil_iff

/-- Without its device state a group without allowed addresses reads alike, but for the members
that `Devices` lists. -/
theorem reads_forget_iff (hd : allowedOf d g = ∅) :
    (∀ r, IsRead g r → (handleRequest V d r).1 = (handleRequest V (forget g d) r).1) ↔
      ListsNoMember (rosterOf d g) := by
  have hforget : ((forget g d).devices g).1 = [] := by
    rw [devices_eq_nil_iff, rosterOf, forget, getElem?_withDevices, if_pos rfl]
    exact fun e he => absurd he List.not_mem_nil
  have hdevices : (handleRequest V d (.devices g)).1 =
      (handleRequest V (forget g d) (.devices g)).1 ↔ ListsNoMember (rosterOf d g) := by
    rw [← devices_eq_nil_iff]
    simp only [handleRequest, hforget, Response.devices.injEq]
  constructor
  · exact fun h => hdevices.mp (h (.devices g) rfl)
  · intro h r hr
    by_cases hne : r = .devices g
    · rw [hne]
      exact hdevices.mpr h
    · exact (read_withDevices hr hd hne).symm

section NextRoster

variable {reg reg' : DeviceRegistry} {roster : Entries} {links : List DeviceLinkWire}
  {revocations : List RevocationWire}

/-- Within the cap an update takes nothing from the registry but its revocations. -/
theorem update_congr {links : List SignedDeviceLink} {revocations : List SignedRevocation}
    (hcap : WithinCap links revocations) (hrev : reg.revoked = reg'.revoked) :
    reg.update links revocations V = reg'.update links revocations V := by
  have h : ¬ (links.length > maxLinksPerUpdate ∨ revocations.length > maxLinksPerUpdate) := by
    simp only [WithinCap] at hcap
    omega
  simp only [update, if_neg h, hrev]

theorem update_eq_iff {links : List SignedDeviceLink} {revocations : List SignedRevocation}
    (hrev : reg.revoked = reg'.revoked) :
    (reg.update links revocations V).2 = (reg'.update links revocations V).2 ↔
      WithinCap links revocations ∨ reg.links = reg'.links := by
  by_cases hcap : WithinCap links revocations
  · simp only [hcap, true_or, iff_true]
    rw [update_congr hcap hrev]
  · rw [update_of_not_withinCap hcap, update_of_not_withinCap hcap]
    simp only [hcap, false_or]
    exact ⟨congrArg DeviceRegistry.links, fun h => DeviceRegistry.ext h hrev⟩

theorem update_fst_eq {links : List SignedDeviceLink} {revocations : List SignedRevocation}
    (hrev : reg.revoked = reg'.revoked) :
    (reg.update links revocations V).1 = (reg'.update links revocations V).1 := by
  by_cases hcap : WithinCap links revocations
  · rw [update_congr hcap hrev]
  · rw [update_of_not_withinCap hcap, update_of_not_withinCap hcap]

/-- A new roster replaces the device state of its group. -/
theorem rostered_withDevices {s : ClusterSession T}
    (h : registryAfter V (withDevices g state d) g links revocations =
      registryAfter V d g links revocations) :
    rostered V (withDevices g state d) g s roster links revocations =
      rostered V d g s roster links revocations := by
  have hinsert : ∀ x, (d.deviceState.alter g fun _ => state).insert g x =
      d.deviceState.insert g x := by
    intro x
    apply ExtTreeMap.ext_getElem?
    intro k
    by_cases hk : g = k
    · simp [hk]
    · simp [ExtTreeMap.getElem?_insert, ExtTreeMap.getElem?_alter, hk]
  simp only [rostered, h]
  simp only [withDevices, hinsert]

/-- A call that takes effect does the same on a daemon with other device state for the group,
exactly if it leaves the same registry. -/
theorem setRoster_withDevices_iff {evicted rejected : List String}
    (hreply : (handleRequest V d (.setRoster g roster links revocations)).1 =
      .reconciled evicted rejected)
    (hrev : (registryOf d g).revoked = (state.getD default).registry.revoked) :
    handleRequest V d (.setRoster g roster links revocations) =
        handleRequest V (withDevices g state d) (.setRoster g roster links revocations) ↔
      Fits links revocations ∨ (registryOf d g).links = (state.getD default).registry.links := by
  have hkeeps := keeps_withDevices (T := T) g g state
  obtain ⟨s, hg, hs⟩ : ∃ s, d.ensureGroupAllowed g = .ok () ∧
      d.ensureSession g = .ok (s, d.setSession g s) := by
    cases hg : d.ensureGroupAllowed g with
    | error e => simp [handleRequest, setRosterWithDevices, hg] at hreply
    | ok _ =>
      obtain ⟨e, he⟩ | ⟨s, _, hs⟩ := ensureSession_cases d g
      · simp [handleRequest, setRosterWithDevices, hg, he] at hreply
      · exact ⟨s, rfl, hs⟩
  have hg' : (withDevices g state d).ensureGroupAllowed g = .ok () := by
    rw [hkeeps.ensureGroupAllowed, hg]
  have hs' : (withDevices g state d).ensureSession g =
      .ok (s, (withDevices g state d).setSession g s) := by
    rw [hkeeps.ensureSession sameRoom_withDevices hg, hs]
    rfl
  rw [handleRequest_setRoster_of_ensureSession V hg hs,
    handleRequest_setRoster_of_ensureSession V hg' hs']
  have hafter : registryAfter V (withDevices g state d) g links revocations =
      (state.getD default).registry.update (links.map DeviceLinkWire.toSigned)
        (revocations.map RevocationWire.toSigned) V := by
    rw [registryAfter, registryOf_withDevices]
  rw [Fits, ← update_eq_iff (V := V) hrev]
  constructor
  · intro h
    have hreg := congrArg (fun x => registryOf x.2 g) h
    simp only [registryOf_rostered] at hreg
    rwa [hafter] at hreg
  · intro h
    have hupdate : registryAfter V (withDevices g state d) g links revocations =
        registryAfter V d g links revocations := by
      rw [hafter]
      exact Prod.ext (update_fst_eq hrev).symm h.symm
    rw [rostered_withDevices hupdate, hupdate]

end NextRoster

/-- After a leave and until the next roster, a group reads like one that the daemon has never seen
exactly if its last roster lists no member that passes the gate, and the next roster takes nothing
but the revocations from before the leave exactly if it is within the cap or no link was on
file. -/
theorem left_group_reads_unknown_iff [StillReads T] {es' : List (Event T)}
    (h : Steps (Meeting (total (step V)) (Unrostered g)) (d.leave g) es' d') :
    ((∀ r, IsRead g r → (handleRequest V d' r).1 =
        (handleRequest V (es'.foldl (step V) (forget g (d.leave g))) r).1) ↔
      ListsNoMember (rosterOf d g)) ∧
      ∀ roster links revocations evicted rejected,
        (handleRequest V d' (.setRoster g roster links revocations)).1 =
          .reconciled evicted rejected →
        (handleRequest V d' (.setRoster g roster links revocations) =
            handleRequest V (es'.foldl (step V) (keepRevocations g (d.leave g)))
              (.setRoster g roster links revocations) ↔
          Fits links revocations ∨ (registryOf d g).links = ∅) := by
  have hstate : d'.deviceState[g]? = (d.leave g).deviceState[g]? := deviceState_of_unrostered h
  change d'.deviceState[g]? = d.deviceState[g]? at hstate
  have hroster : rosterOf d' g = rosterOf d g := by rw [rosterOf, hstate, rosterOf]
  have hregistry : registryOf d' g = registryOf d g := by rw [registryOf, hstate, registryOf]
  have hallowed : allowedOf d' g = ∅ :=
    h.invariant (I := fun d => allowedOf d g = ∅) (fun _ _ _ => allowedOf_of_unrostered)
      allowedOf_leave
  constructor
  · rw [forget, foldl_step_withDevices h, ← hroster]
    exact reads_forget_iff hallowed
  · intro roster links revocations evicted rejected hreply
    rw [keepRevocations, foldl_step_withDevices h, ← hregistry]
    apply setRoster_withDevices_iff hreply
    rw [hregistry]
    rfl

section Samples

/-- A node once its group has a roster of one entry. -/
def oneEntry (role : String) : ClusterDaemon InProcessTransport :=
  step plainVerifier Admission.nodeDaemon (.request (.setRoster "group" [(m1, role)] [] []))

theorem rosterOf_oneEntry (role : String) : rosterOf (oneEntry role) "group" = [(m1, role)] := by
  obtain ⟨_, _, hreply⟩ := handleRequest_nodeDaemon plainVerifier [(m1, role)] [] []
  rw [oneEntry, step, hreply, rosterOf_rostered]

theorem left_group_reads_unknown_iff_sample :
    (handleRequest plainVerifier (step plainVerifier ((oneEntry "guest").leave "group")
        (.request (.join "group"))) (.devices "group")).1 =
      (handleRequest plainVerifier (step plainVerifier (forget "group"
        ((oneEntry "guest").leave "group")) (.request (.join "group"))) (.devices "group")).1 := by
  refine (left_group_reads_unknown_iff
    (.cons ⟨rfl, fun _ _ _ h => by cases h⟩ (.nil _))).1.mpr ?_ (.devices "group") rfl
  rw [rosterOf_oneEntry]
  intro e he hr
  rw [List.mem_singleton.mp he] at hr
  exact absurd hr (by decide)

/-- A group with a member still lists it after a leave. -/
theorem left_group_lists_its_members :
    ¬ ∀ (V : LinkVerifier) (d₀ d d' : ClusterDaemon InProcessTransport) g es es',
      Initial d₀ → Steps (total (step V)) d₀ es d →
        Steps (Meeting (total (step V)) (Unrostered g)) (d.leave g) es' d' →
        ∀ r, IsRead g r → (handleRequest V d' r).1 =
          (handleRequest V (es'.foldl (step V) (forget g (d.leave g))) r).1 := by
  intro h
  have hreads := h plainVerifier Admission.nodeDaemon (oneEntry "member") _ "group" _ []
    (initial_withFactory _ _) (Steps.single rfl) (.nil _)
  have hlists : ListsNoMember (rosterOf ((oneEntry "member").leave "group") "group") :=
    (reads_forget_iff allowedOf_leave).mp hreads
  have hroster : rosterOf ((oneEntry "member").leave "group") "group" = [(m1, "member")] :=
    rosterOf_oneEntry "member"
  rw [hroster] at hlists
  have hnone := hlists _ List.mem_cons_self (by decide)
  have hm1 : canonicalAddress m1 = some m1 := (canonical_address rfl rfl).canonicalAddress
  cases hm1.symm.trans hnone

end Samples

end CitrateCluster.Leaving
