import CitrateCluster.StateWrites

namespace CitrateCluster.Locality

open Std (ExtTreeMap ExtTreeSet)
open Text Runs Roster Collections Device Registry Transport Session Daemon ClusterDaemon Ipc
  DaemonStep GroupState StateWrites

variable {T : Type} {V : LinkVerifier} {d d' : ClusterDaemon T} {g k : String}
  {φ : ClusterDaemon T → ClusterDaemon T}

/-- A map of daemons that shows one group all that its requests read and write, apart from the
device state. -/
structure Keeps (φ : ClusterDaemon T → ClusterDaemon T) (g : String) : Prop where
  config : ∀ d, SameConfig d (φ d)
  groups : ∀ d, (φ d).groups[g]? = d.groups[g]?
  sharedFiles : ∀ d, (φ d).sharedFiles[g]? = d.sharedFiles[g]?
  session : ∀ d s, φ (d.setSession g s) = (φ d).setSession g s
  share : ∀ d set, φ { d with sharedFiles := d.sharedFiles.insert g set } =
    { φ d with sharedFiles := (φ d).sharedFiles.insert g set }
  leave : ∀ d, φ (d.leave g) = (φ d).leave g

/-- A map of daemons that shows one group its device state as well. -/
structure KeepsDevices (φ : ClusterDaemon T → ClusterDaemon T) (g : String) : Prop
    extends Keeps φ g where
  deviceState : ∀ d, (φ d).deviceState[g]? = d.deviceState[g]?
  record : ∀ d state, φ { d with deviceState := d.deviceState.insert g state } =
    { φ d with deviceState := (φ d).deviceState.insert g state }

/-- The group cap decides alike on either side of the map, if it has to decide. -/
def SameRoom (φ : ClusterDaemon T → ClusterDaemon T) (d : ClusterDaemon T) (g : String) : Prop :=
  d.groups[g]? = none → (trim g).isEmpty = false → d.ensureGroupAllowed g = .ok () →
    (maxGroups ≤ (φ d).groups.size ↔ maxGroups ≤ d.groups.size)

theorem Keeps.ensureGroupAllowed (h : Keeps φ g) (d : ClusterDaemon T) :
    (φ d).ensureGroupAllowed g = d.ensureGroupAllowed g := by
  simp only [ClusterDaemon.ensureGroupAllowed, (h.config d).singleGroup]

theorem Keeps.ensureSession (h : Keeps φ g) (hroom : SameRoom φ d g)
    (hg : d.ensureGroupAllowed g = .ok ()) :
    (φ d).ensureSession g = (d.ensureSession g).map (Prod.map id φ) := by
  simp only [ClusterDaemon.ensureSession, h.groups, (h.config d).makeTransport]
  cases hs : d.groups[g]? with
  | some s => rfl
  | none =>
    cases hn : (trim g).isEmpty with
    | true => rfl
    | false =>
      simp only [Bool.false_eq_true, if_false, ge_iff_le, hroom hs hn hg]
      split
      · rfl
      · cases d.makeTransport g with
        | error e => rfl
        | ok transport => simp only [Except.map, Prod.map, id, h.session]

theorem Keeps.join (h : Keeps φ g) (hroom : SameRoom φ d g) :
    (φ d).join g = Prod.map id φ (d.join g) := by
  simp only [ClusterDaemon.join, h.ensureGroupAllowed]
  cases hg : d.ensureGroupAllowed g with
  | error e => rfl
  | ok _ =>
    simp only [h.ensureSession hroom hg]
    cases d.ensureSession g with
    | error e => rfl
    | ok x => rfl

section Reads

variable [MeshTransport T]

theorem Keeps.syncAdmission (h : Keeps φ g) (d : ClusterDaemon T) :
    (φ d).syncAdmission g = φ (d.syncAdmission g) := by
  simp only [ClusterDaemon.syncAdmission, h.groups]
  split
  · rw [h.session]
  · rfl

theorem Keeps.readConnected (h : Keeps φ g) (d : ClusterDaemon T) :
    (φ d).readConnected g = Prod.map id φ (d.readConnected g) := by
  simp only [ClusterDaemon.readConnected, h.groups]
  split
  · rfl
  · simp only [Prod.map, id, h.session]

theorem Keeps.drainIntoShared (h : Keeps φ g) (d : ClusterDaemon T) :
    (φ d).drainIntoShared g = Prod.map id φ (d.drainIntoShared g) := by
  simp only [ClusterDaemon.drainIntoShared, h.groups]
  split
  · rfl
  · split
    · simp only [Prod.map, id, h.session]
    · simp only [Prod.map, id, ← h.session, h.sharedFiles, h.share]

theorem Keeps.poll (h : Keeps φ g) (d : ClusterDaemon T) :
    (φ d).poll g = Prod.map id φ (d.poll g) := by
  simp only [ClusterDaemon.poll, h.syncAdmission, h.drainIntoShared]

theorem Keeps.sharedFilesPage (h : Keeps φ g) (d : ClusterDaemon T) (offset limit : Nat) :
    (φ d).sharedFilesPage g offset limit = Prod.map id φ (d.sharedFilesPage g offset limit) := by
  simp only [ClusterDaemon.sharedFilesPage, h.drainIntoShared, Prod.map, id, h.sharedFiles]
  split <;> rfl

theorem Keeps.status (h : Keeps φ g) (d : ClusterDaemon T) :
    (φ d).status g = Prod.map id φ (d.status g) := by
  simp only [ClusterDaemon.status, h.syncAdmission, h.drainIntoShared, Prod.map, id, h.groups,
    h.sharedFiles, h.readConnected]
  split <;> rfl

theorem Keeps.seed (h : Keeps φ g) (d : ClusterDaemon T) :
    (φ d).seed g = Prod.map id φ (d.seed g) := by
  simp only [ClusterDaemon.seed, h.groups, ← h.session]
  split
  · rfl
  · split
    · rfl
    · split
      · rfl
      · split <;> rfl

theorem Keeps.addSeed (h : Keeps φ g) (d : ClusterDaemon T) (text : String) :
    (φ d).addSeed g text = Prod.map id φ (d.addSeed g text) := by
  simp only [ClusterDaemon.addSeed, h.groups, ← h.session]
  split
  · rfl
  · split
    · rfl
    · split <;> rfl

theorem Keeps.shareFile (h : Keeps φ g) (d : ClusterDaemon T) (cid : String) :
    (φ d).shareFile g cid = Prod.map id φ (d.shareFile g cid) := by
  simp only [ClusterDaemon.shareFile, h.groups, h.sharedFiles, (h.config d).selfAddress]
  split
  · rfl
  · split
    · rfl
    · split
      · rfl
      · simp only [Prod.map, id, ← h.session, h.share]

theorem KeepsDevices.peers (h : KeepsDevices φ g) (d : ClusterDaemon T) :
    (φ d).peers g = Prod.map id φ (d.peers g) := by
  simp only [ClusterDaemon.peers, h.syncAdmission, h.groups, h.readConnected, h.deviceState]
  split <;> rfl

theorem KeepsDevices.devices (h : KeepsDevices φ g) (d : ClusterDaemon T) :
    (φ d).devices g = Prod.map id φ (d.devices g) := by
  simp only [ClusterDaemon.devices, h.syncAdmission, h.deviceState, h.readConnected]
  split <;> rfl

end Reads

section Writes

variable [MeshTransport T]

theorem Keeps.applyRoster (h : Keeps φ g) {s : ClusterSession T} (hs : d.groups[g]? = some s)
    (roster : Entries) : (φ d).applyRoster g roster = Prod.map id φ (d.applyRoster g roster) := by
  have hs' : (φ d).groups[g]? = some s := (h.groups d).trans hs
  rw [applyRoster_of_getElem? hs, applyRoster_of_getElem? hs', Prod.map, id, h.session]

theorem KeepsDevices.setRosterWithDevices (h : KeepsDevices φ g) (hroom : SameRoom φ d g)
    (roster : Entries) (links : List DeviceLinkWire) (revocations : List RevocationWire) :
    (φ d).setRosterWithDevices V g roster links revocations =
      Prod.map id φ (d.setRosterWithDevices V g roster links revocations) := by
  simp only [ClusterDaemon.setRosterWithDevices, h.ensureGroupAllowed]
  cases hg : d.ensureGroupAllowed g with
  | error e => rfl
  | ok _ =>
    simp only [h.ensureSession hroom hg]
    cases hs : d.ensureSession g with
    | error e => rfl
    | ok x =>
      obtain ⟨s, d₁⟩ := x
      obtain ⟨_, rfl⟩ := opened_of_ensureSession hs
      simp only [Except.map, Prod.map, id, h.deviceState, ← h.record]
      rw [h.applyRoster (s := s) (by simp [setSession])]
      rfl

/-- The group that an event starts a session for, unless the group has one. -/
def startsSession : Event T → Option String
  | .request (.setRoster g _ _ _) | .request (.join g) | .admitPeer g _ _ => some g
  | _ => none

/-- The requests whose handling reads or writes the device state. -/
def ReadsDevices : Request → Prop
  | .setRoster _ _ _ _ | .devices _ | .peers _ => True
  | _ => False

theorem Keeps.handleRequest {r : Request} (h : Keeps φ r.group)
    (hroom : ∀ g, startsSession (.request r : Event T) = some g → SameRoom φ d g)
    (hr : ¬ ReadsDevices r) :
    handleRequest V (φ d) r = Prod.map id φ (handleRequest V d r) := by
  cases r <;> dsimp only [Request.group] at h
  case setRoster => exact absurd trivial hr
  case devices => exact absurd trivial hr
  case peers => exact absurd trivial hr
  case join g =>
    simp only [Ipc.handleRequest, h.join (hroom g rfl)]
    rcases d.join g with ⟨_ | _, _⟩ <;> rfl
  case leave g => simp only [Ipc.handleRequest, h.leave, Prod.map, id]
  case status g => simp only [Ipc.handleRequest, h.status, Prod.map, id]
  case shareFile g cid =>
    simp only [Ipc.handleRequest, h.shareFile]
    rcases d.shareFile g cid with ⟨_ | _, _⟩ <;> rfl
  case poll g => simp only [Ipc.handleRequest, h.poll, Prod.map, id]
  case sharedFiles g offset limit => simp only [Ipc.handleRequest, h.sharedFilesPage, Prod.map, id]
  case seed g =>
    simp only [Ipc.handleRequest, h.seed]
    rcases d.seed g with ⟨_ | _, _⟩ <;> rfl
  case addSeed g text =>
    simp only [Ipc.handleRequest, h.addSeed]
    rcases d.addSeed g text with ⟨_ | _, _⟩ <;> rfl

theorem KeepsDevices.handleRequest {r : Request} (h : KeepsDevices φ r.group)
    (hroom : ∀ g, startsSession (.request r : Event T) = some g → SameRoom φ d g) :
    handleRequest V (φ d) r = Prod.map id φ (handleRequest V d r) := by
  by_cases hr : ReadsDevices r
  · cases r <;> dsimp only [Request.group] at h
    case setRoster g roster links revocations =>
      simp only [Ipc.handleRequest, h.setRosterWithDevices (hroom g rfl)]
      rcases d.setRosterWithDevices V g roster links revocations with ⟨_ | _, _⟩ <;> rfl
    case devices g => simp only [Ipc.handleRequest, h.devices, Prod.map, id]
    case peers g => simp only [Ipc.handleRequest, h.peers, Prod.map, id]
    all_goals exact hr.elim
  · exact h.toKeeps.handleRequest hroom hr

theorem Keeps.admitPeer (h : Keeps φ g) (hroom : SameRoom φ d g) (address role : String) :
    (φ d).admitPeer g address role = Prod.map id φ (d.admitPeer g address role) := by
  simp only [ClusterDaemon.admitPeer, h.ensureGroupAllowed]
  cases hg : d.ensureGroupAllowed g with
  | error e => rfl
  | ok _ =>
    simp only [h.ensureSession hroom hg]
    cases d.ensureSession g with
    | error e => rfl
    | ok x => simp only [Except.map, Prod.map, id, h.session]

theorem Keeps.step {e : Event T} (h : Keeps φ g) (he : eventGroup e = some g)
    (hroom : ∀ g, startsSession e = some g → SameRoom φ d g)
    (hr : ∀ r, e = .request r → ¬ ReadsDevices r) : step V (φ d) e = φ (step V d e) := by
  cases e with
  | request r =>
    cases he
    rw [Ipc.step, h.handleRequest hroom (hr r rfl), Ipc.step, Prod.map]
  | admitPeer g address role =>
    cases he
    simp only [Ipc.step, h.admitPeer (hroom g rfl), Prod.map]
  | dropPeer g address =>
    cases he
    simp only [Ipc.step, ClusterDaemon.dropPeer, h.groups]
    split
    · rw [h.session]
    · rfl
  | transport g f =>
    cases he
    simp only [Ipc.step, h.groups]
    split
    · rw [h.session]
    · rfl
  | factory => cases he

theorem KeepsDevices.step {e : Event T} (h : KeepsDevices φ g) (he : eventGroup e = some g)
    (hroom : ∀ g, startsSession e = some g → SameRoom φ d g) :
    step V (φ d) e = φ (step V d e) := by
  cases e with
  | request r =>
    cases he
    rw [Ipc.step, h.handleRequest hroom, Ipc.step, Prod.map]
  | _ => exact h.toKeeps.step he hroom (by simp)

end Writes

section Focus

/-- What a map holds under one key. -/
def only {β : Type} (m : ExtTreeMap String β) (k : String) : ExtTreeMap String β :=
  match m[k]? with
  | some b => ExtTreeMap.insert ∅ k b
  | none => ∅

variable {β : Type} {m : ExtTreeMap String β}

theorem getElem?_only (a : String) : (only m k)[a]? = if a = k then m[k]? else none := by
  rw [only]
  by_cases ha : a = k
  · subst ha
    cases m[a]? <;> simp
  · cases m[k]? <;> simp [ha, Ne.symm ha]

theorem only_insert (b : β) : only (m.insert k b) k = (only m k).insert k b := by
  apply ExtTreeMap.ext_getElem?
  intro a
  by_cases ha : k = a
  · simp [getElem?_only, ha]
  · simp [getElem?_only, ExtTreeMap.getElem?_insert, ha, Ne.symm ha]

theorem only_erase : only (m.erase k) k = (only m k).erase k := by
  apply ExtTreeMap.ext_getElem?
  intro a
  by_cases ha : k = a <;> simp [getElem?_only, ExtTreeMap.getElem?_erase, ha, eq_comm]

theorem size_only_le : (only m k).size ≤ 1 := by
  rw [only]
  split
  · exact ExtTreeMap.size_insert_le
  · exact Nat.zero_le 1

/-- The part of a daemon that belongs to one group. -/
def focus (k : String) (d : ClusterDaemon T) : ClusterDaemon T :=
  { d with
    groups := only d.groups k
    sharedFiles := only d.sharedFiles k
    deviceState := only d.deviceState k }

theorem keepsDevices_focus (k : String) : KeepsDevices (focus k : ClusterDaemon T → _) k where
  config _ := ⟨rfl, rfl, rfl⟩
  groups d := by simp [focus, getElem?_only]
  sharedFiles d := by simp [focus, getElem?_only]
  session d s := by simp only [focus, setSession, only_insert]
  share d set := by simp only [focus, only_insert]
  leave d := by simp only [focus, ClusterDaemon.leave, only_erase]
  deviceState d := by simp [focus, getElem?_only]
  record d state := by simp only [focus, only_insert]

theorem focus_congr (h : SameAt k d d') (hc : SameConfig d d') : focus k d' = focus k d := by
  simp only [focus, only, h.groups, h.sharedFiles, h.deviceState, hc.selfAddress,
    hc.makeTransport, hc.singleGroup]

theorem focus_of_initial (hd : Initial d) : focus k d = d := by
  obtain ⟨selfAddress, makeTransport, singleGroup, groups, sharedFiles, deviceState⟩ := d
  obtain ⟨rfl, rfl, rfl⟩ := hd
  rfl

end Focus

section Isolation

variable [MeshTransport T]

/-- The cap on groups refuses an event: it would start a session, and there is no room for one. -/
def CapRefuses (d : ClusterDaemon T) (e : Event T) : Prop :=
  ∃ g, startsSession e = some g ∧ d.ensureGroupAllowed g = .ok () ∧ d.groups[g]? = none ∧
    (trim g).isEmpty = false ∧ maxGroups ≤ d.groups.size

/-- An event that is addressed to the group, or to none. -/
def Concerns (k : String) (e : Event T) : Prop := ∀ g, eventGroup e = some g → g = k

instance (k : String) (e : Event T) : Decidable (Concerns k e) :=
  match h : eventGroup e with
  | none => .isTrue (by simp [Concerns, h])
  | some g => decidable_of_iff (g = k) (by simp [Concerns, h])

/-- The answers to the requests on one group, in a run of events. -/
def answers (V : LinkVerifier) (k : String) : ClusterDaemon T → List (Event T) → List Response
  | _, [] => []
  | d, e :: es =>
    match e with
    | .request r =>
      if r.group = k then (handleRequest V d r).1 :: answers V k (step V d e) es
      else answers V k (step V d e) es
    | _ => answers V k (step V d e) es

omit [MeshTransport T] in
theorem sameRoom_focus {e : Event T} (h : ¬ CapRefuses d e) (hg : startsSession e = some g) :
    SameRoom (focus k) d g := by
  intro hs hn ha
  have hsize : (focus k d).groups.size ≤ 1 := size_only_le
  have hroom : ¬ maxGroups ≤ d.groups.size := fun hc => h ⟨g, hg, ha, hs, hn, hc⟩
  simp only [maxGroups] at *
  omega

theorem focus_step_of_not_concerns {e : Event T} (he : ¬ Concerns k e) :
    focus k (step V d e) = focus k d := by
  simp only [Concerns, not_forall] at he
  obtain ⟨g, hg, hne⟩ := he
  have hw : Writes V g d (step V d e) := writes_step d hg
  exact focus_congr (sameAt_writes hw (Ne.symm hne)) (sameConfig_writes hw)

theorem focus_step_of_concerns {e : Event T} (he : Concerns k e) (hcap : ¬ CapRefuses d e) :
    step V (focus k d) e = focus k (step V d e) := by
  cases hg : eventGroup e with
  | some g =>
    obtain rfl := he g hg
    exact (keepsDevices_focus g).step hg fun _ hs => sameRoom_focus hcap hs
  | none =>
    cases e with
    | factory => rfl
    | _ => cases hg

/-- What a group answers depends on its own part of the daemon and on the events that concern it. -/
theorem answers_eq_focus {es : List (Event T)}
    (h : Steps (Meeting (total (step V)) fun d e => ¬ CapRefuses d e) d es d') :
    answers V k d es = answers V k (focus k d) (es.filter fun e => decide (Concerns k e)) := by
  induction h with
  | nil => rfl
  | @cons d d₁ _ e es hstep _ ih =>
    obtain ⟨rfl, hcap⟩ := hstep
    by_cases he : Concerns k e
    · rw [List.filter_cons_of_pos (by simpa using he)]
      have hrest := focus_step_of_concerns (V := V) he hcap
      cases e with
      | request r =>
        by_cases hr : r.group = k
        · subst hr
          have hanswer : (handleRequest V (focus r.group d) r).1 = (handleRequest V d r).1 := by
            rw [(keepsDevices_focus r.group).handleRequest fun _ hs => sameRoom_focus hcap hs]
            rfl
          simp only [answers, if_true, hanswer, hrest, ih]
        · exact absurd (he _ rfl) hr
      | _ => simp only [answers, hrest, ih]
    · rw [List.filter_cons_of_neg (by simpa using he)]
      have hrest := focus_step_of_not_concerns (V := V) (d := d) he
      rw [← hrest, ← ih]
      cases e with
      | request r =>
        have hr : r.group ≠ k := fun hk => he fun g hg => by cases hg; exact hk
        simp only [answers, if_neg hr]
      | _ => rfl

end Isolation

/-- No event addressed to one group changes anything of another, so the answers to the requests on
a group are those of the run without the events addressed to other groups, as long as the cap on
groups refuses none. A fresh daemon has room for the one group in that run. -/
theorem groups_are_isolated [MeshTransport T] (V : LinkVerifier) :
    (∀ (d : ClusterDaemon T) e g k, eventGroup e = some g → k ≠ g → SameAt k d (step V d e)) ∧
      (∀ (d d₁ d₂ : ClusterDaemon T) es k,
        Steps (Meeting (total (step V)) fun d e => ¬ CapRefuses d e) d es d₁ →
        Steps (Meeting (total (step V)) fun d e => ¬ CapRefuses d e) d
          (es.filter fun e => decide (Concerns k e)) d₂ →
        answers V k d es = answers V k d (es.filter fun e => decide (Concerns k e))) ∧
      ∀ (d d₁ : ClusterDaemon T) es k, Initial d →
        Steps (Meeting (total (step V)) fun d e => ¬ CapRefuses d e) d es d₁ →
        answers V k d es = answers V k d (es.filter fun e => decide (Concerns k e)) := by
  refine ⟨fun d e g k he hk => sameAt_writes (writes_step d he) hk,
    fun d d₁ d₂ es k hes hfiltered => ?_, fun d d₁ es k hd hes => ?_⟩
  · rw [answers_eq_focus hes, answers_eq_focus hfiltered, List.filter_filter]
    simp only [Bool.and_self]
  · rw [answers_eq_focus hes, focus_of_initial hd]

/-- A second group is served beside the first. -/
theorem groups_are_isolated_sample :
    answers plainVerifier "group" Admission.nodeDaemon
        [.request (.setRoster "group" [(m1, "member")] [] []), .request (.join "other"),
          .request (.peers "group")] =
      answers plainVerifier "group" Admission.nodeDaemon
        [.request (.setRoster "group" [(m1, "member")] [] []), .request (.peers "group")] := by
  have hcap : ∀ (d : ClusterDaemon InProcessTransport) e, d.groups.size < maxGroups →
      ¬ CapRefuses d e := by
    rintro d e hsize ⟨g, _, _, _, _, hfull⟩
    exact absurd hsize (Nat.not_lt.mpr hfull)
  have hroster : (step plainVerifier Admission.nodeDaemon
      (.request (.setRoster "group" [(m1, "member")] [] []))).groups.size < maxGroups := by
    decide +kernel
  have hjoin : (step plainVerifier (step plainVerifier Admission.nodeDaemon
      (.request (.setRoster "group" [(m1, "member")] [] []))) (.request (.join "other"))).groups.size
        < maxGroups := by
    decide +kernel
  exact (groups_are_isolated plainVerifier).2.2 Admission.nodeDaemon _
    [.request (.setRoster "group" [(m1, "member")] [] []), .request (.join "other"),
      .request (.peers "group")] "group" (initial_withFactory _ _)
    (.cons ⟨rfl, hcap _ _ (by decide)⟩ (.cons ⟨rfl, hcap _ _ hroster⟩
      (.cons ⟨rfl, hcap _ _ hjoin⟩ (.nil _))))

end CitrateCluster.Locality
