import CitrateCluster.GroupEffect
import CitrateCluster.Simulation

namespace CitrateCluster.ClusterAdmission

open Std (ExtTreeMap ExtTreeSet)
open CitrateCluster.Membership Runs Simulation Roster Collections Device Registry EffectiveRoster
  Transport Session Daemon ClusterDaemon Ipc DaemonStep Admission
  GroupState StateWrites GroupEffect

section Model

variable {P : Type}

/-- The state of the admission model: the role-gated allowed set and the meshed peers. -/
@[ext]
structure State (P : Type) where
  allowed : Set P
  admitted : Set P

inductive Action (P : Type) where
  | join (p : P)
  | leave (p : P)
  | reconcile (na : Set P)

/-- The actions of single peers. -/
def Action.IsPeer : Action P → Prop
  | reconcile _ => False
  | _ => True

def Init (s : State P) : Prop := s.admitted = ∅

inductive Next : State P → Action P → State P → Prop where
  | join {s : State P} {p : P} (h : p ∈ s.allowed) (hn : p ∉ s.admitted) :
      Next s (.join p) { s with admitted := insert p s.admitted }
  | leave {s : State P} {p : P} (h : p ∈ s.admitted) :
      Next s (.leave p) { s with admitted := s.admitted \ {p} }
  | reconcile (s : State P) (na : Set P) : Next s (.reconcile na) ⟨na, s.admitted ∩ na⟩

def AdmittedSubsetAllowed (s : State P) : Prop := s.admitted ⊆ s.allowed

theorem AdmittedSubsetAllowed.step {s t : State P} {a : Action P} (h : AdmittedSubsetAllowed s)
    (hs : Next s a t) : AdmittedSubsetAllowed t := by
  cases hs with
  | join hp => exact Set.insert_subset hp h
  | leave => exact Set.sdiff_subset.trans h
  | reconcile => exact Set.inter_subset_right

theorem admittedSubsetAllowed {s t : State P} {acts : List (Action P)} (hs : Init s)
    (h : Steps Next s acts t) : AdmittedSubsetAllowed t :=
  h.invariant (fun _ _ _ => .step) (by rw [AdmittedSubsetAllowed, hs]; exact Set.empty_subset _)

/-- Peers that join and leave lead from one admitted set to any other that is allowed. -/
theorem leads_peers {s t : State P} (hallowed : t.allowed = s.allowed)
    (ht : AdmittedSubsetAllowed t) (hs : s.admitted.Finite) (hf : t.admitted.Finite) :
    Leads Next Action.IsPeer s (· = t) := by
  refine (leads_exchange (fun A u => u = ⟨s.allowed, A⟩) (· ∈ s.allowed) ?_ ?_ hs hf
    (fun p hp => hallowed ▸ ht hp) rfl).mono ?_
  · rintro A p _ rfl hn hp
    exact .single (a := .join p) trivial (.join hp hn) rfl
  · rintro A p _ rfl hp
    exact .single (a := .leave p) trivial (.leave hp) rfl
  · rintro _ rfl
    rw [← hallowed]

end Model

section Refinement

variable {T : Type} {V : LinkVerifier} {d d' : ClusterDaemon T} {g : String}

def stateOf (m : ClusterMembership) : State String := ⟨{a | a ∈ m.allowed}, {a | a ∈ m.admitted}⟩

/-- What the model sees of a group: nobody, unless the daemon has a session of it. -/
def view (g : String) (d : ClusterDaemon T) : State String :=
  match d.groups[g]? with
  | some s => stateOf s.membership
  | none => ⟨∅, ∅⟩

theorem stateOf_new : stateOf (.new []) = ⟨∅, ∅⟩ := by
  ext a
  · simp [stateOf, ClusterMembership.new, mem_allowedSet]
  · simp [stateOf, ClusterMembership.new]

theorem view_of_opened {s : ClusterSession T} (h : Opened d g s) :
    view g d = stateOf s.membership := by
  obtain h | ⟨h, transport, _, rfl⟩ := h
  · rw [view, h]
  · rw [view, h, ClusterSession.new, stateOf_new]

theorem view_congr (h : d'.groups[g]? = d.groups[g]?) : view g d' = view g d := by
  rw [view, h, view]

theorem next_reconcile (m : ClusterMembership) (roster : Entries) :
    Next (stateOf m) (.reconcile {a | a ∈ allowedSet roster}) (stateOf (m.reconcile roster).2) := by
  have h : stateOf (m.reconcile roster).2 =
      ⟨{a | a ∈ allowedSet roster}, (stateOf m).admitted ∩ {a | a ∈ allowedSet roster}⟩ := by
    ext a
    · rfl
    · exact ClusterMembership.mem_reconcile_admitted
  rw [h]
  exact .reconcile _ _

variable [MeshTransport T]

/-- A new roster of the group that is not refused is one `Reconcile` with the addresses that the
roster and the registry allow, and leaving the group is one with nobody; apart from that its peers
join and leave. -/
def explains (V : LinkVerifier) (g : String) :
    ClusterDaemon T → Event T → ClusterDaemon T → List (Action String) → Prop :=
  ExplainedBy V g Action.IsPeer
    (fun roster registry acts =>
      acts = [.reconcile {a | a ∈ allowedSet (effectiveRoster roster registry)}])
    (· = [.reconcile ∅])

/-- A daemon whose sessions are safe, and what the model sees of one of its groups. -/
structure Seen (g : String) (d : ClusterDaemon T) (s : State String) : Prop where
  safe : AllSessions (fun s => s.membership.Safe) d
  view : s = view g d

/-- Each event of the daemon is matched by the actions of the model that explain it. -/
theorem simulates (V : LinkVerifier) (g : String) :
    Simulates (total (step V)) Next (Seen (T := T) g) (explains V g) := by
  rintro d e d' _ ⟨hsafe, rfl⟩ hs
  have hsafe' := safe_step hsafe hs
  obtain rfl := hs
  refine (?_ : ∃ acts, explains V g d e (step V d e) acts ∧
    Steps Next (view g d) acts (view g (step V d e))).imp fun acts h => ⟨_, h.1, h.2, hsafe', rfl⟩
  have heff := onGroup_step V g d e
  generalize step V d e = d' at heff hsafe'
  cases heff with
  | apart he h => exact ⟨[], .apart he, view_congr h.groups ▸ .nil _⟩
  | refused h => exact ⟨[], .refused h, .nil _⟩
  | @rostered s roster links revocations _ _ hopen h =>
    have hview : view g (rostered V d g s roster links revocations) = stateOf
        (s.membership.reconcile
          (effectiveRoster roster (registryAfter V d g links revocations).2)).2 := by
      simp only [view, groups_rostered, ClusterSession.applyRoster_membership]
    rw [view_of_opened hopen, hview]
    exact ⟨_, .rostered h rfl, .single (next_reconcile _ _)⟩
  | left =>
    have hview : view g (d.leave g) = ⟨∅, (view g d).admitted ∩ ∅⟩ := by
      simp [view, ClusterDaemon.leave]
    rw [hview]
    exact ⟨_, .left rfl, .single (.reconcile _ _)⟩
  | unchanged he hgroup hg =>
    exact ⟨[], .quiet he hgroup (by simp), view_congr hg ▸ .nil _⟩
  | @worked _ _ s ops he hgroup hopen _ hg =>
    have hview : view g d' = stateOf (SessionOp.runAll ops s).membership := by
      rw [view, hg]
    rw [view_of_opened hopen, hview]
    obtain ⟨acts, _, hacts, hsteps, rfl⟩ := leads_peers (s := stateOf s.membership)
      (t := stateOf (SessionOp.runAll ops s).membership)
      (by simp only [stateOf, SessionOp.runAll_allowed]) (hsafe' g _ hg).admitted_allowed
      (finite_addressSet _) (finite_addressSet _)
    exact ⟨acts, .quiet he hgroup hacts, hsteps⟩

/-- Every run of the daemon, whatever its transports do, is for each group a run of the admission
model from its initial states, state by state: a new roster is one `Reconcile`, in which the peers
that are no longer allowed leave, and nothing else changes the allowed set. -/
theorem daemon_refines_admission {es : List (Event T)} (hd : Initial d)
    (h : Steps (total (step V)) d es d') (g : String) :
    Init (view g d) ∧ Lockstep (total (step V)) Next (fun d s => s = view g d) (explains V g)
      d (view g d) es d' (view g d') := by
  obtain ⟨s, hlock⟩ := (simulates V g).lockstep h ⟨allSessions_of_initial hd, rfl⟩
  obtain rfl := hlock.last.view
  exact ⟨by simp [Init, view, hd.groups], hlock.mono fun _ _ h => h.view⟩

end Refinement

/-- A member is allowed and meshes. -/
def meshing : List (Event InProcessTransport) :=
  [.request (.setRoster "group" [(m1, "member")] [] []), .admitPeer "group" m1 "member"]

theorem daemon_refines_admission_sample :
    Lockstep (total (step plainVerifier)) Next (fun d s => s = view "group" d)
        (explains plainVerifier "group") nodeDaemon ⟨∅, ∅⟩ meshing
        (meshing.foldl (step plainVerifier) nodeDaemon)
        (view "group" (meshing.foldl (step plainVerifier) nodeDaemon)) ∧
      m1 ∈ (view "group" (meshing.foldl (step plainVerifier) nodeDaemon)).admitted := by
  have hrun : (meshing.foldl (step plainVerifier) nodeDaemon).groups["group"]?.any
      (fun s => s.membership.admitted.contains m1) = true := by
    decide +kernel
  obtain ⟨s, hs, hm⟩ := (Option.any_eq_true _ _).mp hrun
  have hsteps : Steps (total (step plainVerifier)) nodeDaemon meshing
      (meshing.foldl (step plainVerifier) nodeDaemon) := steps_total_iff.mpr rfl
  refine ⟨(daemon_refines_admission (initial_withFactory _ _) hsteps "group").2, ?_⟩
  rw [view_of_opened (.inl hs)]
  exact ExtTreeSet.contains_iff_mem.mp hm

end CitrateCluster.ClusterAdmission
