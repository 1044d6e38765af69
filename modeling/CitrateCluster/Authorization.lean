import CitrateCluster.DaemonStep
import CitrateCluster.SwarmSurface

namespace CitrateCluster.Authorization

open Std (ExtTreeMap ExtTreeSet)
open CitrateCluster.Membership Runs Roster Collections Device EffectiveRoster Transport Session
  Daemon ClusterDaemon Ipc DaemonStep SwarmLoop SwarmSurface Registry

section Reroster

variable {T : Type} {s : ClusterSession T} {roster : Entries} {a : String}

/-- The addresses that leave the allowed set with a new roster. -/
def Leaves (s : ClusterSession T) (roster : Entries) (a : String) : Prop :=
  a ∈ s.membership.allowed ∧ a ∉ allowedSet roster

theorem leaves_of_mem_evicted (h : s.membership.Safe) (ha : a ∈ (s.membership.reconcile roster).1) :
    Leaves s roster a := by
  obtain ⟨hm, hn⟩ := ClusterMembership.mem_reconcile_evicted.mp ha
  exact ⟨h.admitted_allowed a hm, hn⟩

/-- The addresses that `apply_roster` deauthorizes. -/
def removed (s : ClusterSession T) (roster : Entries) : List String :=
  s.membership.allowed.toList.filter fun a => !(allowedSet roster).contains a

theorem mem_removed : a ∈ removed s roster ↔ Leaves s roster a := by
  simp [removed, Leaves]

theorem applyRoster_transport [MeshTransport T] (s : ClusterSession T) (roster : Entries) :
    (s.applyRoster roster).2.transport =
      (allowedSet roster).toList.foldl authorize
        ((removed s roster).foldl disconnect
          ((s.membership.reconcile roster).1.foldl disconnect s.transport)) := rfl

variable [Authorizing T]

theorem mem_authorized_applyRoster (h : s.membership.Safe) :
    a ∈ authorized (s.applyRoster roster).2.transport ↔
      (a ∈ authorized s.transport ∧ ¬ Leaves s roster a) ∨ a ∈ allowedSet roster := by
  have hcanon : ∀ x, Leaves s roster x → Canonical x := fun x hx => h.canonical x hx.1
  rw [applyRoster_transport, mem_authorized_foldl_authorize, mem_authorized_foldl_disconnect,
    mem_authorized_foldl_disconnect, mem_removed, ExtTreeSet.mem_toList]
  · apply or_congr_left
    constructor
    · rintro ⟨⟨ha, _⟩, hl⟩
      exact ⟨ha, hl⟩
    · rintro ⟨ha, hl⟩
      exact ⟨⟨ha, fun he => hl (leaves_of_mem_evicted h he)⟩, hl⟩
  · exact fun x hx => hcanon x (leaves_of_mem_evicted h hx)
  · exact fun x hx => hcanon x (mem_removed.mp hx)
  · exact fun x hx => canonical_of_mem_allowedSet (ExtTreeSet.mem_toList.mp hx)

/-- The wire admits whom the roster allows. -/
structure Tracks (s : ClusterSession T) : Prop where
  safe : s.membership.Safe
  wire : ∀ a, a ∈ authorized s.transport ↔ a ∈ s.membership.allowed

theorem Tracks.applyRoster (h : Tracks s) : Tracks (s.applyRoster roster).2 where
  safe := by
    rw [ClusterSession.applyRoster_membership]
    exact ClusterMembership.safe_reconcile _ _
  wire := by
    intro a
    rw [mem_authorized_applyRoster h.safe, h.wire, ClusterSession.applyRoster_allowed]
    by_cases ha : a ∈ allowedSet roster <;> simp [Leaves, ha]

theorem authorized_run {op : SessionOp T} (hop : op.IsRequest) :
    authorized (op.run s).transport = authorized s.transport := by
  cases op with
  | sync => exact Authorizing.authorized_connected
  | connected => exact Authorizing.authorized_connected
  | publish sender data => exact Authorizing.authorized_publish
  | drain => exact Authorizing.authorized_drain
  | addPeers addrs => exact Authorizing.authorized_addPeers
  | seedAddrs => exact Authorizing.authorized_seedAddrs
  | _ => exact hop.elim

theorem Tracks.run (h : Tracks s) {op : SessionOp T}
    (hop : authorized (op.run s).transport = authorized s.transport) : Tracks (op.run s) where
  safe := SessionOp.run_safe op h.safe
  wire := by
    intro a
    rw [hop, SessionOp.run_allowed]
    exact h.wire a

end Reroster

section Calls

variable {T : Type} [MeshTransport T]

/-- A relation between the states of a transport that each call of a request keeps to. -/
structure KeptByCalls (rel : T → T → Prop) : Prop where
  refl (t : T) : rel t t
  trans {t t' t'' : T} : rel t t' → rel t' t'' → rel t t''
  authorize (t : T) (a : String) : rel t (authorize t a)
  disconnect (t : T) (a : String) : rel t (disconnect t a)
  connected (t : T) : rel t (connected t).2
  publish (t : T) (sender data : String) : rel t (publish t sender data)
  drain (t : T) : rel t (drain t).2
  addPeers (t : T) (addrs : List String) : rel t (addPeers t addrs).2
  seedAddrs (t : T) : rel t (seedAddrs t).2

variable {rel : T → T → Prop}

theorem KeptByCalls.foldl (h : KeptByCalls rel) {f : T → String → T} (hf : ∀ t a, rel t (f t a))
    (l : List String) (t : T) : rel t (l.foldl f t) := by
  induction l generalizing t with
  | nil => exact h.refl t
  | cons a l ih => exact h.trans (hf t a) (ih (f t a))

theorem KeptByCalls.applyRoster (h : KeptByCalls rel) (s : ClusterSession T) (roster : Entries) :
    rel s.transport (s.applyRoster roster).2.transport := by
  rw [applyRoster_transport]
  have hevicted := h.foldl h.disconnect (s.membership.reconcile roster).1 s.transport
  have hremoved := h.trans hevicted (h.foldl h.disconnect (removed s roster) _)
  exact h.trans hremoved (h.foldl h.authorize _ _)

/-- What a request does to a session besides setting a roster. -/
theorem KeptByCalls.request (h : KeptByCalls rel) (s : ClusterSession T) {op : SessionOp T}
    (hop : op.IsRequest) : rel s.transport (op.run s).transport := by
  cases op with
  | sync => exact h.connected s.transport
  | connected => exact h.connected s.transport
  | publish sender data => exact h.publish s.transport sender data
  | drain => exact h.drain s.transport
  | addPeers addrs => exact h.addPeers s.transport addrs
  | seedAddrs => exact h.seedAddrs s.transport
  | _ => exact hop.elim

end Calls

section Runs

variable {T : Type} [Authorizing T] {V : LinkVerifier}

/-- A factory whose transports authorize nobody yet. -/
def Fresh (makeTransport : String → Except String T) : Prop :=
  ∀ g transport, makeTransport g = .ok transport → authorized transport = ∅

/-- Requests, and an environment that leaves the authorized sets alone. -/
def RequestsOnly (_ : ClusterDaemon T) : Event T → Prop
  | .request _ => True
  | .transport _ f => ∀ t, authorized (f t) = authorized t
  | .factory makeTransport => Fresh makeTransport
  | .admitPeer _ _ _ | .dropPeer _ _ => False

theorem tracks_new {transport : T} (h : authorized transport = ∅) :
    Tracks (ClusterSession.new [] transport) where
  safe := ClusterMembership.safe_new []
  wire := by
    intro a
    simp [ClusterSession.new, ClusterMembership.new, h, mem_allowedSet]

theorem tracks_step {d d' : ClusterDaemon T} {e : Event T}
    (h : Fresh d.makeTransport ∧ AllSessions Tracks d)
    (hs : Meeting (total (step V)) RequestsOnly d e d') :
    Fresh d'.makeTransport ∧ AllSessions Tracks d' := by
  obtain ⟨rfl, he⟩ := hs
  have heff := effect_step V d e
  refine ⟨?_, h.2.step heff (fun g t ht => tracks_new (h.1 g t ht)) (fun op hop s hs => hs.run ?_)
    fun s roster hs => hs.applyRoster⟩
  · refine heff.factory_induction (fun makeTransport hf => ?_) h.1
    subst hf
    exact he
  · cases e with
    | request r => exact authorized_run hop
    | transport g f =>
      subst hop
      exact he s.transport
    | factory => exact hop.elim
    | _ => exact he.elim

theorem tracks_of_steps {d d' : ClusterDaemon T} {es : List (Event T)} (hd : Initial d)
    (hfresh : Fresh d.makeTransport)
    (h : Steps (Meeting (total (step V)) RequestsOnly) d es d') : AllSessions Tracks d' :=
  (h.invariant (I := fun d => Fresh d.makeTransport ∧ AllSessions Tracks d)
    (fun _ _ _ => tracks_step) ⟨hfresh, allSessions_of_initial hd⟩).2

end Runs

section Logging

variable {T : Type}

/-- The connection calls that a transport receives. -/
inductive Call where
  | dial (peer : String)
  | disconnect (peer : String)
  | authorize (peer : String)
  deriving DecidableEq, Repr

/-- A transport that records the connection calls it receives. -/
structure Logged (T : Type) where
  transport : T
  calls : List Call

instance [MeshTransport T] : MeshTransport (Logged T) where
  dial t peer := ⟨dial t.transport peer, t.calls ++ [.dial peer]⟩
  disconnect t peer := ⟨disconnect t.transport peer, t.calls ++ [.disconnect peer]⟩
  connected t := ((connected t.transport).1, { t with transport := (connected t.transport).2 })
  publish t sender data := { t with transport := publish t.transport sender data }
  drain t := ((drain t.transport).1, { t with transport := (drain t.transport).2 })
  authorize t addr := ⟨authorize t.transport addr, t.calls ++ [.authorize addr]⟩
  addPeers t addrs := ((addPeers t.transport addrs).1,
    { t with transport := (addPeers t.transport addrs).2 })
  seedAddrs t := ((seedAddrs t.transport).1, { t with transport := (seedAddrs t.transport).2 })

variable [Authorizing T]

instance : Authorizing (Logged T) where
  authorized t := authorized t.transport
  mem_dial := Authorizing.mem_dial
  mem_authorize := Authorizing.mem_authorize
  mem_disconnect := Authorizing.mem_disconnect
  authorized_connected := Authorizing.authorized_connected
  authorized_publish := Authorizing.authorized_publish
  authorized_drain := Authorizing.authorized_drain
  authorized_addPeers := Authorizing.authorized_addPeers
  authorized_seedAddrs := Authorizing.authorized_seedAddrs

omit [Authorizing T] in
theorem calls_foldl {f : Logged T → String → Logged T} {call : String → Call}
    (hf : ∀ t a, (f t a).calls = t.calls ++ [call a]) (l : List String) (t : Logged T) :
    (l.foldl f t).calls = t.calls ++ l.map call := by
  induction l generalizing t with
  | nil => simp
  | cons a l ih =>
    rw [List.foldl_cons, ih, hf, List.map_cons, List.append_assoc, List.singleton_append]

theorem calls_foldl_disconnect (l : List String) (t : Logged T) :
    (l.foldl disconnect t).calls = t.calls ++ l.map .disconnect :=
  calls_foldl (fun _ _ => rfl) l t

theorem calls_foldl_authorize (l : List String) (t : Logged T) :
    (l.foldl authorize t).calls = t.calls ++ l.map .authorize :=
  calls_foldl (fun _ _ => rfl) l t

/-- A new roster disconnects exactly the addresses that leave the allowed set. -/
theorem applyRoster_calls {s : ClusterSession (Logged T)} (h : s.membership.Safe)
    (roster : Entries) :
    ∃ calls, (s.applyRoster roster).2.transport.calls = s.transport.calls ++ calls ∧
      ∀ a, .disconnect a ∈ calls ↔ Leaves s roster a := by
  refine ⟨(s.membership.reconcile roster).1.map .disconnect ++
    ((removed s roster).map .disconnect ++ (allowedSet roster).toList.map .authorize), ?_, ?_⟩
  · rw [applyRoster_transport, calls_foldl_authorize, calls_foldl_disconnect,
      calls_foldl_disconnect, List.append_assoc, List.append_assoc]
  · intro a
    simp only [List.mem_append, List.mem_map, Call.disconnect.injEq, exists_eq_right,
      reduceCtorEq, and_false, exists_false, or_false, mem_removed]
    exact ⟨fun ha => ha.elim (leaves_of_mem_evicted h) id, .inr⟩

/-- In every run of requests the wire authorizes exactly the allowed addresses of a group, and
every new roster either is refused, without a call, or disconnects exactly the addresses that
leave the allowed set. -/
theorem authorized_iff_allowed {V : LinkVerifier} {d d' : ClusterDaemon (Logged T)}
    {es : List (Event (Logged T))} (hd : Initial d) (hfresh : Fresh d.makeTransport)
    (h : Steps (Meeting (total (step V)) RequestsOnly) d es d') :
    (∀ (g : String) (s : ClusterSession (Logged T)), d'.groups[g]? = some s →
      ∀ a, a ∈ authorized s.transport ↔ a ∈ s.membership.allowed) ∧
      ∀ g roster links revocations,
        (∃ m, handleRequest V d' (.setRoster g roster links revocations) = (.error m, d')) ∨
          ∃ s s' calls, Opened d' g s ∧
            (handleRequest V d' (.setRoster g roster links revocations)).2.groups[g]? = some s' ∧
            s'.transport.calls = s.transport.calls ++ calls ∧
            ∀ a, .disconnect a ∈ calls ↔ a ∈ s.membership.allowed ∧ a ∉ s'.membership.allowed := by
  have htracks := tracks_of_steps hd hfresh h
  refine ⟨fun g s hs => (htracks g s hs).wire, fun g roster links revocations => ?_⟩
  obtain ⟨m, hm⟩ | ⟨s, hs, hm⟩ := handleRequest_setRoster_cases V d' g roster links revocations
  · exact .inl ⟨m, hm⟩
  · have hsafe : AllSessions (fun s => s.membership.Safe) d' := fun g s hs => (htracks g s hs).safe
    obtain ⟨calls, hcalls, hiff⟩ := applyRoster_calls
      (hsafe.opened (fun _ _ _ => ClusterMembership.safe_new []) hs)
      (effectiveRoster roster (registryAfter V d' g links revocations).2)
    refine .inr ⟨s, _, calls, hs, ?_, hcalls, hiff⟩
    rw [hm]
    simp [rostered]

theorem steps_requests {V : LinkVerifier} (rs : List Request) (d : ClusterDaemon T) :
    Steps (Meeting (total (step V)) RequestsOnly) d (rs.map .request)
      ((rs.map .request).foldl (step V) d) := by
  apply steps_meeting_total
  intro e he _
  obtain ⟨r, _, rfl⟩ := List.mem_map.mp he
  trivial

/-- A daemon over libp2p meshes, with their calls recorded. -/
def meshDaemon : ClusterDaemon (Logged (Libp2pTransport plainLibp2p)) :=
  withFactory m1 fun group => .ok ⟨⟨.new group m1⟩, []⟩

theorem initial_meshDaemon : Initial meshDaemon := initial_withFactory _ _

theorem fresh_meshDaemon : Fresh meshDaemon.makeTransport := by
  intro g transport ht
  cases ht
  ext a
  simp [authorized, Wire.new]

theorem authorized_iff_allowed_sample :
    ∃ s, ((([.setRoster "group" [(m1, "member"), (m2, "guest")] [] []] : List Request).map
        .request).foldl (step plainVerifier) meshDaemon).groups["group"]? = some s ∧
      m1 ∈ s.membership.allowed ∧ ∀ a, a ∈ authorized s.transport ↔ a ∈ s.membership.allowed := by
  have hrun : ((([.setRoster "group" [(m1, "member"), (m2, "guest")] [] []] : List Request).map
      .request).foldl (step plainVerifier) meshDaemon).groups["group"]?.any
        (fun s => s.membership.allowed.contains m1) = true := by
    decide +kernel
  obtain ⟨s, hs, hm⟩ := (Option.any_eq_true _ _).mp hrun
  have h := (authorized_iff_allowed initial_meshDaemon fresh_meshDaemon
    (steps_requests (V := plainVerifier) _ _)).1 "group" s hs
  exact ⟨s, hs, ExtTreeSet.contains_iff_mem.mp hm, h⟩

end Logging

end CitrateCluster.Authorization
