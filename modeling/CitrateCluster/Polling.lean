import CitrateCluster.DaemonStep
import CitrateCluster.Mailbox
import CitrateCluster.SwarmSurface

namespace CitrateCluster.Polling

open Std (ExtTreeMap ExtTreeSet)
open Text Runs Roster Collections Device Registry EffectiveRoster Transport Session Daemon
  ClusterDaemon Ipc DaemonStep Mailbox

/-- A transport that keeps what it has received until it is drained. -/
class Receiving (T : Type) extends MeshTransport T where
  inbox : T → List MeshMessage
  drain_fst {t : T} : (drain t).1 = inbox t
  inbox_drain {t : T} : inbox (drain t).2 = []
  inbox_dial {t : T} {peer : String} : inbox (dial t peer) = inbox t
  inbox_disconnect {t : T} {peer : String} : inbox (disconnect t peer) = inbox t
  inbox_authorize {t : T} {peer : String} : inbox (authorize t peer) = inbox t
  inbox_connected {t : T} : inbox (connected t).2 = inbox t
  inbox_publish {t : T} {sender data : String} : inbox (publish t sender data) = inbox t
  inbox_addPeers {t : T} {addrs : List String} : inbox (addPeers t addrs).2 = inbox t
  inbox_seedAddrs {t : T} : inbox (seedAddrs t).2 = inbox t

export Receiving (inbox)

instance : Receiving InProcessTransport where
  inbox := InProcessTransport.inbox
  drain_fst := rfl
  inbox_drain := rfl
  inbox_dial := rfl
  inbox_disconnect := rfl
  inbox_authorize := rfl
  inbox_connected := rfl
  inbox_publish := rfl
  inbox_addPeers := rfl
  inbox_seedAddrs := rfl

section Libp2p

open SwarmLoop SwarmSurface

theorem inbox_authorize (w : Wire) (peer : String) : (w.authorize peer).inbox = w.inbox := by
  rw [Wire.authorize]
  split <;> rfl

theorem inbox_evict (w : Wire) (peer : String) : (evict w peer).inbox = w.inbox := by
  rw [evict]
  split <;> rfl

theorem inbox_dialAll {Key : Type} (I : Libp2p Key) (w : Wire) (addrs : List String) :
    (dialAll I w addrs).2.inbox = w.inbox := by
  rw [dialAll]
  split
  · rfl
  · rw [foldl_send_eq]

instance {Key : Type} {I : Libp2p Key} : Receiving (Libp2pTransport I) where
  inbox t := t.wire.inbox
  drain_fst := rfl
  inbox_drain := rfl
  inbox_dial {t peer} := inbox_authorize t.wire peer
  inbox_disconnect {t peer} := inbox_evict t.wire peer
  inbox_authorize {t peer} := inbox_authorize t.wire peer
  inbox_connected := rfl
  inbox_publish := rfl
  inbox_addPeers {t addrs} := inbox_dialAll I t.wire addrs
  inbox_seedAddrs := rfl

end Libp2p

variable {T : Type} [Receiving T] {V : LinkVerifier} {d d' : ClusterDaemon T} {g : String}
  {s s' : ClusterSession T}

/-- The well-formed messages that wait in a session. -/
def boxOf (s : ClusterSession T) : List MeshMessage := (inbox s.transport).filter wellFormed

/-- The mailboxes of a daemon. -/
def mailboxes (d : ClusterDaemon T) : Mailboxes where
  boxes := d.groups.map fun _ s => boxOf s
  fresh g :=
    match d.makeTransport g with
    | .ok transport => some (boxOf (.new [] transport))
    | .error _ => none
  pinned := d.singleGroup

section Sessions

theorem boxOf_congr (h : inbox s'.transport = inbox s.transport) : boxOf s' = boxOf s := by
  rw [boxOf, h, boxOf]

theorem inbox_foldl {f : T → String → T} (hf : ∀ t peer, inbox (f t peer) = inbox t)
    (l : List String) (t : T) : inbox (l.foldl f t) = inbox t := by
  induction l generalizing t with
  | nil => rfl
  | cons peer l ih => rw [List.foldl_cons, ih, hf]

theorem boxOf_applyRoster (s : ClusterSession T) (roster : Entries) :
    boxOf (s.applyRoster roster).2 = boxOf s := by
  simp only [boxOf, ClusterSession.applyRoster, ClusterSession.reconcile,
    inbox_foldl (fun _ _ => Receiving.inbox_authorize),
    inbox_foldl (fun _ _ => Receiving.inbox_disconnect)]

end Sessions

section Requests

theorem getElem?_boxes (d : ClusterDaemon T) (g : String) :
    (mailboxes d).boxes[g]? = d.groups[g]?.map boxOf := by
  simp [mailboxes]

theorem boxes_insert (groups : ExtTreeMap String (ClusterSession T)) (g : String)
    (s : ClusterSession T) : (groups.insert g s).map (fun _ s => boxOf s) =
      (groups.map fun _ s => boxOf s).insert g (boxOf s) := by
  apply ExtTreeMap.ext_getElem?
  intro k
  by_cases hk : g = k <;> simp [ExtTreeMap.getElem?_insert, hk]

theorem mailboxes_setSession (d : ClusterDaemon T) (g : String) (s : ClusterSession T) :
    mailboxes (d.setSession g s) =
      { mailboxes d with boxes := (mailboxes d).boxes.insert g (boxOf s) } := by
  simp only [mailboxes, setSession, boxes_insert]

theorem mailboxes_setSession_of_eq (hs : d.groups[g]? = some s) (h : boxOf s' = boxOf s) :
    mailboxes (d.setSession g s') = mailboxes d := by
  rw [mailboxes_setSession, insert_eq_self]
  rw [getElem?_boxes, hs, h, Option.map_some]

theorem mailboxes_syncAdmission (d : ClusterDaemon T) (g : String) :
    mailboxes (d.syncAdmission g) = mailboxes d := by
  rw [syncAdmission]
  split
  · next s hs => exact mailboxes_setSession_of_eq hs (boxOf_congr Receiving.inbox_connected)
  · rfl

theorem mailboxes_readConnected (d : ClusterDaemon T) (g : String) :
    mailboxes (d.readConnected g).2 = mailboxes d := by
  rw [readConnected]
  split
  · rfl
  · next s hs => exact mailboxes_setSession_of_eq hs (boxOf_congr Receiving.inbox_connected)

/-- Draining takes what waits in the mailbox of the group. -/
theorem drainIntoShared_eq (d : ClusterDaemon T) (g : String) :
    (d.drainIntoShared g).1 = (mailboxes d).waiting g ∧
      mailboxes (d.drainIntoShared g).2 = (mailboxes d).take g := by
  rw [drainIntoShared, Mailboxes.waiting, Mailboxes.take, getElem?_boxes]
  cases hs : d.groups[g]? with
  | none => exact ⟨rfl, rfl⟩
  | some s =>
    have hempty : boxOf { s with transport := (drain s.transport).2 } = [] := by
      rw [boxOf, Receiving.inbox_drain]
      rfl
    have hset := mailboxes_setSession d g { s with transport := (drain s.transport).2 }
    rw [hempty] at hset
    dsimp only [Option.map_some, Option.getD_some]
    rw [← hset, Receiving.drain_fst]
    split
    · exact ⟨rfl, rfl⟩
    · exact ⟨rfl, rfl⟩

theorem mailboxes_poll (d : ClusterDaemon T) (g : String) :
    (d.poll g).1 = (mailboxes d).waiting g ∧ mailboxes (d.poll g).2 = (mailboxes d).take g := by
  have h := drainIntoShared_eq (d.syncAdmission g) g
  rwa [mailboxes_syncAdmission] at h

theorem mailboxes_status (d : ClusterDaemon T) (g : String) :
    mailboxes (d.status g).2 = (mailboxes d).take g := by
  have h := (drainIntoShared_eq (d.syncAdmission g) g).2
  rw [mailboxes_syncAdmission] at h
  simp only [status]
  split
  · exact (mailboxes_readConnected _ g).trans h
  · exact h

theorem mailboxes_sharedFilesPage (d : ClusterDaemon T) (g : String) (offset limit : Nat) :
    mailboxes (d.sharedFilesPage g offset limit).2 = (mailboxes d).take g := by
  simp only [sharedFilesPage]
  split <;> exact (drainIntoShared_eq d g).2

theorem mailboxes_peers (d : ClusterDaemon T) (g : String) :
    mailboxes (d.peers g).2 = mailboxes d := by
  simp only [peers]
  split
  · exact mailboxes_syncAdmission d g
  · exact (mailboxes_readConnected _ g).trans (mailboxes_syncAdmission d g)

theorem mailboxes_devices (d : ClusterDaemon T) (g : String) :
    mailboxes (d.devices g).2 = mailboxes d := by
  simp only [devices]
  split
  · exact mailboxes_syncAdmission d g
  · exact (mailboxes_readConnected _ g).trans (mailboxes_syncAdmission d g)

theorem mailboxes_shareFile (d : ClusterDaemon T) (g cid : String) :
    mailboxes (d.shareFile g cid).2 = mailboxes d := by
  rw [shareFile]
  split
  · rfl
  · next s hs =>
    split
    · rfl
    · dsimp only
      split
      · rfl
      · exact mailboxes_setSession_of_eq hs (boxOf_congr Receiving.inbox_publish)

theorem mailboxes_seed (d : ClusterDaemon T) (g : String) :
    mailboxes (d.seed g).2 = mailboxes d := by
  rw [seed]
  split
  · rfl
  · next s hs =>
    have h : mailboxes (d.setSession g { s with transport := (seedAddrs s.transport).2 }) =
        mailboxes d := mailboxes_setSession_of_eq hs (boxOf_congr Receiving.inbox_seedAddrs)
    dsimp only
    split
    · exact h
    · split
      · exact h
      · split <;> exact h

theorem mailboxes_addSeed (d : ClusterDaemon T) (g text : String) :
    mailboxes (d.addSeed g text).2 = mailboxes d := by
  rw [addSeed]
  split
  · rfl
  · split
    · rfl
    · split
      · rfl
      · next s hs => exact mailboxes_setSession_of_eq hs (boxOf_congr Receiving.inbox_addPeers)

theorem mailboxes_leave (d : ClusterDaemon T) (g : String) :
    mailboxes (d.leave g) = (mailboxes d).step (.request (.leave g)) := by
  have hboxes : (d.groups.erase g).map (fun _ s => boxOf s) =
      (d.groups.map fun _ s => boxOf s).erase g := by
    apply ExtTreeMap.ext_getElem?
    intro k
    by_cases hk : g = k <;> simp [ExtTreeMap.getElem?_erase, hk]
  simp only [mailboxes, ClusterDaemon.leave, Mailboxes.step, hboxes]

theorem pinned_any_iff : (mailboxes d).pinned.any (· != g) = false ↔
    d.ensureGroupAllowed g = .ok () := by
  rw [ensureGroupAllowed]
  cases hp : d.singleGroup with
  | none => simp [mailboxes, hp]
  | some k => by_cases hk : k = g <;> simp [mailboxes, hp, hk]

/-- A session is started as a mailbox is. -/
theorem mailboxes_ensureSession (hg : d.ensureGroupAllowed g = .ok ()) :
    (∀ e, d.ensureSession g = .error e → mailboxes d = (mailboxes d).start g) ∧
      ∀ s d', d.ensureSession g = .ok (s, d') → mailboxes d' = (mailboxes d).start g := by
  have hcontains : (mailboxes d).boxes.contains g = d.groups.contains g :=
    ExtTreeMap.contains_map
  have hsize : (mailboxes d).boxes.size = d.groups.size := ExtTreeMap.size_map
  rw [Mailboxes.start, pinned_any_iff.mpr hg, hcontains, hsize, ExtTreeMap.contains_eq_isSome_getElem?,
    ensureSession]
  cases hs : d.groups[g]? with
  | some s =>
    constructor
    · intro e he
      cases he
    · intro s' d' h
      cases h
      rfl
  | none =>
    cases hn : (trim g).isEmpty with
    | true =>
      refine ⟨fun e _ => rfl, fun s' d' h => ?_⟩
      cases h
    | false =>
      by_cases hroom : d.groups.size ≥ maxGroups
      · simp [hroom]
      · cases ht : d.makeTransport g with
        | error e => simp [hroom, mailboxes, ht]
        | ok transport =>
          have hfresh : (mailboxes d).fresh g = some (boxOf (.new [] transport)) := by
            simp [mailboxes, ht]
          refine ⟨fun e he => ?_, fun s' d' h => ?_⟩
          · simp [hroom] at he
          · simp only [Bool.false_eq_true, if_false, hroom, Except.ok.injEq, Prod.mk.injEq] at h
            obtain ⟨rfl, rfl⟩ := h
            rw [mailboxes_setSession, hfresh]
            simp [hroom]

theorem start_of_refused {e : String} (hg : d.ensureGroupAllowed g = .error e) :
    (mailboxes d).start g = mailboxes d := by
  have hpinned : (mailboxes d).pinned.any (· != g) = true := by
    rw [← Bool.not_eq_false, pinned_any_iff, hg]
    intro h
    cases h
  simp [Mailboxes.start, hpinned]

theorem mailboxes_join (d : ClusterDaemon T) (g : String) :
    mailboxes (d.join g).2 = (mailboxes d).start g := by
  rw [join]
  split
  · next e hg => exact (start_of_refused hg).symm
  · next hg =>
    split
    · next e he => exact (mailboxes_ensureSession hg).1 e he
    · next s d' hs => exact (mailboxes_ensureSession hg).2 s d' hs

theorem mailboxes_setRoster (d : ClusterDaemon T) (g : String) (roster : Entries)
    (links : List DeviceLinkWire) (revocations : List RevocationWire) :
    mailboxes (handleRequest V d (.setRoster g roster links revocations)).2 =
      (mailboxes d).start g := by
  cases hg : d.ensureGroupAllowed g with
  | error e =>
    rw [start_of_refused hg]
    simp only [handleRequest, setRosterWithDevices, hg]
  | ok _ =>
    obtain ⟨e, he⟩ | ⟨s, _, he⟩ := ensureSession_cases d g
    · rw [← (mailboxes_ensureSession hg).1 e he]
      simp only [handleRequest, setRosterWithDevices, hg, he]
    · rw [handleRequest_setRoster_of_ensureSession V hg he,
        ← (mailboxes_ensureSession hg).2 s _ he, mailboxes_setSession, ← boxOf_applyRoster s
          (effectiveRoster roster (registryAfter V d g links revocations).2)]
      simp only [mailboxes, rostered, boxes_insert]

/-- What a request does to the mailboxes. -/
theorem mailboxes_handleRequest (V : LinkVerifier) (d : ClusterDaemon T) (r : Request) :
    mailboxes (handleRequest V d r).2 = (mailboxes d).step (.request r) := by
  cases r with
  | setRoster g roster links revocations => exact mailboxes_setRoster d g roster links revocations
  | devices g => exact mailboxes_devices d g
  | join g =>
    rw [Mailboxes.step, ← mailboxes_join, handleRequest]
    split <;> simp_all
  | leave g => exact mailboxes_leave d g
  | status g => exact mailboxes_status d g
  | peers g => exact mailboxes_peers d g
  | shareFile g cid =>
    have h := mailboxes_shareFile d g cid
    rw [Mailboxes.step, ← h, handleRequest]
    · split <;> simp_all
    all_goals simp
  | poll g => exact (mailboxes_poll d g).2
  | sharedFiles g offset limit => exact mailboxes_sharedFilesPage d g offset _
  | seed g =>
    have h := mailboxes_seed d g
    rw [Mailboxes.step, ← h, handleRequest]
    · split <;> simp_all
    all_goals simp
  | addSeed g text =>
    have h := mailboxes_addSeed d g text
    rw [Mailboxes.step, ← h, handleRequest]
    · split <;> simp_all
    all_goals simp

end Requests

section Runs

/-- Messages arrive at the transport of a group, or a request at the daemon. -/
inductive Posts : Event T → Mail → Prop where
  | deliver (g : String) {f : T → T} {ms : List MeshMessage}
      (h : ∀ t, inbox (f t) = inbox t ++ ms) : Posts (.transport g f) (.deliver g ms)
  | request (r : Request) : Posts (.request r) (.request r)

/-- What an event makes the daemon return to a poll of a group. -/
def answer (V : LinkVerifier) (g : String) (d : ClusterDaemon T) : Event T → List (List MeshMessage)
  | .request (.poll k) =>
    if k = g then
      match (handleRequest V d (.poll k)).1 with
      | .messages ms => [ms]
      | _ => []
    else []
  | _ => []

/-- What the polls of a group return in a run. -/
def pollsOf (V : LinkVerifier) (g : String) : ClusterDaemon T → List (Event T) →
    List (List MeshMessage)
  | _, [] => []
  | d, e :: es => answer V g d e ++ pollsOf V g (step V d e) es

variable {e : Event T} {m : Mail} {es es' : List (Event T)} {ms ms' : List Mail}

theorem mailboxes_step (h : Posts e m) : mailboxes (step V d e) = (mailboxes d).step m := by
  cases h with
  | request r => exact mailboxes_handleRequest V d r
  | deliver g h =>
    rw [step, Mailboxes.step, Mailboxes.receive, getElem?_boxes]
    cases hs : d.groups[g]? with
    | none => rfl
    | some s =>
      dsimp only [Option.map_some]
      rw [mailboxes_setSession, boxOf, h, List.filter_append]
      rfl

theorem mailboxes_foldl (h : List.Forall₂ Posts es ms) (d : ClusterDaemon T) :
    mailboxes (es.foldl (step V) d) = (mailboxes d).run ms := by
  induction h generalizing d with
  | nil => rfl
  | cons he _ ih =>
    rw [List.foldl_cons, ih, mailboxes_step he]
    rfl

/-- A poll returns what waits in the mailbox. -/
theorem answer_eq (h : Posts e m) :
    answer V g d e =
      ((((visit g m).map fun shown => (shown, (mailboxes d).waiting g)).toList).filter (·.1)).map
        (·.2) := by
  cases h with
  | deliver => rfl
  | request r =>
    cases r with
    | poll k =>
      rw [answer, visit]
      by_cases hk : k = g
      · subst hk
        simp [handleRequest, (mailboxes_poll d k).1]
      · simp [hk]
    | status k => by_cases hk : k = g <;> simp [answer, visit, hk]
    | sharedFiles k => by_cases hk : k = g <;> simp [answer, visit, hk]
    | _ => rfl

theorem pollsOf_eq (h : List.Forall₂ Posts es ms) (d : ClusterDaemon T) :
    pollsOf V g d es = (mailboxes d).polls g ms := by
  induction h generalizing d with
  | nil => rfl
  | cons he _ ih =>
    rw [pollsOf, answer_eq he, ih, mailboxes_step he, Mailboxes.polls, Mailboxes.polls,
      Mailboxes.visits, List.filter_append, List.map_append]

/-- A poll returns what waits in the mailbox of the group. Polls and the reads of the status and the
files all take what waits: over a run on a group that is not left they take every message once, in
the order of arrival. Reads put in where no message waits change no poll. -/
theorem polls_return_what_waits (V : LinkVerifier) (d : ClusterDaemon T) (g : String) :
    (∀ es ms, List.Forall₂ Posts es ms → pollsOf V g d es = (mailboxes d).polls g ms) ∧
      (∀ es ms box, List.Forall₂ Posts es ms → (mailboxes d).boxes[g]? = some box →
        (∀ m ∈ ms, m ≠ .request (.leave g)) →
          (((mailboxes d).visits g ms).map (·.2)).flatten ++
            (mailboxes (es.foldl (step V) d)).waiting g = box ++ ms.flatMap (arrivals g)) ∧
      ∀ es es' ms ms', List.Forall₂ Posts es ms → List.Forall₂ Posts es' ms' →
        Inserts g (mailboxes d) ms ms' → pollsOf V g d es' = pollsOf V g d es := by
  refine ⟨fun es ms h => pollsOf_eq h d, fun es ms box h hbox hleave => ?_, ?_⟩
  · rw [mailboxes_foldl h]
    exact run_conserves hbox hleave
  · intro es es' ms ms' h h' hins
    rw [pollsOf_eq h, pollsOf_eq h', polls_of_inserts hins]

/-- A message that is read as part of the status is not there for the next poll. -/
theorem status_takes_a_message :
    ¬ ∀ (V : LinkVerifier) (d : ClusterDaemon InProcessTransport) g r es es', Initial d →
      visit g (.request r) = some false →
        pollsOf V g d (es ++ .request r :: es') = pollsOf V g d (es ++ es') := by
  intro h
  have hpolls := h plainVerifier (.new m2 .new) "group" (.status "group")
    [.request (.join "group"), .transport "group" fun t => t.deliver m1 (cidOf '1')]
    [.request (.poll "group")] (initial_withFactory _ _) (by decide)
  exact absurd hpolls (by decide +kernel)

end Runs

end CitrateCluster.Polling
