import CitrateCluster.GroupEffect
import CitrateCluster.ScheduledMesh
import CitrateCluster.SwarmClock

namespace CitrateCluster.Staying

open Std (ExtTreeMap ExtTreeSet)
open CitrateCluster.Membership Runs Roster Collections Device Registry Transport PeerAddrs Session
  Daemon ClusterDaemon Ipc DaemonStep GroupState StateWrites GroupEffect SwarmLoop SwarmSafety
  SwarmConnected SwarmClock Authorization MeshRun Schedule Offboarding ScheduledMesh

variable {Key : Type} {I : Libp2p Key} {w w' : Wire} {p q : PeerId} {a : String}

section Task

/-- The handler that the task is in does not gate the peer, nor file it under another address. -/
def Spares (p : PeerId) (a : String) : Task → Prop
  | .admitting q b => q = p → b = a
  | .refusing q => q ≠ p
  | .evicting _ ps | .sweeping ps => p ∉ ps
  | _ => True

/-- A peer has a connection that nothing tells to close, its address is authorized, and no
disconnect of it is under way. -/
structure Welcome (p : PeerId) (a : String) (w : Wire) : Prop where
  opened : 0 < (w.conns p).fresh
  authorized : a ∈ w.authorized
  surface : w.surface ≠ .disconnecting a
  queue : .disconnect a ∉ w.queue

/-- A peer is meshed under an address, and nothing is under way that would end this. -/
structure Held (p : PeerId) (a : String) (w : Wire) : Prop extends Welcome p a w where
  filed : w.peerAddr[p]? = some a
  ungated : p ∉ w.blacklist
  admitted : p ∉ w.unadmitted
  identified : p ∉ w.unidentified
  task : Spares p a w.task

/-- The peer keeps its connections, and identifies with its own key. -/
def Fair (I : Libp2p Key) (p : PeerId) (a : String) : Action Key → Prop
  | .closed q _ => q ≠ p
  | .identify q key => q = p → I.toPeerId key = p ∧ I.addressFromPublicKey key = some a
  | _ => True

theorem fresh_disconnectPeerId_of_ne (h : p ≠ q) :
    ((w.disconnectPeerId q).conns p).fresh = (w.conns p).fresh := by
  rw [Wire.disconnectPeerId, conns_setConns_of_ne h]

theorem not_mem_gatePeer (h : p ≠ q) (hp : p ∉ w.blacklist) (hu : p ∉ w.unadmitted) :
    p ∉ (w.gatePeer q).blacklist ∧ p ∉ (w.gatePeer q).unadmitted :=
  ⟨fun hm => (mem_gatePeer.mp hm).elim h hp, fun hm => (mem_insert_iff.mp hm).elim h hu⟩

/-- Another peer is gated and told to close. -/
theorem Held.gated (h : Held p a w) (hq : q ≠ p) {task : Task} (ht : Spares p a task) :
    Held p a { (w.gatePeer q).disconnectPeerId q with task } :=
  { h with
    opened := by
      change 0 < (((w.gatePeer q).disconnectPeerId q).conns p).fresh
      rw [fresh_disconnectPeerId_of_ne hq.symm]
      exact h.opened
    ungated := (not_mem_gatePeer hq.symm h.ungated h.admitted).1
    admitted := (not_mem_gatePeer hq.symm h.ungated h.admitted).2
    task := ht }

theorem Held.resume (h : Held p a w) (hr : w.resume = some w') : Held p a w' := by
  have hspares := h.task
  cases resumes_of_resume hr with
  | @admitting q b ht =>
    rw [ht] at hspares
    refine { h with
      filed := ?_
      ungated := fun hm => h.ungated (mem_erase_iff.mp hm).2
      admitted := fun hm => h.admitted (mem_erase_iff.mp hm).2
      task := trivial }
    by_cases hq : q = p
    · simp [Wire.ungatePeer, hspares hq, hq]
    · simp [Wire.ungatePeer, ExtTreeMap.getElem?_insert, hq, h.filed]
  | connecting => exact { h with task := trivial }
  | @refusing q ht =>
    rw [ht] at hspares
    exact h.gated hspares trivial
  | delivering => exact { h with task := trivial }
  | forgetting => exact { h with task := trivial }
  | @evicting b q ps ht =>
    rw [ht] at hspares
    obtain ⟨hq, hps⟩ := List.ne_and_not_mem_of_not_mem_cons hspares
    exact h.gated (Ne.symm hq) hps
  | evicted => exact { h with task := trivial }
  | @sweeping q ps ht =>
    rw [ht] at hspares
    obtain ⟨hq, hps⟩ := List.ne_and_not_mem_of_not_mem_cons hspares
    have hheld : Held p a { w with unidentified := w.unidentified.erase q } :=
      { h with identified := fun hm => h.identified (mem_keys_erase.mp hm).2 }
    exact hheld.gated (Ne.symm hq) hps
  | swept => exact { h with task := trivial }

theorem Held.established (h : Held p a w) (q : PeerId) : Held p a (w.established q) := by
  have hopened : 0 < ((w.setConns q ⟨(w.conns q).closing, (w.conns q).fresh + 1⟩).conns p).fresh := by
    by_cases hq : q = p
    · simp [Wire.setConns, hq]
    · rw [conns_setConns_of_ne (Ne.symm hq)]
      exact h.opened
  simp only [Wire.established]
  split
  · exact { h with opened := hopened }
  · next hfiled =>
    have hq : p ≠ q := by
      rintro rfl
      apply hfiled
      rw [ExtTreeMap.contains_eq_isSome_getElem?]
      simp [Wire.setConns, h.filed]
    exact { h with
      opened := hopened
      ungated := (not_mem_gatePeer hq h.ungated h.admitted).1
      admitted := (not_mem_gatePeer hq h.ungated h.admitted).2
      identified := fun hm => (ExtTreeMap.mem_insertIfNew.mp hm).elim
        (fun hc => hq (Std.LawfulEqCmp.eq_of_compare hc).symm) h.identified }

theorem Held.identify (h : Held p a w) {key : Key}
    (hfair : q = p → I.toPeerId key = p ∧ I.addressFromPublicKey key = some a) :
    Held p a (w.identify I q key) := by
  have hidentified : p ∉ w.unidentified.erase q :=
    fun hm => h.identified (mem_keys_erase.mp hm).2
  obtain ⟨hno, hw⟩ | ⟨b, hkey, hb, ⟨hauth, hw⟩ | ⟨hauth, hw⟩⟩ := identify_cases I w q key
  all_goals rw [hw]
  · have hq : p ≠ q := by
      rintro rfl
      obtain ⟨hown, ha⟩ := hfair rfl
      exact hno hown a ha
    refine { h with opened := ?_, identified := hidentified }
    rw [fresh_disconnectPeerId_of_ne hq]
    exact h.opened
  · refine { h with identified := hidentified, task := fun hq => ?_ }
    exact Option.some.inj (hb.symm.trans (hfair hq).2)
  · refine { h with identified := hidentified, task := fun hq => hauth ?_ }
    rw [Option.some.inj (hb.symm.trans (hfair hq).2)]
    exact h.authorized

theorem Held.closed (h : Held p a w) {w₁ : Wire} {fresh : Bool} (hq : q ≠ p)
    (hw : w.closeOne q fresh = some w₁) : Held p a (if w₁.Live q then w₁ else w₁.forget q) := by
  obtain ⟨c, _, rfl⟩ := closeOne_eq hw
  have hheld : Held p a (w.setConns q c) :=
    { h with opened := by rw [conns_setConns_of_ne hq.symm]; exact h.opened }
  split
  · exact hheld
  · simp only [Wire.forget]
    have herase : p ∉ (w.setConns q c).unidentified.erase q :=
      fun hm => h.identified (mem_keys_erase.mp hm).2
    have hungated : p ∉ (w.setConns q c).blacklist.erase q :=
      fun hm => h.ungated (mem_erase_iff.mp hm).2
    split
    · refine { hheld with filed := ?_, ungated := hungated, identified := herase, task := trivial }
      rw [getElem?_erase_eq_some]
      exact ⟨hq.symm, h.filed⟩
    · exact { hheld with ungated := hungated, identified := herase }

theorem Held.task_step {e : Action Key} (h : Held p a w) (he : IsTask e) (hfair : Fair I p a e)
    (hs : w.step I e = some w') : Held p a w' := by
  cases moves_of_step hs with
  | established q ht => exact h.established q
  | identify q key ht => exact h.identify hfair
  | closed ht hw => exact h.closed hfair hw
  | message g ht =>
    obtain hsame | ⟨_, _, _, _, _, _, _, _, hw⟩ := receive_cases w g
    · rw [hsame]
      exact h
    · rw [hw]
      exact { h with task := trivial }
  | recv ht hr =>
    obtain ⟨b, queue, hqueue, rfl⟩ | ⟨cmd, queue, hqueue, _, rfl⟩ := recv_cases hr
    · have hb : b ≠ a := by
        rintro rfl
        exact h.queue (hqueue ▸ List.mem_cons_self)
      refine { h with queue := fun hm => h.queue (hqueue ▸ List.mem_cons_of_mem _ hm), task := ?_ }
      intro hm
      rw [mem_targets, h.filed, Option.some.injEq] at hm
      exact hb hm.symm
    · exact { h with queue := fun hm => h.queue (hqueue ▸ List.mem_cons_of_mem _ hm) }
  | sweep ht =>
    refine { h with task := fun hm => h.identified ?_ }
    obtain ⟨⟨q, since⟩, hmem, rfl⟩ := List.mem_map.mp hm
    have hclock := ExtTreeMap.mem_toList_iff_getElem?_eq_some.mp (List.mem_filter.mp hmem).1
    rw [ExtTreeMap.mem_iff_isSome_getElem?, hclock]
    rfl
  | resume hr => exact h.resume hr
  | tick => exact { h with }
  | _ => exact he.elim

end Task

section Calls

variable {t : Scheduled I}

/-- A peer is held, and what the task has yet to do is fair to it. -/
structure Kept (p : PeerId) (a : String) (t : Scheduled I) : Prop where
  held : Held p a t.wire
  schedule : ∀ es ∈ t.schedule, ∀ e ∈ es, Fair I p a e.1

theorem held_attempts {es : List (TaskAction Key)} (h : Held p a w)
    (hfair : ∀ e ∈ es, Fair I p a e.1) : Held p a (es.foldl (attempt I) w) := by
  induction es generalizing w with
  | nil => exact h
  | cons e es ih =>
    apply ih ?_ fun e he => hfair e (List.mem_cons_of_mem _ he)
    cases hs : w.step I e.1 with
    | none =>
      rw [attempt, hs]
      exact h
    | some w' =>
      rw [attempt, hs]
      exact h.task_step e.2 (hfair e List.mem_cons_self) hs

theorem Kept.pause (h : Kept p a t) : Kept p a t.pause := by
  rw [Scheduled.pause]
  split
  · exact h
  · next es schedule hs =>
    have hsched := h.schedule
    rw [hs] at hsched
    exact ⟨held_attempts h.held (hsched es List.mem_cons_self),
      fun es hes => hsched es (List.mem_cons_of_mem _ hes)⟩

theorem Kept.send (h : Kept p a t) {cmd : SwarmCmd} (hcmd : cmd ≠ .disconnect a) :
    Kept p a (t.send cmd) where
  held := { h.held with
    surface := by simp [Scheduled.send]
    queue := fun hm => (List.mem_append.mp hm).elim h.held.queue
      fun hm => hcmd (List.mem_singleton.mp hm).symm }
  schedule := h.schedule

theorem Kept.authorize (h : Kept p a t) (peer : String) : Kept p a (t.authorize peer) := by
  refine ⟨?_, h.schedule⟩
  change Held p a (t.wire.authorize peer)
  rw [Wire.authorize]
  split
  · exact { h.held with authorized := mem_insert_iff.mpr (.inr h.held.authorized) }
  · exact h.held

theorem Kept.drain (h : Kept p a t) : Kept p a t.drain := ⟨{ h.held with }, h.schedule⟩

/-- Between the two critical sections of a `disconnect` of another address too, the task leaves the
peer alone. -/
theorem Kept.disconnect (h : Kept p a t) {peer : String} (hpeer : canonicalAddress peer ≠ some a) :
    Kept p a (Transport.disconnect t peer) := by
  change Kept p a (t.disconnect peer)
  rw [Scheduled.disconnect]
  split
  · next b hb =>
    have hne : b ≠ a := by
      rintro rfl
      exact hpeer hb
    have hwithdraw : Kept p a (t.pause.withdraw b) := by
      refine ⟨{ h.pause.held with authorized := ?_, surface := ?_ }, h.pause.schedule⟩
      · exact mem_erase_iff.mpr ⟨hne.symm, h.pause.held.authorized⟩
      · simpa [Scheduled.withdraw] using hne
    exact hwithdraw.pause.send (by simpa using hne)
  · exact h

theorem Kept.foldl_disconnect (h : Kept p a t) {l : List String}
    (hl : ∀ x ∈ l, canonicalAddress x ≠ some a) : Kept p a (l.foldl Transport.disconnect t) := by
  induction l generalizing t with
  | nil => exact h
  | cons peer l ih =>
    exact ih (h.disconnect (hl peer List.mem_cons_self)) fun x hx => hl x (List.mem_cons_of_mem _ hx)

theorem Kept.foldl_authorize (h : Kept p a t) (l : List String) :
    Kept p a (l.foldl Transport.authorize t) := by
  induction l generalizing t with
  | nil => exact h
  | cons peer l ih => exact ih (h.pause.authorize peer)

/-- A roster that allows the address goes on doing so at each of its steps. -/
theorem Kept.applyRoster {s : ClusterSession (Scheduled I)} (h : Kept p a s.transport)
    (hsafe : s.membership.Safe) {roster : Entries} (ha : a ∈ allowedSet roster) :
    Kept p a (s.applyRoster roster).2.transport := by
  have hleaves : ∀ x, Leaves s roster x → canonicalAddress x ≠ some a := by
    rintro x ⟨hx, hn⟩ hc
    rw [(hsafe.canonical x hx).canonicalAddress, Option.some.injEq] at hc
    exact hn (hc ▸ ha)
  rw [applyRoster_transport]
  apply Kept.foldl_authorize
  apply Kept.foldl_disconnect
  · exact h.foldl_disconnect fun x hx => hleaves x (leaves_of_mem_evicted hsafe hx)
  · exact fun x hx => hleaves x (mem_removed.mp hx)

theorem Kept.request {s : ClusterSession (Scheduled I)} (h : Kept p a s.transport)
    {op : SessionOp (Scheduled I)} (hop : op.IsRequest) : Kept p a (op.run s).transport := by
  cases op with
  | sync => exact h.pause
  | connected => exact h.pause
  | seedAddrs => exact h.pause
  | publish sender data => exact h.pause.send (by simp)
  | drain => exact h.pause.drain
  | addPeers addrs =>
    change Kept p a (s.transport.addPeers addrs).2
    rw [Scheduled.addPeers]
    split
    · exact h
    · next parsed _ =>
      generalize s.transport = t at h
      clear * - h
      induction parsed generalizing t with
      | nil => exact h
      | cons addr parsed ih => exact ih _ (h.pause.send (by simp))
  | _ => exact hop.elim

end Calls

section Runs

variable {V : LinkVerifier} {d d' : ClusterDaemon (Scheduled I)} {g : String}

/-- The requests after which a group still allows an address. -/
def Retaining (V : LinkVerifier) (g a : String) (d : ClusterDaemon (Scheduled I)) :
    Event (Scheduled I) → Prop
  | .request r => a ∈ allowedOf (step V d (.request r)) g
  | _ => False

/-- A group has a mesh in which the peer is kept. -/
def KeptIn (g : String) (p : PeerId) (a : String) (d : ClusterDaemon (Scheduled I)) : Prop :=
  ∃ s, d.groups[g]? = some s ∧ Kept p a s.transport

theorem KeptIn.congr (h : KeptIn g p a d) (hg : d'.groups[g]? = d.groups[g]?) : KeptIn g p a d' := by
  obtain ⟨s, hs, hkept⟩ := h
  exact ⟨s, hg.trans hs, hkept⟩

theorem kept_of_opened (h : KeptIn g p a d) {s : ClusterSession (Scheduled I)}
    (hs : Opened d g s) : d.groups[g]? = some s ∧ Kept p a s.transport := by
  obtain ⟨s', hs', hkept⟩ := h
  obtain hs | ⟨hnone, _⟩ := hs
  · rw [hs, Option.some.injEq] at hs'
    exact ⟨hs, hs' ▸ hkept⟩
  · rw [hnone] at hs'
    cases hs'

theorem KeptIn.step {e : Event (Scheduled I)} (hsound : Sound d) (h : KeptIn g p a d)
    (hs : Meeting (total (step V)) (Retaining V g a) d e d') : KeptIn g p a d' := by
  obtain ⟨rfl, hretain⟩ := hs
  cases e with
  | request r =>
    have ha : a ∈ allowedOf (step V d (.request r)) g := hretain
    have heff := onGroup_step V g d (.request r)
    generalize step V d (.request r) = d' at heff ha
    cases heff with
    | apart _ hsame => exact h.congr hsame.groups
    | refused => exact h
    | @rostered s roster links revocations _ _ hopen =>
      obtain ⟨hs, hkept⟩ := kept_of_opened h hopen
      rw [allowedOf_rostered] at ha
      exact ⟨_, groups_rostered, hkept.applyRoster (hsound.sessions g s hs) ha⟩
    | left =>
      rw [allowedOf_leave] at ha
      exact absurd ha ExtTreeSet.not_mem_empty
    | unchanged _ _ hg => exact h.congr hg
    | @worked _ _ s ops _ _ hopen hops hg =>
      obtain ⟨_, hkept⟩ := kept_of_opened h hopen
      refine ⟨_, hg, SessionOp.runAll_induction (P := fun s => Kept p a s.transport) ?_ hkept⟩
      exact fun op hop s hs => hs.request (hops op hop)
  | _ => exact hretain.elim

end Runs

section Samples

end Samples

end CitrateCluster.Staying
