import CitrateCluster.MeshRun
import CitrateCluster.Provenance

namespace CitrateCluster.Schedule

open Std (ExtTreeMap ExtTreeSet)
open Runs Roster Collections Transport PeerAddrs Session SwarmLoop SwarmSafety SwarmConnected
  MeshRun
open Provenance (pending pending_idle)

variable {Key : Type} {I : Libp2p Key} {w w' : Wire} {a : String}

/-- A step of the swarm task or of the network. -/
abbrev TaskAction (Key : Type) : Type := { e : Action Key // IsTask e }

/-- The messages that the task has accepted and the daemon has not drained yet. -/
def waiting (w : Wire) : List MeshMessage := w.inbox ++ pending w

/-- A step of the task, if it is enabled. -/
def attempt (I : Libp2p Key) (w : Wire) (e : TaskAction Key) : Wire := (w.step I e.1).getD w

/-- The mesh of one group with the swarm task at work inside the daemon's calls too: the schedule
says which steps the task takes before each of the daemon's next critical sections. `caught` notes
the addresses of which a message was waiting when they were last deauthorized. -/
structure Scheduled (I : Libp2p Key) where
  wire : Wire
  schedule : List (List (TaskAction Key))
  caught : AddressSet

namespace Scheduled

def pause (t : Scheduled I) : Scheduled I :=
  match t.schedule with
  | [] => t
  | es :: schedule => { t with wire := es.foldl (attempt I) t.wire, schedule }

/-- The critical section of `disconnect`. -/
def withdraw (t : Scheduled I) (a : String) : Scheduled I where
  wire := { t.wire.deauthorize a with surface := .disconnecting a }
  schedule := t.schedule
  caught :=
    if (waiting t.wire).any (·.sender == a) then t.caught.insert a else t.caught.erase a

def send (t : Scheduled I) (cmd : SwarmCmd) : Scheduled I :=
  { t with wire := { t.wire.send cmd with surface := .idle } }

def authorize (t : Scheduled I) (peer : String) : Scheduled I :=
  { t with wire := t.wire.authorize peer }

def drain (t : Scheduled I) : Scheduled I := { t with wire := { t.wire with inbox := [] } }

def disconnect (t : Scheduled I) (peer : String) : Scheduled I :=
  match canonicalAddress peer with
  | some a => (t.pause.withdraw a).pause.send (.disconnect a)
  | none => t

def addPeers (t : Scheduled I) (addrs : List String) : Except String Nat × Scheduled I :=
  match parsePeerAddrs I.parseMultiaddr t.wire.localPeer addrs with
  | .error e => (.error e, t)
  | .ok parsed => (.ok parsed.length, parsed.foldl (fun t a => t.pause.send (.dial a)) t)

end Scheduled

instance : MeshTransport (Scheduled I) where
  dial t peer := t.pause.authorize peer
  disconnect := Scheduled.disconnect
  connected t := (t.pause.wire.connected.toList, t.pause)
  publish t _ data := t.pause.send (.publish data)
  drain t := (t.pause.wire.inbox, t.pause.drain)
  authorize t addr := t.pause.authorize addr
  addPeers := Scheduled.addPeers
  seedAddrs t := (.ok t.pause.wire.seedAddrs, t.pause)

section Task

/-- A handler that accepts no message leaves those that wait as they are. -/
theorem mem_waiting_of_quiet (hinbox : w'.inbox = w.inbox)
    (ht : w'.task = w.task ∨ ∀ m, w'.task ≠ .delivering m) {m : MeshMessage}
    (hm : m ∈ waiting w') : m ∈ waiting w := by
  rw [waiting, hinbox] at hm
  obtain hm | hm := List.mem_append.mp hm
  · exact List.mem_append_left _ hm
  · obtain ht | ht := ht
    · rw [pending, ht] at hm
      exact List.mem_append_right _ hm
    · rw [pending] at hm
      split at hm
      · next m' hm' => exact absurd hm' (ht m')
      · exact absurd hm List.not_mem_nil

theorem mem_waiting_resume (hr : w.resume = some w') {m : MeshMessage} (hm : m ∈ waiting w') :
    m ∈ waiting w := by
  have hquiet : w'.inbox = w.inbox → (∀ m, w'.task ≠ .delivering m) → m ∈ waiting w :=
    fun hinbox ht => mem_waiting_of_quiet hinbox (.inr ht) hm
  cases resumes_of_resume hr with
  | @delivering m' ht =>
    rw [waiting, pending_idle rfl, List.append_nil] at hm
    obtain ⟨_, hinbox⟩ | ⟨_, hinbox⟩ := pushInbox_cases w.inbox m'
    · rw [hinbox] at hm
      exact List.mem_append_left _ hm
    · rwa [waiting, pending, ht, ← hinbox]
  | _ => exact hquiet rfl (by simp)

/-- A message that the task has just accepted bears an authorized address. -/
theorem mem_waiting_task {e : Action Key} (he : IsTask e) (hs : w.step I e = some w')
    {m : MeshMessage} (hm : m ∈ waiting w') : m ∈ waiting w ∨ m.sender ∈ w.authorized := by
  have hquiet : w'.inbox = w.inbox → (w'.task = w.task ∨ ∀ m, w'.task ≠ .delivering m) →
      m ∈ waiting w ∨ m.sender ∈ w.authorized :=
    fun hinbox ht => .inl (mem_waiting_of_quiet hinbox ht hm)
  cases moves_of_step hs with
  | message g =>
    obtain hsame | ⟨p, a, data, _, _, _, ha, _, hwire⟩ := receive_cases w g
    · rw [hsame] at hm
      exact .inl hm
    · rw [hwire] at hm
      obtain hm | hm := List.mem_append.mp hm
      · exact .inl (List.mem_append_left _ hm)
      · rw [List.mem_singleton.mp hm]
        exact .inr ha
  | resume hr => exact .inl (mem_waiting_resume hr hm)
  | established p =>
    simp only [Wire.established] at hquiet
    split at hquiet <;> exact hquiet rfl (.inl rfl)
  | identify p key =>
    obtain ⟨_, hwire⟩ | ⟨_, _, _, ⟨_, hwire⟩ | ⟨_, hwire⟩⟩ := identify_cases I w p key
    all_goals rw [hwire] at hquiet
    · exact hquiet rfl (.inl rfl)
    · exact hquiet rfl (.inr (by simp))
    · exact hquiet rfl (.inr (by simp))
  | closed _ hw =>
    obtain ⟨c, _, rfl⟩ := closeOne_eq hw
    split at hquiet
    · exact hquiet rfl (.inl rfl)
    · simp only [Wire.forget] at hquiet
      split at hquiet
      · exact hquiet rfl (.inr (by simp))
      · exact hquiet rfl (.inl rfl)
  | recv _ hr =>
    obtain ⟨b, queue, _, rfl⟩ | ⟨cmd, queue, _, _, rfl⟩ := recv_cases hr
    · exact hquiet rfl (.inr (by simp))
    · exact hquiet rfl (.inl rfl)
  | sweep => exact hquiet rfl (.inr (by simp))
  | tick => exact hquiet rfl (.inl rfl)
  | _ => exact he.elim

theorem taskRun_attempts (es : List (TaskAction Key)) (w : Wire) :
    TaskRun I w (es.foldl (attempt I) w) := by
  induction es generalizing w with
  | nil => exact ⟨[], .nil w⟩
  | cons e es ih =>
    obtain ⟨acts, hs⟩ := ih (attempt I w e)
    rw [List.foldl_cons]
    cases he : w.step I e.1 with
    | none =>
      have hw : attempt I w e = w := by rw [attempt, he, Option.getD_none]
      rw [hw] at hs ⊢
      exact ⟨acts, hs⟩
    | some w' =>
      have hw : attempt I w e = w' := by rw [attempt, he, Option.getD_some]
      rw [hw] at hs ⊢
      exact ⟨e.1 :: acts, .cons ⟨he, e.2⟩ hs⟩

theorem taskRun_pause (t : Scheduled I) : TaskRun I t.wire t.pause.wire := by
  rw [Scheduled.pause]
  split
  · exact ⟨[], .nil t.wire⟩
  · exact taskRun_attempts _ _

@[simp] theorem caught_pause (t : Scheduled I) : t.pause.caught = t.caught := by
  rw [Scheduled.pause]
  split <;> rfl

end Task

section Calls

variable {t : Scheduled I} {P : Scheduled I → Prop}

/-- What neither the task's work nor a call changes, unless the call authorizes an address. -/
structure Persists (a : String) (P : Scheduled I → Prop) : Prop where
  pause : ∀ t, P t → P t.pause
  withdraw : ∀ t b, P t → P (t.withdraw b)
  send : ∀ t cmd, P t → P (t.send cmd)
  authorize : ∀ t peer, canonicalAddress peer ≠ some a → P t → P (t.authorize peer)
  drain : ∀ t, P t → P t.drain

theorem Persists.disconnect (h : Persists a P) (ht : P t) (peer : String) :
    P (Transport.disconnect t peer) := by
  change P (t.disconnect peer)
  rw [Scheduled.disconnect]
  split
  · exact h.send _ _ (h.pause _ (h.withdraw _ _ (h.pause _ ht)))
  · exact ht

theorem Persists.foldl_disconnect (h : Persists a P) (l : List String) (ht : P t) :
    P (l.foldl Transport.disconnect t) := by
  induction l generalizing t with
  | nil => exact ht
  | cons peer l ih => exact ih (h.disconnect ht peer)

theorem Persists.foldl_authorize (h : Persists a P) {l : List String}
    (hl : ∀ x ∈ l, canonicalAddress x ≠ some a) (ht : P t) : P (l.foldl Transport.authorize t) := by
  induction l generalizing t with
  | nil => exact ht
  | cons peer l ih =>
    apply ih fun x hx => hl x (List.mem_cons_of_mem peer hx)
    exact h.authorize _ _ (hl peer List.mem_cons_self) (h.pause _ ht)

theorem canonicalAddress_ne_of_allowedSet {roster : Entries} (ha : a ∉ allowedSet roster) :
    ∀ x ∈ (allowedSet roster).toList, canonicalAddress x ≠ some a := by
  intro x hx hc
  rw [ExtTreeSet.mem_toList] at hx
  rw [(canonical_of_mem_allowedSet hx).canonicalAddress, Option.some.injEq] at hc
  exact ha (hc ▸ hx)

theorem Persists.addPeers (h : Persists a P) (ht : P t) (addrs : List String) :
    P (t.addPeers addrs).2 := by
  rw [Scheduled.addPeers]
  split
  · exact ht
  · next parsed _ =>
    clear * - h ht
    induction parsed generalizing t with
    | nil => exact ht
    | cons addr parsed ih => exact ih (h.send _ _ (h.pause _ ht))

/-- A session that does not allow the address never makes the call that authorizes it. -/
theorem Persists.run (h : Persists a P) {s : ClusterSession (Scheduled I)} (hs : P s.transport)
    (ha : a ∉ s.membership.allowed) {op : SessionOp (Scheduled I)}
    (hop : ∀ f, op = .change f → ∀ t, P t → P (f t)) : P (op.run s).transport := by
  cases op with
  | sync => exact h.pause _ hs
  | connected => exact h.pause _ hs
  | publish sender data => exact h.send _ _ (h.pause _ hs)
  | drain => exact h.drain _ (h.pause _ hs)
  | seedAddrs => exact h.pause _ hs
  | addPeers addrs => exact h.addPeers hs addrs
  | join address role =>
    obtain hsame | ⟨b, hb, hcanon, hjoin⟩ := s.join_cases address role
    · rw [SessionOp.run, hsame]
      exact hs
    · rw [SessionOp.run, hjoin]
      refine h.authorize _ _ (fun hc => ha ?_) (h.pause _ hs)
      rw [(canonical_of_canonicalAddress hcanon).canonicalAddress, Option.some.injEq] at hc
      exact hc ▸ hb
  | leave address =>
    obtain hsame | ⟨b, _, hleave⟩ := s.leave_cases address
    · rw [SessionOp.run, hsame]
      exact hs
    · rw [SessionOp.run, hleave]
      exact h.disconnect hs b
  | change f => exact hop f rfl _ hs

end Calls

end CitrateCluster.Schedule
