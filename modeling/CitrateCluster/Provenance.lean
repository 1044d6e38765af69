import CitrateCluster.SwarmSafety

namespace CitrateCluster.Provenance

open Std (ExtTreeMap ExtTreeSet)
open Roster Collections Transport PeerAddrs Runs SwarmLoop SwarmSafety

/-- A peer that an `identify` event has admitted: its key, the address the key resolves to, and
the addresses the group authorized at that moment. -/
structure Admission (Key : Type) where
  peer : PeerId
  key : Key
  address : String
  authorized : AddressSet

/-- A gossip message that was accepted, in the state it came in and after which admissions. -/
structure Receipt (Key : Type) where
  wire : Wire
  admissions : List (Admission Key)
  gossip : Wire.Gossip
  message : MeshMessage

/-- What has gone through a wire so far. -/
structure Log (Key : Type) where
  admissions : List (Admission Key)
  receipts : List (Receipt Key)
  drained : List MeshMessage

variable {Key : Type} {I : Libp2p Key} {w w' : Wire} {log log' : Log Key} {p : PeerId}
  {a topic : String}

def Log.new : Log Key := ⟨[], [], []⟩

/-- What a step adds to the log. -/
def Log.note (I : Libp2p Key) (log : Log Key) (w : Wire) : Action Key → Log Key
  | .identify p key =>
    match I.addressFromPublicKey key with
    | some a =>
      if I.toPeerId key = p ∧ a ∈ w.authorized then
        { log with admissions := log.admissions ++ [⟨p, key, a, w.authorized⟩] }
      else log
    | none => log
  | .message g =>
    match (w.receive g).task with
    | .delivering m => { log with receipts := log.receipts ++ [⟨w, log.admissions, g, m⟩] }
    | _ => log
  | .drain => { log with drained := log.drained ++ w.inbox }
  | _ => log

/-- A wire with its log takes the same steps. -/
def step (I : Libp2p Key) (s : Wire × Log Key) (e : Action Key) : Option (Wire × Log Key) :=
  (s.1.step I e).map fun w => (w, s.2.note I s.1 e)

/-- The log holds the admission of a peer under an address. -/
def Admits (admissions : List (Admission Key)) (p : PeerId) (a : String) : Prop :=
  ∃ adm ∈ admissions, adm.peer = p ∧ adm.address = a

/-- An admission is by the peer's own key, to an authorized address. -/
structure Admission.Sound (I : Libp2p Key) (adm : Admission Key) : Prop where
  peer : I.toPeerId adm.key = adm.peer
  address : I.addressFromPublicKey adm.key = some adm.address
  authorized : adm.address ∈ adm.authorized

/-- An accepted message comes from a live peer that was admitted before under the address it bears,
and carries a CID on the group's topic. -/
structure Receipt.Attested (topic : String) (r : Receipt Key) : Prop where
  topic : r.gossip.topic = topic
  source : ∃ p, r.gossip.source = some p ∧ r.wire.Live p ∧ Admits r.admissions p r.message.sender
  data : Wire.acceptPayload r.gossip.data = some r.message.data

/-- The message that the task has accepted and not yet put into the inbox. -/
def pending (w : Wire) : List MeshMessage :=
  match w.task with
  | .delivering m => [m]
  | _ => []

/-- What holds of a wire and its log at every step. -/
structure Traced (I : Libp2p Key) (topic : String) (w : Wire) (log : Log Key) : Prop where
  guarded : Guarded I w
  group : w.topic = topic
  filed : ∀ (p : PeerId) (a : String), w.peerAddr[p]? = some a → Admits log.admissions p a
  admitting : ∀ p a, w.task = .admitting p a → Admits log.admissions p a
  sound : ∀ adm ∈ log.admissions, adm.Sound I
  attested : ∀ r ∈ log.receipts, r.Attested topic ∧ r.admissions.Sublist log.admissions
  queue : (log.drained ++ w.inbox ++ pending w).Sublist (log.receipts.map (·.message))
  bound : w.inbox.length ≤ maxInbox

theorem traced_new (topic : String) (localPeer : PeerId) :
    Traced I topic (.new topic localPeer) .new where
  guarded := guarded_new topic localPeer
  group := rfl
  filed := fun p a h => by simp [Wire.new] at h
  admitting := fun p a h => by simp [Wire.new] at h
  sound := fun adm h => absurd h List.not_mem_nil
  attested := fun r h => absurd h List.not_mem_nil
  queue := List.Sublist.refl []
  bound := Nat.zero_le _

/-- A step that files nobody, accepts no message and leaves the inbox alone. -/
theorem Traced.frame (h : Traced I topic w log) (hg : Guarded I w') (htopic : w'.topic = w.topic)
    (hfiled : ∀ (p : PeerId) (a : String), w'.peerAddr[p]? = some a → w.peerAddr[p]? = some a)
    (hadm : ∀ p a, w'.task = .admitting p a → Admits log.admissions p a)
    (hinbox : w'.inbox = w.inbox) (hpending : (pending w').Sublist (pending w)) :
    Traced I topic w' log where
  guarded := hg
  group := htopic.trans h.group
  filed := fun p a hp => h.filed p a (hfiled p a hp)
  admitting := hadm
  sound := h.sound
  attested := h.attested
  queue := by
    rw [hinbox]
    exact ((List.Sublist.refl _).append hpending).trans h.queue
  bound := by
    rw [hinbox]
    exact h.bound

theorem pending_idle (ht : w.task = .idle) : pending w = [] := by
  rw [pending, ht]

/-- The surface leaves the task and its tables alone. -/
theorem Traced.surface (h : Traced I topic w log) (hg : Guarded I w') (htopic : w'.topic = w.topic)
    (hpeer : w'.peerAddr = w.peerAddr) (htask : w'.task = w.task) (hinbox : w'.inbox = w.inbox) :
    Traced I topic w' log := by
  apply h.frame hg htopic
  · intro p a hp
    rwa [hpeer] at hp
  · intro p a ht
    rw [htask] at ht
    exact h.admitting p a ht
  · exact hinbox
  · rw [pending, pending, htask]

/-- A handler that starts: the task was idle. -/
theorem Traced.started (h : Traced I topic w log) (hg : Guarded I w') (htopic : w'.topic = w.topic)
    (hfiled : ∀ (p : PeerId) (a : String), w'.peerAddr[p]? = some a → w.peerAddr[p]? = some a)
    (hadm : ∀ p a, w'.task ≠ .admitting p a) (hdeliver : ∀ m, w'.task ≠ .delivering m)
    (hinbox : w'.inbox = w.inbox) : Traced I topic w' log := by
  apply h.frame hg htopic hfiled (fun p a ht => absurd ht (hadm p a)) hinbox
  have hnone : pending w' = [] := by
    rw [pending]
    split
    · next m ht => exact absurd ht (hdeliver m)
    · rfl
  rw [hnone]
  exact List.nil_sublist _

theorem Admits.append {admissions : List (Admission Key)} (h : Admits admissions p a)
    (adm : Admission Key) : Admits (admissions ++ [adm]) p a := by
  obtain ⟨adm', hm, hadm⟩ := h
  exact ⟨adm', List.mem_append_left _ hm, hadm⟩

/-- One more admission on record. -/
theorem Traced.admitted (h : Traced I topic w log) {adm : Admission Key} (hadm : adm.Sound I) :
    Traced I topic w { log with admissions := log.admissions ++ [adm] } where
  guarded := h.guarded
  group := h.group
  filed := fun p a hp => (h.filed p a hp).append adm
  admitting := fun p a ht => (h.admitting p a ht).append adm
  sound := by
    intro adm' hm
    obtain hm | hm := List.mem_append.mp hm
    · exact h.sound adm' hm
    · rw [List.mem_singleton.mp hm]
      exact hadm
  attested := by
    intro r hr
    obtain ⟨hr, hsub⟩ := h.attested r hr
    exact ⟨hr, hsub.trans (List.sublist_append_left _ _)⟩
  queue := h.queue
  bound := h.bound

theorem Traced.identify (h : Traced I topic w log) (ht : w.task = .idle) (hl : w.Live p)
    (key : Key) : Traced I topic (w.identify I p key) (log.note I w (.identify p key)) := by
  have hg := h.guarded.identify (I := I) ht hl key
  have hidle : ∀ t : Task, t ≠ .idle → w.task ≠ t := fun t hne he => hne (he.symm.trans ht)
  obtain ⟨hnone, hwire⟩ | ⟨a, hkey, ha, ⟨hauth, hwire⟩ | ⟨hauth, hwire⟩⟩ :=
    identify_cases I w p key
  · have hlog : log.note I w (.identify p key) = log := by
      simp only [Log.note]
      split
      · next a ha => rw [if_neg fun hc => hnone hc.1 a ha]
      · rfl
    rw [hlog]
    rw [hwire] at hg ⊢
    exact h.started hg rfl (fun _ _ hp => hp) (fun _ _ => hidle _ (by simp))
      (fun _ => hidle _ (by simp)) rfl
  · have hlog : log.note I w (.identify p key) =
        { log with admissions := log.admissions ++ [⟨p, key, a, w.authorized⟩] } := by
      simp [Log.note, ha, hkey, hauth]
    rw [hlog]
    refine (h.admitted ⟨hkey, ha, hauth⟩).frame hg ?_ ?_ ?_ ?_ ?_
    all_goals rw [hwire]
    · exact fun _ _ hp => hp
    · intro q b hq
      cases hq
      exact ⟨_, List.mem_append_right _ List.mem_cons_self, rfl, rfl⟩
    · exact List.nil_sublist _
  · have hlog : log.note I w (.identify p key) = log := by
      simp [Log.note, ha, hauth]
    rw [hlog]
    rw [hwire] at hg ⊢
    exact h.started hg rfl (fun _ _ hp => hp) (by simp) (by simp) rfl

theorem Traced.receive (h : Traced I topic w log) (ht : w.task = .idle) (g : Wire.Gossip) :
    Traced I topic (w.receive g) (log.note I w (.message g)) := by
  have hg := h.guarded.receive ht g
  obtain hsame | ⟨p, a, data, htopic, hp, ha, _, hdata, hwire⟩ := receive_cases w g
  · have hlog : log.note I w (.message g) = log := by
      simp only [Log.note, hsame, ht]
    rw [hlog, hsame]
    exact h
  · have hlog : log.note I w (.message g) =
        { log with receipts := log.receipts ++ [⟨w, log.admissions, g, ⟨a, data⟩⟩] } := by
      simp only [Log.note, hwire]
    rw [hlog]
    rw [hwire] at hg ⊢
    refine ⟨hg, h.group, h.filed, (fun q b hq => by cases hq), h.sound, ?_, ?_, h.bound⟩
    · intro r hr
      obtain hr | hr := List.mem_append.mp hr
      · exact h.attested r hr
      · rw [List.mem_singleton.mp hr]
        exact ⟨⟨htopic.trans h.group, ⟨p, hp, (h.guarded.known p a ha).2, h.filed p a ha⟩, hdata⟩,
          List.Sublist.refl _⟩
    · rw [List.map_append]
      have hqueue := h.queue
      rw [pending_idle ht, List.append_nil] at hqueue
      exact hqueue.append (List.Sublist.refl _)

/-- An accepted message enters the inbox, or is dropped when the inbox is full. -/
theorem Traced.deliver (h : Traced I topic w log) {m : MeshMessage} (ht : w.task = .delivering m)
    (hg : Guarded I { w with inbox := Wire.pushInbox w.inbox m, task := .idle }) :
    Traced I topic { w with inbox := Wire.pushInbox w.inbox m, task := .idle } log := by
  have hqueue := h.queue
  rw [pending, ht] at hqueue
  refine ⟨hg, h.group, h.filed, (fun q b hq => by cases hq), h.sound, h.attested, ?_, ?_⟩
  · rw [pending_idle rfl, List.append_nil]
    obtain ⟨_, hinbox⟩ | ⟨_, hinbox⟩ := pushInbox_cases w.inbox m
    · rw [hinbox]
      exact (List.sublist_append_left _ _).trans hqueue
    · rw [hinbox, ← List.append_assoc]
      exact hqueue
  · obtain ⟨_, hinbox⟩ | ⟨hroom, hinbox⟩ := pushInbox_cases w.inbox m
    · rw [hinbox]
      exact h.bound
    · rw [hinbox, List.length_append]
      exact hroom

theorem Traced.resume (h : Traced I topic w log) (hr : w.resume = some w') :
    Traced I topic w' log := by
  have hg := h.guarded.resume hr
  have hquiet : ∀ {w₁ : Wire}, Guarded I w₁ → w₁.topic = w.topic → w₁.peerAddr = w.peerAddr →
      (∀ p a, w₁.task ≠ .admitting p a) → (∀ m, w₁.task ≠ .delivering m) →
      w₁.inbox = w.inbox → Traced I topic w₁ log := fun hg htopic hpeer hadm hdel hinbox =>
    h.started hg htopic (fun p a hp => by rwa [hpeer] at hp) hadm hdel hinbox
  cases resumes_of_resume hr with
  | @admitting p a ht =>
    refine ⟨hg, h.group, fun q b hq => ?_, (fun q b hq => by cases hq), h.sound, h.attested, ?_,
      h.bound⟩
    · obtain ⟨rfl, rfl⟩ | ⟨_, hq⟩ := getElem?_insert_eq_some.mp hq
      · exact h.admitting q b ht
      · exact h.filed q b hq
    · have hqueue := h.queue
      rwa [pending, ht] at hqueue
  | delivering ht => exact h.deliver ht hg
  | _ => exact hquiet hg rfl rfl (by simp) (by simp) rfl

theorem Traced.closed (h : Traced I topic w log) (ht : w.task = .idle) {fresh : Bool}
    (hw : w.closeOne p fresh = some w') :
    Traced I topic (if w'.Live p then w' else w'.forget p) log := by
  have hg := h.guarded.closed ht hw
  have hidle : ∀ t : Task, t ≠ .idle → w.task ≠ t := fun t hne he => hne (he.symm.trans ht)
  obtain ⟨c, _, rfl⟩ := closeOne_eq hw
  split at hg
  · next hl =>
    rw [if_pos hl]
    exact h.started hg rfl (fun _ _ hp => hp) (fun _ _ => hidle _ (by simp))
      (fun _ => hidle _ (by simp)) rfl
  · next hl =>
    rw [if_neg hl]
    cases ha : (w.setConns p c).peerAddr[p]? with
    | some a =>
      simp only [Wire.forget, ha] at hg ⊢
      exact h.started hg rfl (fun q b hq => (getElem?_erase_eq_some.mp hq).2) (by simp) (by simp)
        rfl
    | none =>
      simp only [Wire.forget, ha] at hg ⊢
      exact h.started hg rfl (fun _ _ hp => hp) (fun _ _ => hidle _ (by simp))
        (fun _ => hidle _ (by simp)) rfl

theorem Traced.drain (h : Traced I topic w log) (hg : Guarded I { w with inbox := [] }) :
    Traced I topic { w with inbox := [] } { log with drained := log.drained ++ w.inbox } where
  guarded := hg
  group := h.group
  filed := h.filed
  admitting := h.admitting
  sound := h.sound
  attested := h.attested
  queue := by
    have hpending : pending { w with inbox := [] } = pending w := rfl
    rw [hpending, List.append_nil]
    exact h.queue
  bound := Nat.zero_le _

theorem Traced.recv (h : Traced I topic w log) (ht : w.task = .idle) (hr : w.recv = some w') :
    Traced I topic w' log := by
  have hg := h.guarded.recv ht hr
  have hidle : ∀ t : Task, t ≠ .idle → w.task ≠ t := fun t hne he => hne (he.symm.trans ht)
  obtain ⟨a, queue, _, rfl⟩ | ⟨cmd, queue, _, _, rfl⟩ := recv_cases hr
  · exact h.started hg rfl (fun _ _ hp => hp) (by simp) (by simp) rfl
  · exact h.started hg rfl (fun _ _ hp => hp) (fun _ _ => hidle _ (by simp))
      (fun _ => hidle _ (by simp)) rfl

theorem Traced.step (h : Traced I topic w log) {e : Action Key}
    (hs : enabled (step I) (w, log) e (w', log')) : Traced I topic w' log' := by
  simp only [enabled, Provenance.step, Option.map_eq_some_iff, Prod.mk.injEq] at hs
  obtain ⟨w₁, hs, rfl, rfl⟩ := hs
  have hg := h.guarded.step hs
  cases moves_of_step hs with
  | identify p key ht hl => exact h.identify ht hl key
  | message g ht => exact h.receive ht g
  | resume hr => exact h.resume hr
  | drain => exact h.drain hg
  | closed ht hw => exact h.closed ht hw
  | recv ht hr => exact h.recv ht hr
  | sweep ht => exact h.started hg rfl (fun _ _ hp => hp) (by simp) (by simp) rfl
  | established p =>
    revert hg
    simp only [Wire.established]
    split
    · exact fun hg => h.surface hg rfl rfl rfl rfl
    · exact fun hg => h.surface hg rfl rfl rfl rfl
  | authorize peer =>
    revert hg
    rw [Wire.authorize]
    split
    · exact fun hg => h.surface hg rfl rfl rfl rfl
    · exact fun _ => h
  | ignore => exact h
  | disconnect | send | publish | dial | tick => exact h.surface hg rfl rfl rfl rfl

theorem traced_of_steps {localPeer : PeerId} {es : List (Action Key)}
    (h : Steps (enabled (step I)) (.new topic localPeer, .new) es (w, log)) :
    Traced I topic w log := by
  have htraced := h.invariant (I := fun s : Wire × Log Key => Traced I topic s.1 s.2)
    (fun _ _ _ ht hs => ht.step hs) (traced_new topic localPeer)
  exact htraced

/-- In every run, what `drain` has returned and the inbox still holds is made of accepted messages,
in their order and each at most once. Every accepted message is on the group's topic, carries a
well-formed CID, and comes from a signer with a live connection, whom an `identify` event had
admitted to an authorized address; it bears the address of that signer's key. -/
theorem drained_messages_are_attested {localPeer : PeerId} {es : List (Action Key)}
    (h : Steps (enabled (step I)) (.new topic localPeer, .new) es (w, log)) :
    (log.drained ++ w.inbox).Sublist (log.receipts.map (·.message)) ∧
      w.inbox.length ≤ maxInbox ∧
      ∀ r ∈ log.receipts, r.gossip.topic = topic ∧ isValidCid r.message.data = true ∧
        ∃ p, r.gossip.source = some p ∧ r.wire.Live p ∧
          (∀ key, I.toPeerId key = p → I.addressFromPublicKey key = some r.message.sender) ∧
          ∃ adm ∈ r.admissions, adm.peer = p ∧ adm.address = r.message.sender ∧
            adm.address ∈ adm.authorized := by
  have htraced := traced_of_steps h
  refine ⟨(List.sublist_append_left _ _).trans htraced.queue, htraced.bound, fun r hr => ?_⟩
  obtain ⟨hr, hsub⟩ := htraced.attested r hr
  obtain ⟨p, hp, hl, adm, hm, rfl, hsender⟩ := hr.source
  have hsound := htraced.sound adm (hsub.subset hm)
  refine ⟨hr.topic, ?_, adm.peer, hp, hl, fun key hkey => ?_, adm, hm, rfl, hsender,
    hsound.authorized⟩
  · exact (Option.filter_eq_some_iff.mp hr.data).2
  · rw [I.toPeerId_injective (hkey.trans hsound.peer.symm), hsound.address, hsender]

/-- A member shares a file, and the daemon drains it. -/
def sharing (cid : String) : List (Action String) :=
  [.authorize m1, .established m1, .identify m1 m1, .resume, .resume,
    .message ⟨"group", some m1, Text.bytes cid⟩, .resume, .drain]

theorem drained_messages_are_attested_sample :
    ∃ w log, Steps (enabled (step plainLibp2p)) (.new "group" m2, .new) (sharing (cidOf '1'))
        (w, log) ∧
      ⟨m1, cidOf '1'⟩ ∈ log.drained ∧ ∃ r ∈ log.receipts, r.message = ⟨m1, cidOf '1'⟩ ∧
        r.gossip.topic = "group" := by
  have hrun : ((sharing (cidOf '1')).foldlM (step plainLibp2p) (.new "group" m2, .new)).any
      (fun s => decide (⟨m1, cidOf '1'⟩ ∈ s.2.drained)) = true := by
    decide +kernel
  obtain ⟨⟨w, log⟩, hs, hm⟩ := (Option.any_eq_true _ _).mp hrun
  have hm : ⟨m1, cidOf '1'⟩ ∈ log.drained := of_decide_eq_true hm
  have hsteps := steps_enabled_iff.mpr hs
  obtain ⟨hsub, _, hreceipts⟩ := drained_messages_are_attested hsteps
  obtain ⟨r, hr, hmessage⟩ := List.mem_map.mp (hsub.subset (List.mem_append_left _ hm))
  exact ⟨w, log, hsteps, hm, r, hr, hmessage, (hreceipts r hr).1⟩

end CitrateCluster.Provenance
