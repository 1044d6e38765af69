import CitrateCluster.SwarmSafety

namespace CitrateCluster.SwarmClock

open Std (ExtTreeMap ExtTreeSet)
open Roster Collections PeerAddrs Runs SwarmLoop SwarmSafety

variable {Key : Type} {I : Libp2p Key} {w w' : Wire} {p q : PeerId} {a : String}

/-- A peer that is filed under an address and not gated. -/
def Admitted (w : Wire) (p : PeerId) : Prop := p ∈ w.peerAddr ∧ p ∉ w.blacklist

/-- The handler of an `identify` event has yet to admit or refuse the peer. -/
def Deciding (w : Wire) (p : PeerId) : Prop := (∃ a, w.task = .admitting p a) ∨ w.task = .refusing p

/-- Every connection that nobody has told to close yet belongs to an admitted peer, or to one on
the identify clock, or to one that is being decided on. -/
def Clocked (w : Wire) : Prop :=
  ∀ p, 0 < (w.conns p).fresh → Admitted w p ∨ p ∈ w.unidentified ∨ Deciding w p

/-- A peer that is filed already is not gated when it opens another connection, or is on the clock
anyway. -/
def Timely (w : Wire) : Action Key → Prop
  | .established p => p ∈ w.peerAddr → p ∉ w.blacklist ∨ p ∈ w.unidentified
  | _ => True

instance (w : Wire) : (e : Action Key) → Decidable (Timely w e)
  | .established p =>
    inferInstanceAs (Decidable (p ∈ w.peerAddr → p ∉ w.blacklist ∨ p ∈ w.unidentified))
  | .authorize _ | .disconnect _ | .send | .drain | .publish _ | .dial _ | .identify _ _
  | .closed _ _ | .message _ | .recv | .sweep | .resume | .tick _ => .isTrue trivial

theorem clocked_new (topic : String) (localPeer : PeerId) : Clocked (.new topic localPeer) := by
  intro p hp
  simp [Wire.new] at hp

theorem not_deciding (ht : w.task = .idle) : ¬ Deciding w p := by
  rintro (⟨a, ha⟩ | hr)
  · simp [ht] at ha
  · simp [ht] at hr

/-- A step that leaves the connections and the tables of the task alone. -/
theorem Clocked.same (h : Clocked w) (hconns : w'.conns = w.conns)
    (hpeer : w'.peerAddr = w.peerAddr) (hgate : w'.blacklist = w.blacklist)
    (hclock : w'.unidentified = w.unidentified)
    (hdec : ∀ q, Deciding w q → Deciding w' q) : Clocked w' := by
  intro q hq
  rw [hconns] at hq
  rw [Admitted, hpeer, hgate, hclock]
  exact (h q hq).imp_right (Or.imp_right (hdec q))

/-- What a step leaves alone of a peer that it is not about. -/
structure Spared (w w' : Wire) (q : PeerId) : Prop where
  conns : w'.conns q = w.conns q
  filed : q ∈ w.peerAddr → q ∈ w'.peerAddr
  gate : q ∈ w'.blacklist → q ∈ w.blacklist
  clock : q ∈ w.unidentified → q ∈ w'.unidentified
  decided : ¬ Deciding w q

/-- A step that is about one peer. -/
theorem Clocked.but (h : Clocked w) (hother : ∀ q, q ≠ p → Spared w w' q)
    (hp : 0 < (w'.conns p).fresh → Admitted w' p ∨ p ∈ w'.unidentified ∨ Deciding w' p) :
    Clocked w' := by
  intro q hq
  by_cases hqp : q = p
  · subst hqp
    exact hp hq
  · have hs := hother q hqp
    rw [hs.conns] at hq
    obtain ⟨hfiled, hgate⟩ | hclock | hdec := h q hq
    · exact .inl ⟨hs.filed hfiled, fun hg => hgate (hs.gate hg)⟩
    · exact .inr (.inl (hs.clock hclock))
    · exact absurd hdec hs.decided

theorem fresh_disconnectPeerId : ((w.disconnectPeerId p).conns p).fresh = 0 := by
  simp [Wire.disconnectPeerId, Wire.setConns]

theorem conns_setConns_of_ne (h : q ≠ p) (c : Conns) : (w.setConns p c).conns q = w.conns q := by
  simp [Wire.setConns, h]

theorem mem_clock_erase (h : q ≠ p) (hq : q ∈ w.unidentified) : q ∈ w.unidentified.erase p :=
  mem_keys_erase.mpr ⟨h, hq⟩

theorem Clocked.established (h : Clocked w) (ht : w.task = .idle)
    (hp : Timely w (.established p : Action Key)) : Clocked (w.established p) := by
  simp only [Wire.established]
  split
  · next hm =>
    have hfiled : p ∈ w.peerAddr := ExtTreeMap.contains_iff_mem.mp hm
    refine h.but (p := p) (fun q hq => ⟨conns_setConns_of_ne hq _, id, id, id, not_deciding ht⟩)
      fun _ => ?_
    obtain hgate | hclock := hp hfiled
    · exact .inl ⟨hfiled, hgate⟩
    · exact .inr (.inl hclock)
  · refine h.but (p := p) (fun q hq => ⟨conns_setConns_of_ne hq _, id, fun hg => ?_, fun hc => ?_,
      not_deciding ht⟩) fun _ => .inr (.inl ?_)
    · exact (mem_gatePeer.mp hg).resolve_left hq
    · exact ExtTreeMap.mem_insertIfNew.mpr (.inr hc)
    · exact ExtTreeMap.mem_insertIfNew_self

theorem Clocked.identify (h : Clocked w) (ht : w.task = .idle) (key : Key) :
    Clocked (w.identify I p key) := by
  have hdrop : Clocked (({ w with unidentified := w.unidentified.erase p } : Wire).disconnectPeerId
      p) := by
    refine h.but (p := p) (fun q hq => ⟨conns_setConns_of_ne hq _, id, id, mem_clock_erase hq,
      not_deciding ht⟩) fun hfresh => ?_
    rw [fresh_disconnectPeerId] at hfresh
    exact absurd hfresh (Nat.lt_irrefl 0)
  obtain ⟨_, hw⟩ | ⟨a, _, _, ⟨_, hw⟩ | ⟨_, hw⟩⟩ := identify_cases I w p key
  · rwa [hw]
  · rw [hw]
    exact h.but (p := p) (fun q hq => ⟨rfl, id, id, mem_clock_erase hq, not_deciding ht⟩)
      fun _ => .inr (.inr (.inl ⟨a, rfl⟩))
  · rw [hw]
    exact h.but (p := p) (fun q hq => ⟨rfl, id, id, mem_clock_erase hq, not_deciding ht⟩)
      fun _ => .inr (.inr (.inr rfl))

theorem Clocked.closed (h : Clocked w) (ht : w.task = .idle) {fresh : Bool}
    (hw : w.closeOne p fresh = some w') :
    Clocked (if w'.Live p then w' else w'.forget p) := by
  have hfresh : w'.conns = (w.setConns p (w'.conns p)).conns ∧
      (w'.conns p).fresh ≤ (w.conns p).fresh ∧ w' = w.setConns p (w'.conns p) := by
    simp only [Wire.closeOne] at hw
    split at hw <;>
      simp only [Option.ite_none_right_eq_some, Option.some.injEq] at hw <;>
      obtain ⟨_, rfl⟩ := hw <;> simp [Wire.setConns]
  obtain ⟨_, hle, heq⟩ := hfresh
  generalize w'.conns p = c at hle heq
  subst heq
  split
  · refine h.but (p := p) (fun q hq => ⟨conns_setConns_of_ne hq _, id, id, id, not_deciding ht⟩)
      fun hc => ?_
    have hc' : 0 < (w.conns p).fresh := by
      simp only [Wire.setConns, Function.update_self] at hc
      omega
    obtain hadm | hclock | hdec := h p hc'
    · exact .inl hadm
    · exact .inr (.inl hclock)
    · exact absurd hdec (not_deciding ht)
  · next hlive =>
    have hzero : c.fresh = 0 := by
      rw [live_setConns, if_pos rfl, Conns.total] at hlive
      omega
    have hgate : ∀ q, q ∈ w.blacklist.erase p → q ∈ w.blacklist := fun q hq =>
      (mem_erase_iff.mp hq).2
    have hnone : ¬ 0 < ((w.setConns p c).conns p).fresh := by
      simp [Wire.setConns, hzero]
    simp only [Wire.forget]
    split
    · refine h.but (p := p) (fun q hq => ⟨conns_setConns_of_ne hq _, ?_, hgate q, mem_clock_erase hq,
        not_deciding ht⟩) fun hc => absurd hc hnone
      exact fun hfiled => mem_keys_erase.mpr ⟨hq, hfiled⟩
    · exact h.but (p := p) (fun q hq => ⟨conns_setConns_of_ne hq _, id, hgate q,
        mem_clock_erase hq, not_deciding ht⟩) fun hc => absurd hc hnone

theorem not_fresh_disconnectPeerId : ¬ 0 < ((w.disconnectPeerId p).conns p).fresh := by
  rw [fresh_disconnectPeerId]
  exact Nat.lt_irrefl 0

/-- Telling the connections of a gated peer to close leaves every other peer alone. -/
theorem spared_gated (hq : q ≠ p) (hconns : w'.conns = (w.disconnectPeerId p).conns)
    (hpeer : w'.peerAddr = w.peerAddr) (hgate : w'.blacklist = w.blacklist.insert p)
    (hclock : q ∈ w.unidentified → q ∈ w'.unidentified) (hdec : ¬ Deciding w q) :
    Spared w w' q where
  conns := by
    rw [hconns]
    exact conns_setConns_of_ne hq _
  filed := by
    rw [hpeer]
    exact id
  gate := by
    rw [hgate, mem_insert_iff]
    exact fun hg => hg.resolve_left hq
  clock := hclock
  decided := hdec

theorem Clocked.resume (h : Clocked w) (hr : w.resume = some w') : Clocked w' := by
  have hother : ∀ {t : Task} {q : PeerId}, w.task = t → (∀ b, t ≠ .admitting q b) →
      t ≠ .refusing q → ¬ Deciding w q := by
    rintro t q ht hadm href (⟨b, hb⟩ | hb)
    · exact hadm b (ht.symm.trans hb)
    · exact href (ht.symm.trans hb)
  cases resumes_of_resume hr with
  | @admitting p a ht =>
    refine h.but (p := p) (fun q hq => ⟨rfl, ?_, fun hg => (mem_erase_iff.mp hg).2, id, ?_⟩)
      fun _ => .inl ⟨mem_keys_insert.mpr (.inl rfl), fun hg => (mem_erase_iff.mp hg).1 rfl⟩
    · exact fun hfiled => mem_keys_insert.mpr (.inr hfiled)
    · exact hother ht (by simp [Ne.symm hq]) (by simp)
  | @refusing p ht =>
    exact h.but (p := p) (fun q hq => spared_gated hq rfl rfl rfl id
      (hother ht (by simp) (by simp [Ne.symm hq]))) fun hc => absurd hc not_fresh_disconnectPeerId
  | @evicting a p ps ht =>
    exact h.but (p := p) (fun q hq => spared_gated hq rfl rfl rfl id
      (hother ht (by simp) (by simp))) fun hc => absurd hc not_fresh_disconnectPeerId
  | @sweeping p ps ht =>
    exact h.but (p := p) (fun q hq => spared_gated hq rfl rfl rfl (mem_clock_erase hq)
      (hother ht (by simp) (by simp))) fun hc => absurd hc not_fresh_disconnectPeerId
  | connecting ht | delivering ht | forgetting ht | evicted ht | swept ht =>
    exact h.same rfl rfl rfl rfl fun q hq => absurd hq (hother ht (by simp) (by simp))

theorem Clocked.receive (h : Clocked w) (ht : w.task = .idle) (g : Wire.Gossip) :
    Clocked (w.receive g) := by
  obtain hw | ⟨_, _, _, _, _, _, _, _, hw⟩ := receive_cases w g
  · rwa [hw]
  · rw [hw]
    exact h.same rfl rfl rfl rfl fun q hq => absurd hq (not_deciding ht)

theorem Clocked.recv (h : Clocked w) (ht : w.task = .idle) (hr : w.recv = some w') :
    Clocked w' := by
  obtain ⟨a, queue, _, rfl⟩ | ⟨cmd, queue, _, _, rfl⟩ := recv_cases hr
  · exact h.same rfl rfl rfl rfl fun q hq => absurd hq (not_deciding ht)
  · exact h.same rfl rfl rfl rfl fun q hq => hq

theorem Clocked.step (h : Clocked w) {e : Action Key}
    (hs : Meeting (enabled (Wire.step I)) Timely w e w') : Clocked w' := by
  obtain ⟨hs, htimely⟩ := hs
  cases moves_of_step hs with
  | authorize peer =>
    rw [Wire.authorize]
    split
    · exact h.same rfl rfl rfl rfl fun _ hq => hq
    · exact h
  | ignore => exact h
  | established p ht => exact h.established ht htimely
  | identify p key ht => exact h.identify ht key
  | closed ht hw => exact h.closed ht hw
  | message g ht => exact h.receive ht g
  | recv ht hr => exact h.recv ht hr
  | sweep ht => exact h.same rfl rfl rfl rfl fun q hq => absurd hq (not_deciding ht)
  | resume hr => exact h.resume hr
  | disconnect | send | drain | publish | dial | tick =>
    exact h.same rfl rfl rfl rfl fun _ hq => hq

theorem clocked_of_steps {topic : String} {localPeer : PeerId} {es : List (Action Key)}
    (h : Steps (Meeting (enabled (Wire.step I)) Timely) (.new topic localPeer) es w) : Clocked w :=
  h.invariant (fun _ _ _ hc hs => hc.step hs) (clocked_new topic localPeer)

/-- A filed peer that is gated and off the clock opens a connection: nothing will close it. -/
theorem stuck_of_not_timely (hp : ¬ Timely w (.established p : Action Key)) :
    0 < ((w.established p).conns p).fresh ∧ ¬ Admitted (w.established p) p ∧
      p ∉ (w.established p).unidentified := by
  simp only [Timely, not_forall, not_or, not_not] at hp
  obtain ⟨hfiled, hgate, hclock⟩ := hp
  have hw : w.established p = w.setConns p ⟨(w.conns p).closing, (w.conns p).fresh + 1⟩ := by
    have hm : (w.setConns p ⟨(w.conns p).closing, (w.conns p).fresh + 1⟩).peerAddr.contains p =
        true := ExtTreeMap.contains_iff_mem.mpr hfiled
    simp only [Wire.established, hm, if_true]
  rw [hw]
  refine ⟨?_, fun hadm => hadm.2 hgate, hclock⟩
  simp [Wire.setConns]

/-- As long as no filed peer that is gated and off the clock opens a connection, every connection
that nobody has told to close belongs to an admitted peer or to one on the identify clock, unless
the task is within the handler that decides on the peer. When such a peer does open a connection,
that fails. -/
theorem live_peers_admitted_or_clocked (I : Libp2p Key) :
    (∀ topic localPeer es w,
      Steps (Meeting (enabled (Wire.step I)) Timely) (.new topic localPeer) es w →
      ∀ p, 0 < (w.conns p).fresh →
        Admitted w p ∨ p ∈ w.unidentified ∨ w.task ≠ .idle ∧ Deciding w p) ∧
      ∀ w p, w.task = .idle → ¬ Timely w (.established p : Action Key) →
        ∃ w', w.step I (.established p) = some w' ∧ w'.task = .idle ∧ 0 < (w'.conns p).fresh ∧
          ¬ Admitted w' p ∧ p ∉ w'.unidentified := by
  constructor
  · intro topic localPeer es w h p hp
    refine (clocked_of_steps h p hp).imp_right (Or.imp_right fun hdec => ⟨?_, hdec⟩)
    exact fun ht => not_deciding ht hdec
  · intro w p ht hp
    refine ⟨w.established p, by rw [Wire.step, if_pos ht], ?_, stuck_of_not_timely hp⟩
    simp only [Wire.established]
    split <;> exact ht

theorem live_peers_admitted_or_clocked_sample :
    ∃ w, Steps (Meeting (enabled (Wire.step plainLibp2p)) Timely) (.new "group" m2)
      [.authorize m1, .established m1, .identify m1 m1, .resume, .resume, .established m1] w ∧
      0 < (w.conns m1).fresh ∧ (Admitted w m1 ∨ m1 ∈ w.unidentified) := by
  have hrun : (([.authorize m1, .established m1, .identify m1 m1, .resume, .resume,
      .established m1] : List (Action String)).foldlM
        (fun w e => if Timely w e then Wire.step plainLibp2p w e else none)
        (.new "group" m2)).any (fun w => decide (w.task = .idle) && decide (0 < (w.conns m1).fresh)) =
          true := by
    decide +kernel
  obtain ⟨w, hw, hprop⟩ := (Option.any_eq_true _ _).mp hrun
  simp only [Bool.and_eq_true, decide_eq_true_eq] at hprop
  have hsteps := steps_enabled_iff.mpr hw
  rw [← meeting_enabled] at hsteps
  refine ⟨w, hsteps, hprop.2, ?_⟩
  obtain hadm | hclock | ⟨ht, _⟩ := (live_peers_admitted_or_clocked plainLibp2p).1 "group" m2 _ w
    hsteps m1 hprop.2
  · exact .inl hadm
  · exact .inr hclock
  · exact absurd hprop.1 ht

/-- The trace of a peer that is evicted and reconnects before its old connection has closed. -/
def reconnecting : List (Action String) :=
  [.authorize m1, .established m1, .identify m1 m1, .resume, .resume, .disconnect m1, .send, .recv,
    .resume, .resume, .established m1]

theorem reconnected_peer_gated_off_clock :
    ¬ ∀ topic localPeer es w, Steps (enabled (Wire.step plainLibp2p)) (.new topic localPeer) es w →
      w.task = .idle → ∀ p, 0 < (w.conns p).fresh → Admitted w p ∨ p ∈ w.unidentified := by
  intro h
  have hrun : (reconnecting.foldlM (Wire.step plainLibp2p) (.new "group" m2)).any (fun w =>
      decide (w.task = .idle) && decide (0 < (w.conns m1).fresh) && w.blacklist.contains m1 &&
        !w.unidentified.contains m1) = true := by
    decide +kernel
  obtain ⟨w, hw, hprop⟩ := (Option.any_eq_true _ _).mp hrun
  simp only [Bool.and_eq_true, decide_eq_true_eq, Bool.not_eq_true'] at hprop
  obtain ⟨⟨⟨ht, hfresh⟩, hgate⟩, hclock⟩ := hprop
  obtain ⟨_, hn⟩ | hm := h _ _ _ w (steps_enabled_iff.mpr hw) ht m1 hfresh
  · exact hn (ExtTreeSet.contains_iff_mem.mp hgate)
  · rw [← ExtTreeMap.contains_iff_mem, hclock] at hm
    cases hm

end CitrateCluster.SwarmClock
