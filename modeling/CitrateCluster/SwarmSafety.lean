import CitrateCluster.SwarmLoop

namespace CitrateCluster.SwarmSafety

open Std (ExtTreeMap ExtTreeSet)
open Roster Collections PeerAddrs Runs SwarmLoop

variable {Key : Type} {I : Libp2p Key} {w w' : Wire} {p q : PeerId} {a : String}

section Frames

theorem live_setConns {c : Conns} :
    (w.setConns p c).Live q ↔ if q = p then 0 < c.total else w.Live q := by
  by_cases h : q = p
  · subst h
    simp [Wire.Live, Wire.setConns]
  · simp [Wire.Live, Wire.setConns, h]

theorem live_disconnectPeerId : (w.disconnectPeerId p).Live q ↔ w.Live q := by
  rw [Wire.disconnectPeerId, live_setConns]
  by_cases h : q = p
  · subst h
    simp [Wire.Live, Conns.total]
  · simp [h]

theorem mem_gatePeer : q ∈ (w.gatePeer p).blacklist ↔ q = p ∨ q ∈ w.blacklist := mem_insert_iff

theorem mem_targets : p ∈ w.targets a ↔ w.peerAddr[p]? = some a := by
  simp [Wire.targets, ExtTreeMap.mem_toList_iff_getElem?_eq_some]

end Frames

/-- An address that the group authorizes, or that a `disconnect` still has to reach the task. -/
def Covered (w : Wire) (a : String) : Prop :=
  a ∈ w.authorized ∨ w.surface = .disconnecting a ∨ .disconnect a ∈ w.queue

/-- The task is gating the peers of an address, and has yet to gate this one. -/
def Evicting (w : Wire) (p : PeerId) (a : String) : Prop :=
  ∃ ps, w.task = .evicting a ps ∧ p ∈ ps

/-- What keeps an unauthorized peer gated at every step. -/
structure Guarded (I : Libp2p Key) (w : Wire) : Prop where
  ungated : ∀ p, w.Live p → p ∉ w.blacklist → ∃ a, w.peerAddr[p]? = some a
  known : ∀ p a, w.peerAddr[p]? = some a → I.OwnAddress p a ∧ w.Live p
  covered : ∀ p a, w.peerAddr[p]? = some a → p ∉ w.blacklist → Covered w a ∨ Evicting w p a
  admitting : ∀ p a, w.task = .admitting p a → I.OwnAddress p a ∧ w.Live p ∧ Covered w a

theorem guarded_new (topic : String) (localPeer : PeerId) : Guarded I (.new topic localPeer) where
  ungated := fun p h => absurd h (by simp [Wire.Live, Wire.new, Conns.total])
  known := fun p a h => by simp [Wire.new] at h
  covered := fun p a h => by simp [Wire.new] at h
  admitting := fun p a h => by simp [Wire.new] at h

/-- A step that closes no connection, files no peer, lifts no gate and gates the peers it lets
connect, unless they are filed already. -/
theorem Guarded.frame (h : Guarded I w) (hlive : ∀ p, w.Live p → w'.Live p)
    (hnew : ∀ p, w'.Live p → p ∉ w'.blacklist → w.Live p ∨ ∃ a, w.peerAddr[p]? = some a)
    (hpeer : w'.peerAddr = w.peerAddr) (hgate : ∀ p, p ∈ w.blacklist → p ∈ w'.blacklist)
    (hcov : ∀ a, Covered w a → Covered w' a ∨ ∃ ps, w'.task = .evicting a ps ∧
      ∀ p, w.peerAddr[p]? = some a → p ∈ ps)
    (hevict : ∀ p a, Evicting w p a → p ∉ w'.blacklist → Evicting w' p a)
    (hadm : ∀ p a, w'.task = .admitting p a → I.OwnAddress p a ∧ w.Live p ∧ Covered w' a) :
    Guarded I w' where
  ungated := by
    intro p hp hb
    rw [hpeer]
    obtain hp | hp := hnew p hp hb
    · exact h.ungated p hp fun hm => hb (hgate p hm)
    · exact hp
  known := by
    intro p a hp
    rw [hpeer] at hp
    obtain ⟨ho, hl⟩ := h.known p a hp
    exact ⟨ho, hlive p hl⟩
  covered := by
    intro p a hp hb
    rw [hpeer] at hp
    obtain hc | he := h.covered p a hp fun hm => hb (hgate p hm)
    · obtain hc | ⟨ps, ht, hps⟩ := hcov a hc
      · exact .inl hc
      · exact .inr ⟨ps, ht, hps p hp⟩
    · exact .inr (hevict p a he hb)
  admitting := by
    intro p a ht
    obtain ⟨ho, hl, hc⟩ := hadm p a ht
    exact ⟨ho, hlive p hl, hc⟩

/-- A step of the surface: the task and its tables are as before. -/
theorem Guarded.surface (h : Guarded I w) (hconns : w'.conns = w.conns)
    (hpeer : w'.peerAddr = w.peerAddr) (hgate : w'.blacklist = w.blacklist)
    (htask : w'.task = w.task) (hcov : ∀ a, Covered w a → Covered w' a) : Guarded I w' := by
  have hlive : ∀ p, w'.Live p ↔ w.Live p := by
    intro p
    rw [Wire.Live, hconns, Wire.Live]
  apply h.frame (fun p => (hlive p).mpr) (fun p hp _ => .inl ((hlive p).mp hp)) hpeer
  · intro p hp
    rwa [hgate]
  · exact fun a hc => .inl (hcov a hc)
  · intro p a he _
    rwa [Evicting, htask]
  · intro p a ht
    rw [htask] at ht
    obtain ⟨ho, hl, hc⟩ := h.admitting p a ht
    exact ⟨ho, hl, hcov a hc⟩

theorem covered_send {cmd : SwarmCmd} (h : Covered w a) : Covered (w.send cmd) a := by
  obtain h | h | h := h
  · exact .inl h
  · exact .inr (.inl h)
  · exact .inr (.inr (List.mem_append_left _ h))

theorem covered_authorize {peer : String} (h : Covered w a) : Covered (w.authorize peer) a := by
  rw [Wire.authorize]
  split
  · obtain h | h | h := h
    · exact .inl (mem_insert_iff.mpr (.inr h))
    · exact .inr (.inl h)
    · exact .inr (.inr h)
  · exact h

theorem covered_deauthorize {b : String} (hs : w.surface = .idle) (h : Covered w a) :
    Covered { w.deauthorize b with surface := .disconnecting b } a := by
  by_cases hab : a = b
  · exact .inr (.inl (by rw [hab]))
  · obtain h | h | h := h
    · exact .inl (mem_erase_iff.mpr ⟨hab, h⟩)
    · rw [hs] at h
      cases h
    · exact .inr (.inr h)

theorem covered_sent {b : String} (hs : w.surface = .disconnecting b) (h : Covered w a) :
    Covered { w.send (.disconnect b) with surface := .idle } a := by
  obtain h | h | h := h
  · exact .inl h
  · rw [hs, Surface.disconnecting.injEq] at h
    subst h
    exact .inr (.inr (List.mem_append_right _ List.mem_cons_self))
  · exact .inr (.inr (List.mem_append_left _ h))

theorem not_evicting (ht : w.task = .idle) : ¬ Evicting w p a := by
  intro ⟨ps, he, _⟩
  rw [ht] at he
  cases he

theorem not_admitting (ht : w.task = .idle) : w.task ≠ .admitting p a := by
  intro ha
  rw [ht] at ha
  cases ha

/-- A handler that starts or ends without touching a table. -/
theorem Guarded.tables (h : Guarded I w) (hlive : ∀ p, w'.Live p ↔ w.Live p)
    (hpeer : w'.peerAddr = w.peerAddr) (hgate : ∀ p, p ∈ w.blacklist → p ∈ w'.blacklist)
    (hcov : ∀ a, Covered w a → Covered w' a) (hidle : ∀ p a, ¬ Evicting w p a)
    (hadm : ∀ p a, w'.task = .admitting p a → I.OwnAddress p a ∧ w.Live p ∧ Covered w' a) :
    Guarded I w' :=
  h.frame (fun p => (hlive p).mpr) (fun p hp _ => .inl ((hlive p).mp hp)) hpeer hgate
    (fun a hc => .inl (hcov a hc)) (fun p a he _ => absurd he (hidle p a)) hadm

theorem Guarded.established (h : Guarded I w) (ht : w.task = .idle) (p : PeerId) :
    Guarded I (w.established p) := by
  have hlive : ∀ q, (w.setConns p ⟨(w.conns p).closing, (w.conns p).fresh + 1⟩).Live q ↔
      w.Live q ∨ q = p := by
    intro q
    rw [live_setConns]
    by_cases hq : q = p <;> simp [hq, Conns.total]
  simp only [Wire.established]
  split
  · next hm =>
    have hfiled : ∃ a, w.peerAddr[p]? = some a :=
      ⟨_, ExtTreeMap.getElem?_eq_some_getElem (ExtTreeMap.contains_iff_mem.mp hm)⟩
    refine h.frame (fun q hq => (hlive q).mpr (.inl hq)) (fun q hq _ => ?_) rfl (fun _ hb => hb)
      (fun _ hc => .inl hc) (fun _ _ he _ => he) fun q a hq => absurd hq (not_admitting ht)
    obtain hq | rfl := (hlive q).mp hq
    · exact .inl hq
    · exact .inr hfiled
  · refine h.frame (fun q hq => (hlive q).mpr (.inl hq)) (fun q hq hb => ?_) rfl
      (fun q hb => mem_gatePeer.mpr (.inr hb)) (fun _ hc => .inl hc) (fun _ _ he _ => he)
      fun q a hq => absurd hq (not_admitting ht)
    obtain hq | hqp := (hlive q).mp hq
    · exact .inl hq
    · exact absurd (mem_gatePeer.mpr (.inl hqp)) hb

theorem Guarded.identify (h : Guarded I w) (ht : w.task = .idle) (hl : w.Live p) (key : Key) :
    Guarded I (w.identify I p key) := by
  obtain ⟨_, hw⟩ | ⟨a, hkey, ha, ⟨hauth, hw⟩ | ⟨_, hw⟩⟩ := identify_cases I w p key
  · rw [hw]
    exact h.tables (fun q => live_disconnectPeerId) rfl (fun _ hq => hq) (fun _ hc => hc)
      (fun _ _ => not_evicting ht) fun q a hq => absurd hq (not_admitting ht)
  · rw [hw]
    refine h.tables (fun q => Iff.rfl) rfl (fun _ hq => hq) (fun _ hc => hc)
      (fun _ _ => not_evicting ht) fun q b hq => ?_
    cases hq
    exact ⟨⟨key, hkey, ha⟩, hl, .inl hauth⟩
  · rw [hw]
    exact h.tables (fun q => Iff.rfl) rfl (fun _ hq => hq) (fun _ hc => hc)
      (fun _ _ => not_evicting ht) fun q b hq => by cases hq

theorem Guarded.receive (h : Guarded I w) (ht : w.task = .idle) (g : Wire.Gossip) :
    Guarded I (w.receive g) := by
  obtain hw | ⟨_, _, _, _, _, _, _, _, hw⟩ := receive_cases w g
  · rwa [hw]
  · rw [hw]
    exact h.tables (fun q => Iff.rfl) rfl (fun _ hq => hq) (fun _ hc => hc)
      (fun _ _ => not_evicting ht) fun q b hq => by cases hq

theorem Guarded.recv (h : Guarded I w) (ht : w.task = .idle) (hr : w.recv = some w') :
    Guarded I w' := by
  have hrest : ∀ cmd queue, w.queue = cmd :: queue → (∀ a, cmd ≠ .disconnect a) →
      Guarded I { w with queue } := by
    intro cmd queue hq hcmd
    refine h.tables (fun q => Iff.rfl) rfl (fun _ hm => hm) (fun a hc => ?_)
      (fun _ _ => not_evicting ht) fun q b hb => absurd hb (not_admitting ht)
    obtain hc | hc | hc := hc
    · exact .inl hc
    · exact .inr (.inl hc)
    · rw [hq, List.mem_cons] at hc
      exact .inr (.inr (hc.resolve_left fun he => hcmd a he.symm))
  obtain ⟨b, queue, hq, rfl⟩ | ⟨cmd, queue, hq, hcmd, rfl⟩ := recv_cases hr
  · refine h.frame (fun _ hl => hl) (fun _ hl _ => .inl hl) rfl (fun _ hm => hm) (fun a hc => ?_)
      (fun _ _ he => absurd he (not_evicting ht)) fun q b hb => by cases hb
    obtain hc | hc | hc := hc
    · exact .inl (.inl hc)
    · exact .inl (.inr (.inl hc))
    · rw [hq, List.mem_cons, SwarmCmd.disconnect.injEq] at hc
      obtain rfl | hc := hc
      · exact .inr ⟨_, rfl, fun q hqa => mem_targets.mpr hqa⟩
      · exact .inl (.inr (.inr hc))
  · exact hrest cmd queue hq hcmd

/-- The last connection of a peer is gone: the peer is filed no more. -/
theorem Guarded.forget (h : Guarded I w) (ht : w.task = .idle) {c : Conns} (hc : c.total = 0) :
    Guarded I ((w.setConns p c).forget p) := by
  have hlive : ∀ q, (w.setConns p c).Live q ↔ q ≠ p ∧ w.Live q := by
    intro q
    rw [live_setConns]
    by_cases hq : q = p <;> simp [hq, hc]
  have hforget : ∀ w' : Wire, w'.conns = (w.setConns p c).conns →
      w'.peerAddr = w.peerAddr.erase p → w'.blacklist = w.blacklist.erase p →
      w'.authorized = w.authorized → w'.surface = w.surface → w'.queue = w.queue →
      (∀ q a, w'.task ≠ .admitting q a) → Guarded I w' := by
    intro w' hconns hpeer hblack hauth hsurf hqueue htask
    have hl : ∀ q, w'.Live q ↔ q ≠ p ∧ w.Live q := by
      intro q
      rw [← hlive, Wire.Live, hconns, Wire.Live]
    have hfiled : ∀ q a, w'.peerAddr[q]? = some a ↔ q ≠ p ∧ w.peerAddr[q]? = some a := by
      intro q a
      rw [hpeer, getElem?_erase_eq_some]
    refine ⟨fun q hq hb => ?_, fun q a hqa => ?_, fun q a hqa hb => ?_,
      fun q a hqa => absurd hqa (htask q a)⟩
    · obtain ⟨hne, hq⟩ := (hl q).mp hq
      rw [hblack, mem_erase_iff] at hb
      obtain ⟨a, ha⟩ := h.ungated q hq fun hm => hb ⟨hne, hm⟩
      exact ⟨a, (hfiled q a).mpr ⟨hne, ha⟩⟩
    · obtain ⟨hne, hqa⟩ := (hfiled q a).mp hqa
      obtain ⟨ho, hq⟩ := h.known q a hqa
      exact ⟨ho, (hl q).mpr ⟨hne, hq⟩⟩
    · obtain ⟨hne, hqa⟩ := (hfiled q a).mp hqa
      rw [hblack, mem_erase_iff] at hb
      obtain hcov | he := h.covered q a hqa fun hm => hb ⟨hne, hm⟩
      · exact .inl (by rwa [Covered, hauth, hsurf, hqueue])
      · exact absurd he (not_evicting ht)
  simp only [Wire.forget]
  split
  · exact hforget _ rfl rfl rfl rfl rfl rfl (fun _ _ h => by cases h)
  · next hp =>
    refine hforget _ rfl ?_ rfl rfl rfl rfl fun q a hq => absurd hq (not_admitting ht)
    apply ExtTreeMap.ext_getElem?
    intro q
    apply Option.ext
    intro b
    rw [getElem?_erase_eq_some]
    refine ⟨fun hb => ⟨?_, hb⟩, And.right⟩
    rintro rfl
    rw [hp] at hb
    cases hb

theorem closeOne_eq {fresh : Bool} (hw : w.closeOne p fresh = some w') :
    ∃ c : Conns, c.total < (w.conns p).total ∧ w' = w.setConns p c := by
  simp only [Wire.closeOne] at hw
  split at hw
  · simp only [Option.ite_none_right_eq_some, Option.some.injEq] at hw
    exact ⟨_, by simp only [Conns.total]; omega, hw.2.symm⟩
  · simp only [Option.ite_none_right_eq_some, Option.some.injEq] at hw
    exact ⟨_, by simp only [Conns.total]; omega, hw.2.symm⟩

theorem Guarded.closed (h : Guarded I w) (ht : w.task = .idle) {fresh : Bool}
    (hw : w.closeOne p fresh = some w') :
    Guarded I (if w'.Live p then w' else w'.forget p) := by
  obtain ⟨c, hlt, rfl⟩ := closeOne_eq hw
  have hp : (w.setConns p c).Live p ↔ 0 < c.total := by simp [live_setConns]
  by_cases hc : 0 < c.total
  · rw [if_pos (hp.mpr hc)]
    refine h.tables (fun q => ?_) rfl (fun _ hb => hb) (fun _ hc => hc) (fun _ _ => not_evicting ht)
      fun q a hq => absurd hq (not_admitting ht)
    rw [live_setConns]
    by_cases hq : q = p
    · subst hq
      simp only [if_true, Wire.Live]
      omega
    · simp [hq]
  · rw [if_neg fun hl => hc (hp.mp hl)]
    exact h.forget ht (Nat.eq_zero_of_not_pos hc)

theorem Guarded.admit (h : Guarded I w) (ht : w.task = .admitting p a) :
    Guarded I { ({ w with peerAddr := w.peerAddr.insert p a } : Wire).ungatePeer p with
      task := .connecting a } := by
  obtain ⟨ho, hl, hc⟩ := h.admitting p a ht
  have hne : ∀ q b, ¬ Evicting w q b := by
    intro q b ⟨ps, he, _⟩
    rw [ht] at he
    cases he
  refine ⟨fun q hq hb => ?_, fun q b hqb => ?_, fun q b hqb hb => ?_, fun q b hqb => by cases hqb⟩
  · by_cases hqp : q = p
    · exact ⟨a, getElem?_insert_eq_some.mpr (.inl ⟨hqp, rfl⟩)⟩
    · obtain ⟨b, hb'⟩ := h.ungated q hq fun hm => hb (mem_erase_iff.mpr ⟨hqp, hm⟩)
      exact ⟨b, getElem?_insert_eq_some.mpr (.inr ⟨hqp, hb'⟩)⟩
  · obtain ⟨rfl, rfl⟩ | ⟨_, hqb⟩ := getElem?_insert_eq_some.mp hqb
    · exact ⟨ho, hl⟩
    · exact h.known q b hqb
  · obtain ⟨_, rfl⟩ | ⟨hqp, hqb⟩ := getElem?_insert_eq_some.mp hqb
    · exact .inl hc
    · obtain hcov | he := h.covered q b hqb fun hm => hb (mem_erase_iff.mpr ⟨hqp, hm⟩)
      · exact .inl hcov
      · exact absurd he (hne q b)

theorem Guarded.resume (h : Guarded I w) (hr : w.resume = some w') : Guarded I w' := by
  have hne : ∀ {t : Task}, w.task = t → (∀ b ps, t ≠ .evicting b ps) → ∀ q b, ¬ Evicting w q b := by
    intro t ht hn q b ⟨ps, he, _⟩
    exact hn b ps (ht.symm.trans he)
  cases resumes_of_resume hr with
  | admitting ht => exact h.admit ht
  | connecting ht =>
    exact h.tables (fun _ => Iff.rfl) rfl (fun _ hb => hb) (fun _ hc => hc)
      (hne ht (by simp)) fun q b hq => by cases hq
  | refusing ht =>
    exact h.tables (fun _ => live_disconnectPeerId) rfl (fun _ hb => mem_gatePeer.mpr (.inr hb))
      (fun _ hc => hc) (hne ht (by simp)) fun q b hq => by cases hq
  | delivering ht =>
    exact h.tables (fun _ => Iff.rfl) rfl (fun _ hb => hb) (fun _ hc => hc)
      (hne ht (by simp)) fun q b hq => by cases hq
  | forgetting ht =>
    exact h.tables (fun _ => Iff.rfl) rfl (fun _ hb => hb) (fun _ hc => hc)
      (hne ht (by simp)) fun q b hq => by cases hq
  | @evicting a p ps ht =>
    refine h.frame (fun _ => live_disconnectPeerId.mpr)
      (fun _ hl _ => .inl (live_disconnectPeerId.mp hl)) rfl
      (fun _ hb => mem_gatePeer.mpr (.inr hb)) (fun _ hc => .inl hc) (fun q b he hb => ?_)
      fun q b hq => by cases hq
    obtain ⟨qs, hqs, hmem⟩ := he
    rw [ht, Task.evicting.injEq] at hqs
    obtain ⟨rfl, rfl⟩ := hqs
    obtain rfl | hmem := List.mem_cons.mp hmem
    · exact absurd (mem_gatePeer.mpr (.inl rfl)) hb
    · exact ⟨ps, rfl, hmem⟩
  | evicted ht =>
    refine h.frame (fun _ hl => hl) (fun _ hl _ => .inl hl) rfl (fun _ hb => hb)
      (fun _ hc => .inl hc) (fun q b he _ => ?_) fun q b hq => by cases hq
    obtain ⟨qs, hqs, hmem⟩ := he
    rw [ht, Task.evicting.injEq] at hqs
    obtain ⟨_, rfl⟩ := hqs
    cases hmem
  | sweeping ht =>
    exact h.tables (fun _ => live_disconnectPeerId) rfl (fun _ hb => mem_gatePeer.mpr (.inr hb))
      (fun _ hc => hc) (hne ht (by simp)) fun q b hq => by cases hq
  | swept ht =>
    exact h.tables (fun _ => Iff.rfl) rfl (fun _ hb => hb) (fun _ hc => hc)
      (hne ht (by simp)) fun q b hq => by cases hq

theorem Guarded.step (h : Guarded I w) {e : Action Key} (hs : w.step I e = some w') :
    Guarded I w' := by
  cases moves_of_step hs with
  | authorize peer =>
    have hsame : ∀ {α : Type} (f : Wire → α), (∀ s, f { w with authorized := s } = f w) →
        f (w.authorize peer) = f w := by
      intro α f hf
      rw [Wire.authorize]
      split
      · exact hf _
      · rfl
    exact h.surface (hsame _ fun _ => rfl) (hsame _ fun _ => rfl) (hsame _ fun _ => rfl)
      (hsame _ fun _ => rfl) fun _ => covered_authorize
  | disconnect hidle => exact h.surface rfl rfl rfl rfl fun _ => covered_deauthorize hidle
  | ignore => exact h
  | send hsurf => exact h.surface rfl rfl rfl rfl fun _ => covered_sent hsurf
  | drain => exact h.surface rfl rfl rfl rfl fun _ hc => hc
  | publish => exact h.surface rfl rfl rfl rfl fun _ => covered_send
  | dial => exact h.surface rfl rfl rfl rfl fun _ => covered_send
  | established p ht => exact h.established ht p
  | identify p key ht hl => exact h.identify ht hl key
  | closed ht hw => exact h.closed ht hw
  | message g ht => exact h.receive ht g
  | recv ht hr => exact h.recv ht hr
  | sweep ht =>
    exact h.tables (fun _ => Iff.rfl) rfl (fun _ hb => hb) (fun _ hc => hc)
      (fun _ _ => not_evicting ht) fun q b hq => by cases hq
  | resume hr => exact h.resume hr
  | tick => exact h.surface rfl rfl rfl rfl fun _ hc => hc

/-- A wire keeps its group and its name. -/
theorem name_of_step {e : Action Key} (hs : w.step I e = some w') :
    w'.topic = w.topic ∧ w'.localPeer = w.localPeer := by
  cases moves_of_step hs with
  | authorize peer =>
    rw [Wire.authorize]
    split <;> exact ⟨rfl, rfl⟩
  | established p =>
    simp only [Wire.established]
    split <;> exact ⟨rfl, rfl⟩
  | identify p key =>
    obtain ⟨_, hw⟩ | ⟨_, _, _, ⟨_, hw⟩ | ⟨_, hw⟩⟩ := identify_cases I w p key <;> rw [hw] <;>
      exact ⟨rfl, rfl⟩
  | closed _ hw =>
    obtain ⟨c, _, rfl⟩ := closeOne_eq hw
    split
    · exact ⟨rfl, rfl⟩
    · simp only [Wire.forget]
      split <;> exact ⟨rfl, rfl⟩
  | message g =>
    obtain hw | ⟨_, _, _, _, _, _, _, _, hw⟩ := receive_cases w g <;> rw [hw] <;> exact ⟨rfl, rfl⟩
  | recv _ hr =>
    obtain ⟨_, _, _, rfl⟩ | ⟨_, _, _, _, rfl⟩ := recv_cases hr <;> exact ⟨rfl, rfl⟩
  | resume hr => cases resumes_of_resume hr <;> exact ⟨rfl, rfl⟩
  | _ => exact ⟨rfl, rfl⟩

/-- Only the surface asks for anything: it sends a command as it is called, `disconnect` halfway. -/
theorem queued_of_step {e : Action Key} (hs : w.step I e = some w') {cmd : SwarmCmd}
    (hq : cmd ∈ w'.queue) :
    cmd ∈ w.queue ∨ (∃ data, cmd = .publish data ∧ e = .publish data) ∨
      (∃ addr, cmd = .dial addr ∧ e = .dial addr) ∨ ∃ a, cmd = .disconnect a ∧ e = .send := by
  have hold : ∀ {asked : Prop}, w'.queue = w.queue → cmd ∈ w.queue ∨ asked := fun h => .inl (h ▸ hq)
  have hsent : ∀ cmd', w'.queue = w.queue ++ [cmd'] → cmd ∈ w.queue ∨ cmd = cmd' := by
    intro cmd' h
    rw [h] at hq
    exact (List.mem_append.mp hq).imp_right List.mem_singleton.mp
  cases moves_of_step hs with
  | authorize peer =>
    apply hold
    rw [Wire.authorize]
    split <;> rfl
  | send => exact (hsent _ rfl).imp_right fun h => .inr (.inr ⟨_, h, rfl⟩)
  | publish data => exact (hsent _ rfl).imp_right fun h => .inl ⟨data, h, rfl⟩
  | dial addr => exact (hsent _ rfl).imp_right fun h => .inr (.inl ⟨addr, h, rfl⟩)
  | established p =>
    apply hold
    simp only [Wire.established]
    split <;> rfl
  | identify p key =>
    apply hold
    obtain ⟨_, hw⟩ | ⟨_, _, _, ⟨_, hw⟩ | ⟨_, hw⟩⟩ := identify_cases I w p key
    · rw [hw]
      rfl
    · rw [hw]
    · rw [hw]
  | closed _ hw =>
    apply hold
    obtain ⟨c, _, rfl⟩ := closeOne_eq hw
    split
    · rfl
    · simp only [Wire.forget]
      split <;> rfl
  | message g =>
    apply hold
    obtain hw | ⟨_, _, _, _, _, _, _, _, hw⟩ := receive_cases w g
    all_goals rw [hw]
  | recv _ hr =>
    obtain ⟨_, queue, hwq, rfl⟩ | ⟨_, queue, hwq, _, rfl⟩ := recv_cases hr
    all_goals
      rw [hwq]
      exact .inl (List.mem_cons_of_mem _ hq)
  | resume hr =>
    apply hold
    cases resumes_of_resume hr <;> rfl
  | _ => exact hold rfl

theorem guarded_of_steps {topic : String} {localPeer : PeerId} {es : List (Action Key)}
    (h : Steps (enabled (Wire.step I)) (.new topic localPeer) es w) : Guarded I w :=
  h.invariant (fun _ _ _ hg hs => hg.step hs) (guarded_new topic localPeer)

theorem Guarded.exists_covered (h : Guarded I w) (hidle : w.surface = .idle) (hl : w.Live p)
    (hb : p ∉ w.blacklist) :
    ∃ a, w.peerAddr[p]? = some a ∧ I.OwnAddress p a ∧
      (a ∈ w.authorized ∨ .disconnect a ∈ w.queue ∨ ∃ ps, w.task = .evicting a ps) := by
  obtain ⟨a, ha⟩ := h.ungated p hl hb
  refine ⟨a, ha, (h.known p a ha).1, ?_⟩
  obtain (hc | hc | hc) | ⟨ps, he, _⟩ := h.covered p a ha hb
  · exact .inl hc
  · rw [hidle] at hc
    cases hc
  · exact .inr (.inl hc)
  · exact .inr (.inr ⟨ps, he⟩)

/-- While no surface call is halfway through, a live peer that is not gated is filed under the
address of its own key, and that address is authorized or about to be evicted. -/
theorem ungated_peer_is_covered {topic : String} {localPeer : PeerId} {es : List (Action Key)}
    (h : Steps (enabled (Wire.step I)) (.new topic localPeer) es w) (hidle : w.surface = .idle)
    (hl : w.Live p) (hb : p ∉ w.blacklist) :
    ∃ a, w.peerAddr[p]? = some a ∧ I.OwnAddress p a ∧
      (a ∈ w.authorized ∨ .disconnect a ∈ w.queue ∨ ∃ ps, w.task = .evicting a ps) :=
  (guarded_of_steps h).exists_covered hidle hl hb

theorem ungated_peer_is_covered_sample :
    ∃ w a, Steps (enabled (Wire.step plainLibp2p)) (.new "group" m2)
      [.authorize m1, .established m1, .identify m1 m1, .resume, .resume] w ∧
      w.peerAddr[m1]? = some a ∧ plainLibp2p.OwnAddress m1 a ∧
      (a ∈ w.authorized ∨ .disconnect a ∈ w.queue ∨ ∃ ps, w.task = .evicting a ps) := by
  have hrun : (([.authorize m1, .established m1, .identify m1 m1, .resume, .resume] :
      List (Action String)).foldlM (Wire.step plainLibp2p) (.new "group" m2)).any (fun w =>
        decide (w.surface = .idle) && decide (w.Live m1) && !w.blacklist.contains m1) = true := by
    decide +kernel
  obtain ⟨w, hw, hprop⟩ := (Option.any_eq_true _ _).mp hrun
  simp only [Bool.and_eq_true, decide_eq_true_eq, Bool.not_eq_true', contains_eq_false_iff] at hprop
  have hsteps := steps_enabled_iff.mpr hw
  obtain ⟨a, ha⟩ := ungated_peer_is_covered hsteps hprop.1.1 hprop.1.2 hprop.2
  exact ⟨w, a, hsteps, ha⟩

end CitrateCluster.SwarmSafety
