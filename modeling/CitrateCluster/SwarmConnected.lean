import CitrateCluster.SwarmSafety

namespace CitrateCluster.SwarmConnected

open Std (ExtTreeMap ExtTreeSet)
open Roster Collections PeerAddrs Runs SwarmLoop SwarmSafety

variable {Key : Type} {I : Libp2p Key} {w w' : Wire} {p q : PeerId} {a : String}

/-- A handler leaves the surface and the two address sets under the mutex alone. -/
structure Apart (w w' : Wire) : Prop where
  authorized : w'.authorized = w.authorized
  connected : w'.connected = w.connected
  surface : w'.surface = w.surface

theorem apart_established : Apart w (w.established p) := by
  simp only [Wire.established]
  split <;> exact ⟨rfl, rfl, rfl⟩

theorem apart_identify (key : Key) : Apart w (w.identify I p key) := by
  obtain ⟨_, hw⟩ | ⟨_, _, _, ⟨_, hw⟩ | ⟨_, hw⟩⟩ := identify_cases I w p key
  all_goals
    rw [hw]
    exact ⟨rfl, rfl, rfl⟩

theorem apart_receive (g : Wire.Gossip) : Apart w (w.receive g) := by
  obtain hw | ⟨_, _, _, _, _, _, _, _, hw⟩ := receive_cases w g
  all_goals
    rw [hw]
    exact ⟨rfl, rfl, rfl⟩

theorem apart_forget : Apart w (w.forget p) := by
  simp only [Wire.forget]
  split <;> exact ⟨rfl, rfl, rfl⟩

theorem apart_closed {fresh : Bool} (hw : w.closeOne p fresh = some w') :
    Apart w (if w'.Live p then w' else w'.forget p) := by
  obtain ⟨c, _, rfl⟩ := closeOne_eq hw
  split
  · exact ⟨rfl, rfl, rfl⟩
  · have h : Apart (w.setConns p c) ((w.setConns p c).forget p) := apart_forget
    exact ⟨h.authorized, h.connected, h.surface⟩

theorem apart_recv (hr : w.recv = some w') : Apart w w' := by
  obtain ⟨a, queue, _, rfl⟩ | ⟨cmd, queue, _, _, rfl⟩ := recv_cases hr
  · exact ⟨rfl, rfl, rfl⟩
  · exact ⟨rfl, rfl, rfl⟩

/-- The steps of the swarm task and of the network, which are all but those of the surface. -/
def IsTask : Action Key → Prop
  | .authorize _ | .disconnect _ | .send | .drain | .publish _ | .dial _ => False
  | _ => True

/-- The task authorizes nobody, and it alone records an address as connected. -/
theorem resume_shared (hr : w.resume = some w') :
    w'.authorized = w.authorized ∧ w'.surface = w.surface ∧
      (w'.connected = w.connected ∨ (∃ b, w'.connected = w.connected.erase b) ∨
        ∃ b, w.task = .connecting b ∧ w'.connected = w.connected.insert b) := by
  cases resumes_of_resume hr with
  | connecting ht => exact ⟨rfl, rfl, .inr (.inr ⟨_, ht, rfl⟩)⟩
  | forgetting => exact ⟨rfl, rfl, .inr (.inl ⟨_, rfl⟩)⟩
  | _ => exact ⟨rfl, rfl, .inl rfl⟩

theorem task_step {e : Action Key} (he : IsTask e) (hs : w.step I e = some w') :
    Apart w w' ∨ e = .resume ∧ w.resume = some w' := by
  cases moves_of_step hs with
  | established => exact .inl apart_established
  | identify _ key => exact .inl (apart_identify key)
  | closed _ hw => exact .inl (apart_closed hw)
  | message g => exact .inl (apart_receive g)
  | recv _ hr => exact .inl (apart_recv hr)
  | sweep => exact .inl ⟨rfl, rfl, rfl⟩
  | resume hr => exact .inr ⟨rfl, hr⟩
  | tick => exact .inl ⟨rfl, rfl, rfl⟩
  | _ => exact he.elim

/-- The surface takes an address out of both sets at once. -/
theorem surface_step {e : Action Key} (he : ¬ IsTask e) (hs : w.step I e = some w') :
    (w'.authorized = w.authorized ∧ w'.connected = w.connected) ∨
      (∃ b, w'.authorized = w.authorized.insert b ∧ w'.connected = w.connected) ∨
      ∃ b, w'.authorized = w.authorized.erase b ∧ w'.connected = w.connected.erase b := by
  cases moves_of_step hs with
  | authorize peer =>
    rw [Wire.authorize]
    split
    · next b _ => exact .inr (.inl ⟨b, rfl, rfl⟩)
    · exact .inl ⟨rfl, rfl⟩
  | @disconnect _ b => exact .inr (.inr ⟨b, rfl, rfl⟩)
  | ignore | send | drain | publish | dial => exact .inl ⟨rfl, rfl⟩
  | _ => exact absurd trivial he

/-- Only authorized addresses count as connected. -/
def ConnectedAuthorized (w : Wire) : Prop := ∀ a ∈ w.connected, a ∈ w.authorized

/-- When the handler of an `identify` event takes the mutex again, to record the address as
connected, the address is still authorized. -/
def StillAuthorized (w : Wire) : Action Key → Prop
  | .resume =>
    match w.task with
    | .connecting a => a ∈ w.authorized
    | _ => True
  | _ => True

instance (w : Wire) (e : Action Key) : Decidable (StillAuthorized w e) := by
  unfold StillAuthorized
  split
  · split <;> infer_instance
  · infer_instance

theorem stillAuthorized_resume (ht : w.task = .connecting a) :
    StillAuthorized w (.resume : Action Key) ↔ a ∈ w.authorized := by
  simp [StillAuthorized, ht]

theorem ConnectedAuthorized.step (h : ConnectedAuthorized w) {e : Action Key}
    (hs : w.step I e = some w') (hguard : StillAuthorized w e) : ConnectedAuthorized w' := by
  intro a ha
  by_cases he : IsTask e
  · obtain happart | ⟨rfl, hr⟩ := task_step he hs
    · rw [happart.connected] at ha
      exact happart.authorized ▸ h a ha
    · obtain ⟨hauth, _, hconn | ⟨b, hconn⟩ | ⟨b, ht, hconn⟩⟩ := resume_shared hr
      · rw [hconn] at ha
        exact hauth ▸ h a ha
      · rw [hconn, mem_erase_iff] at ha
        exact hauth ▸ h a ha.2
      · rw [hconn, mem_insert_iff] at ha
        rw [hauth]
        obtain rfl | ha := ha
        · exact (stillAuthorized_resume ht).mp hguard
        · exact h a ha
  · obtain ⟨hauth, hconn⟩ | ⟨b, hauth, hconn⟩ | ⟨b, hauth, hconn⟩ := surface_step he hs
    · rw [hconn] at ha
      exact hauth ▸ h a ha
    · rw [hconn] at ha
      exact hauth ▸ mem_insert_iff.mpr (.inr (h a ha))
    · rw [hconn, mem_erase_iff] at ha
      exact hauth ▸ mem_erase_iff.mpr ⟨ha.1, h a ha.2⟩

variable (I) in
/-- The connected peers are authorized ones as long as no address loses its authorization between
the two critical sections of an `identify` handler, and no longer. -/
theorem connected_authorized_while_still_authorized (topic : String) (localPeer : PeerId) :
    (∀ es w, Steps (Meeting (enabled (Wire.step I)) StillAuthorized) (.new topic localPeer) es w →
      ConnectedAuthorized w) ∧
      ∀ (w w' : Wire) (e : Action Key), ¬ StillAuthorized w e → enabled (Wire.step I) w e w' →
        ¬ ConnectedAuthorized w' := by
  constructor
  · intro es w h
    refine h.invariant (I := ConnectedAuthorized) (fun _ _ _ hc hs => hc.step hs.1 hs.2) ?_
    intro a ha
    simp [Wire.new] at ha
  · intro w w' e hguard hs hc
    obtain ⟨rfl, a, ht, ha⟩ : e = .resume ∧ ∃ a, w.task = .connecting a ∧ a ∉ w.authorized := by
      unfold StillAuthorized at hguard
      split at hguard
      · split at hguard
        · next a ht => exact ⟨rfl, a, ht, hguard⟩
        · exact absurd trivial hguard
      · exact absurd trivial hguard
    simp only [enabled, Wire.step, Wire.resume, ht, Option.some.injEq] at hs
    subst hs
    exact ha (hc a (mem_insert_iff.mpr (.inl rfl)))

theorem connected_authorized_while_still_authorized_sample :
    ∃ w, Steps (Meeting (enabled (Wire.step plainLibp2p)) StillAuthorized) (.new "group" m2)
      [.authorize m1, .established m1, .identify m1 m1, .resume, .resume] w ∧
      m1 ∈ w.connected ∧ ConnectedAuthorized w := by
  have hrun : (([.authorize m1, .established m1, .identify m1 m1, .resume, .resume] :
      List (Action String)).foldlM
        (fun w e => if StillAuthorized w e then Wire.step plainLibp2p w e else none)
        (.new "group" m2)).any (fun w => w.connected.contains m1) = true := by
    decide +kernel
  obtain ⟨w, hw, hconn⟩ := (Option.any_eq_true _ _).mp hrun
  have hsteps := steps_enabled_iff.mpr hw
  rw [← meeting_enabled] at hsteps
  exact ⟨w, hsteps, ExtTreeSet.contains_iff_mem.mp hconn,
    (connected_authorized_while_still_authorized plainLibp2p "group" m2).1 _ w hsteps⟩

theorem connected_after_disconnect :
    ¬ ∀ (Key : Type) (I : Libp2p Key) (topic : String) (localPeer : PeerId)
      (es : List (Action Key)) (w : Wire),
        Steps (enabled (Wire.step I)) (.new topic localPeer) es w → ConnectedAuthorized w := by
  intro h
  have hrun : (([.authorize m1, .established m1, .identify m1 m1, .disconnect m1, .resume, .resume] :
      List (Action String)).foldlM (Wire.step plainLibp2p) (.new "group" m2)).any (fun w =>
        w.connected.contains m1 && !w.authorized.contains m1) = true := by
    decide +kernel
  obtain ⟨w, hw, hprop⟩ := (Option.any_eq_true _ _).mp hrun
  simp only [Bool.and_eq_true, Bool.not_eq_true', contains_eq_false_iff] at hprop
  have hc := h String plainLibp2p "group" m2 _ w (steps_enabled_iff.mpr hw)
  exact hprop.2 (hc m1 (ExtTreeSet.contains_iff_mem.mp hprop.1))

end CitrateCluster.SwarmConnected
