import CitrateCluster.Dialing
import CitrateCluster.Staying

namespace CitrateCluster.Arrival

open Std (ExtTreeSet)
open Runs Roster Collections PeerAddrs SwarmLoop SwarmSafety SwarmConnected Redial Dialing
open Staying (Welcome Held Fair)

variable {Key : Type} {I : Libp2p Key} {publicKeyOf : PeerId → Option Key} {s s' : Loop}
  {e : Event Key} {w w' : Wire} {p : PeerId} {a : String}

section Handshake

end Handshake

section Admission

/-- Nobody disconnects the peer: neither this node its address, nor the peer itself, which
identifies with its own key, nor is another peer of the address lost. -/
def Undisturbed (I : Libp2p Key) (p : PeerId) (a : String) (s : Loop) : Event Key → Prop
  | .wire (.disconnect peer) => canonicalAddress peer ≠ some a
  | .wire (.closed q _) => q ≠ p ∧ s.wire.peerAddr[q]? ≠ some a
  | .wire e => Fair I p a e
  | _ => True

/-- How far the admission of a peer is that has identified: past the check, past the first critical
section, or over. -/
inductive Arriving (p : PeerId) (a : String) (w : Wire) : Prop where
  | admitting (h : Welcome p a w) (hi : p ∉ w.unidentified) (ht : w.task = .admitting p a)
  | connecting (h : Held p a w) (ht : w.task = .connecting a)
  | meshed (h : Held p a w) (ht : w.task ≠ .forgetting a) (hc : a ∈ w.connected)

/-- A step of the surface that does not disconnect an address. -/
structure Beside (p : PeerId) (a : String) (w w' : Wire) : Prop where
  welcome : Welcome p a w → Welcome p a w'
  peerAddr : w'.peerAddr = w.peerAddr
  blacklist : w'.blacklist = w.blacklist
  unadmitted : w'.unadmitted = w.unadmitted
  unidentified : w'.unidentified = w.unidentified
  task : w'.task = w.task
  connected : a ∈ w.connected → a ∈ w'.connected

theorem beside_send {cmd : SwarmCmd} (hcmd : cmd ≠ .disconnect a) : Beside p a w (w.send cmd) where
  welcome h := { h with
    queue := fun hm => (List.mem_append.mp hm).elim h.queue
      fun hm => hcmd (List.mem_singleton.mp hm).symm }
  peerAddr := rfl
  blacklist := rfl
  unadmitted := rfl
  unidentified := rfl
  task := rfl
  connected := id

theorem beside_authorize (peer : String) : Beside p a w (w.authorize peer) := by
  rw [Wire.authorize]
  split
  · refine ⟨fun h => { h with authorized := ?_ }, rfl, rfl, rfl, rfl, rfl, id⟩
    exact mem_insert_iff.mpr (.inr h.authorized)
  · exact ⟨id, rfl, rfl, rfl, rfl, rfl, id⟩

theorem beside_of_step {e : Action Key} (he : ¬ IsTask e)
    (hd : ∀ peer, e = .disconnect peer → canonicalAddress peer ≠ some a)
    (hs : w.step I e = some w') (hsurf : w.surface ≠ .disconnecting a) : Beside p a w w' := by
  cases moves_of_step hs with
  | authorize peer => exact beside_authorize peer
  | @disconnect peer b hidle hb =>
    have hne : a ≠ b := by
      rintro rfl
      exact hd peer rfl hb
    refine ⟨fun h => { h with authorized := ?_, surface := ?_ }, rfl, rfl, rfl, rfl, rfl, ?_⟩
    · exact mem_erase_iff.mpr ⟨hne, h.authorized⟩
    · simpa using hne.symm
    · exact fun hc => mem_erase_iff.mpr ⟨hne, hc⟩
  | ignore => exact ⟨id, rfl, rfl, rfl, rfl, rfl, id⟩
  | @send b hb =>
    have hsend : Beside p a w (w.send (.disconnect b)) := by
      refine beside_send fun hc => hsurf ?_
      rw [hb, SwarmCmd.disconnect.inj hc]
    exact { hsend with welcome := fun h => { hsend.welcome h with surface := by simp } }
  | drain => exact ⟨fun h => { h with }, rfl, rfl, rfl, rfl, rfl, id⟩
  | publish data => exact beside_send (by simp)
  | dial addr => exact beside_send (by simp)
  | _ => exact absurd trivial he

theorem Beside.held (hb : Beside p a w w') (h : Held p a w) : Held p a w' where
  toWelcome := hb.welcome h.toWelcome
  filed := hb.peerAddr ▸ h.filed
  ungated := hb.blacklist ▸ h.ungated
  admitted := hb.unadmitted ▸ h.admitted
  identified := hb.unidentified ▸ h.identified
  task := hb.task ▸ h.task

theorem Arriving.beside (h : Arriving p a w) (hb : Beside p a w w') : Arriving p a w' := by
  cases h with
  | admitting h hi ht => exact .admitting (hb.welcome h) (hb.unidentified ▸ hi) (hb.task.trans ht)
  | connecting h ht => exact .connecting (hb.held h) (hb.task.trans ht)
  | meshed h ht hc => exact .meshed (hb.held h) (hb.task ▸ ht) (hb.connected hc)

theorem Arriving.welcome (h : Arriving p a w) : Welcome p a w := by
  cases h with
  | admitting h => exact h
  | connecting h => exact h.toWelcome
  | meshed h => exact h.toWelcome

/-- The task leaves a connected address alone. -/
theorem connected_of_task_step {e : Action Key} (he : IsTask e) (hs : w.step I e = some w')
    (ht : w.task ≠ .forgetting a) (hc : a ∈ w.connected)
    (hclosed : ∀ q fresh, e = .closed q fresh → w.peerAddr[q]? ≠ some a) :
    w'.task ≠ .forgetting a ∧ a ∈ w'.connected := by
  cases moves_of_step hs with
  | established q =>
    simp only [Wire.established]
    split <;> exact ⟨ht, hc⟩
  | identify q key =>
    obtain ⟨_, hw⟩ | ⟨_, _, _, ⟨_, hw⟩ | ⟨_, hw⟩⟩ := identify_cases I w q key
    all_goals rw [hw]
    · exact ⟨ht, hc⟩
    · exact ⟨by simp, hc⟩
    · exact ⟨by simp, hc⟩
  | @closed q fresh w₁ hidle hw =>
    obtain ⟨c, _, rfl⟩ := closeOne_eq hw
    split
    · exact ⟨ht, hc⟩
    · simp only [Wire.forget]
      split
      · next b hb =>
        refine ⟨fun hf => hclosed q fresh rfl ?_, hc⟩
        rw [← Task.forgetting.inj hf]
        exact hb
      · exact ⟨ht, hc⟩
  | message g =>
    obtain hw | ⟨_, _, _, _, _, _, _, _, hw⟩ := receive_cases w g
    · rw [hw]
      exact ⟨ht, hc⟩
    · rw [hw]
      exact ⟨by simp, hc⟩
  | recv _ hr =>
    obtain ⟨_, _, _, rfl⟩ | ⟨_, _, _, _, rfl⟩ := recv_cases hr
    · exact ⟨by simp, hc⟩
    · exact ⟨ht, hc⟩
  | sweep => exact ⟨by simp, hc⟩
  | resume hr =>
    cases resumes_of_resume hr with
    | connecting => exact ⟨by simp, mem_insert_iff.mpr (.inr hc)⟩
    | @forgetting b hb =>
      refine ⟨by simp, mem_erase_iff.mpr ⟨?_, hc⟩⟩
      rintro rfl
      exact ht hb
    | _ => exact ⟨by simp, hc⟩
  | tick => exact ⟨ht, hc⟩
  | _ => exact he.elim

/-- Inside a handler the task goes on, or waits. -/
theorem resume_or_tick {e : Action Key} (he : IsTask e) (hs : w.step I e = some w')
    (ht : w.task ≠ .idle) : w.resume = some w' ∨ ∃ ms, w' = { w with clock := w.clock + ms } := by
  cases moves_of_step hs with
  | resume hr => exact .inl hr
  | tick ms => exact .inr ⟨ms, rfl⟩
  | _ => first | exact he.elim | exact absurd ‹w.task = .idle› ht

theorem Arriving.task_step {e : Action Key} (h : Arriving p a w) (he : IsTask e)
    (hfair : Fair I p a e) (hclosed : ∀ q fresh, e = .closed q fresh → w.peerAddr[q]? ≠ some a)
    (hs : w.step I e = some w') : Arriving p a w' := by
  cases h with
  | admitting h hi ht =>
    obtain hr | ⟨ms, rfl⟩ := resume_or_tick he hs (by simp [ht])
    · rw [Wire.resume, ht, Option.some.injEq] at hr
      subst hr
      refine .connecting ⟨{ h with }, ?_, ?_, ?_, hi, trivial⟩ rfl
      · exact getElem?_insert_eq_some.mpr (.inl ⟨rfl, rfl⟩)
      · exact fun hb => (mem_erase_iff.mp hb).1 rfl
      · exact fun hu => (mem_erase_iff.mp hu).1 rfl
    · exact .admitting { h with } hi ht
  | connecting h ht =>
    have hheld := h.task_step he hfair hs
    obtain hr | ⟨ms, rfl⟩ := resume_or_tick he hs (by simp [ht])
    · rw [Wire.resume, ht, Option.some.injEq] at hr
      subst hr
      exact .meshed hheld (by simp) (mem_insert_iff.mpr (.inl rfl))
    · exact .connecting hheld ht
  | meshed h ht hc =>
    obtain ⟨ht', hc'⟩ := connected_of_task_step he hs ht hc hclosed
    exact .meshed (h.task_step he hfair hs) ht' hc'

theorem wire_of_next {e : Action Key} (hs : enabled (Loop.next I publicKeyOf) s (.wire e) s') :
    s.wire.step I e = some s'.wire := by
  obtain ⟨dials, hmoved⟩ := moved_of_next hs
  cases hmoved with
  | wire hw => exact hw
  | asked hw => exact hw

theorem Arriving.step (h : Arriving p a s.wire) (hq : Undisturbed I p a s e)
    (hs : enabled (Loop.next I publicKeyOf) s e s') : Arriving p a s'.wire := by
  cases e with
  | wire e =>
    have hw := wire_of_next hs
    by_cases he : IsTask e
    · refine h.task_step he ?_ ?_ hw
      · cases e with
        | closed => exact hq.1
        | disconnect => exact he.elim
        | _ => exact hq
      · rintro q fresh rfl
        exact hq.2
    · refine h.beside (beside_of_step he ?_ hw h.welcome.surface)
      rintro peer rfl
      exact hq
  | _ =>
    obtain ⟨dials, hmoved⟩ := moved_of_next hs
    cases hmoved
    exact h

end Admission

section Samples

/-- While the peer is admitted, the group authorizes another address; then its peer connects. -/
def admitting : List (Event String) :=
  [.wire (.tick 10), .wire .resume, .wire (.authorize d1), .wire .resume, .wire (.established d1)]

end Samples

end CitrateCluster.Arrival
