import CitrateCluster.Provenance
import Mathlib.Data.Fin.VecNotation
import Mathlib.Data.Fintype.Basic

namespace CitrateCluster.Network

open Runs Roster Collections Transport PeerAddrs SwarmLoop SwarmSafety Provenance

variable {Key ι : Type} (I : Libp2p Key) [DecidableEq ι] [Fintype ι] {topic : ι → String}
  (peer : ι → PeerId)

/-- The swarms of the honest devices, one for each device and group, each with its log, and the
messages that they have put on the network. -/
structure Net (ι Key : Type) where
  nodes : ι → Wire × Log Key
  flight : List Wire.Gossip

def Net.new (topic : ι → String) : Net ι Key := ⟨fun i => (.new (topic i) (peer i), .new), []⟩

/-- What a swarm puts on the network when it takes its next command: gossipsub signs the message
with the device's key. -/
def sent (w : Wire) : Action Key → List Wire.Gossip
  | .recv =>
    match w.queue with
    | .publish data :: _ => [⟨w.topic, some w.localPeer, Text.bytes data⟩]
    | _ => []
  | _ => []

/-- A message that gossipsub may hand over: one that an honest device has sent, or one that does not
bear an honest device's signature. -/
def Genuine (flight : List Wire.Gossip) (g : Wire.Gossip) : Prop :=
  g ∈ flight ∨ ∀ i, g.source ≠ some (peer i)

instance (flight : List Wire.Gossip) (g : Wire.Gossip) : Decidable (Genuine peer flight g) :=
  inferInstanceAs (Decidable (_ ∨ _))

def allows (flight : List Wire.Gossip) : Action Key → Bool
  | .message g => decide (Genuine peer flight g)
  | _ => true

/-- One swarm takes one step. A message stays on the network: it may reach any swarm, late, more
than once or never. -/
def step (net : Net ι Key) (e : ι × Action Key) : Option (Net ι Key) :=
  if allows peer net.flight e.2 then
    (Provenance.step I (net.nodes e.1) e.2).map fun s =>
      ⟨Function.update net.nodes e.1 s, net.flight ++ sent (net.nodes e.1).1 e.2⟩
  else none

variable {I} {peer} {net net' : Net ι Key} {w w' : Wire} {e : Action Key} {i : ι}
  {past es : List (ι × Action Key)}

theorem mem_sent {g : Wire.Gossip} (hg : g ∈ sent w e) :
    ∃ data, .publish data ∈ w.queue ∧ g = ⟨w.topic, some w.localPeer, Text.bytes data⟩ := by
  unfold sent at hg
  split at hg
  · split at hg
    · next data queue hq =>
      rw [hq]
      exact ⟨data, List.mem_cons_self, List.mem_singleton.mp hg⟩
    · cases hg
  · cases hg

/-- A receipt is for the message that the step hands over. -/
theorem receipts_note {log : Log Key} {r : Receipt Key} (hr : r ∈ (log.note I w e).receipts) :
    r ∈ log.receipts ∨ e = .message r.gossip := by
  unfold Log.note at hr
  split at hr
  · split at hr
    · split at hr <;> exact .inl hr
    · exact .inl hr
  · split at hr
    · obtain hr | hr := List.mem_append.mp hr
      · exact .inl hr
      · rw [List.mem_singleton.mp hr]
        exact .inr rfl
    · exact .inl hr
  · exact .inl hr
  · exact .inl hr

/-- What holds of the network after the steps so far. -/
structure Accounted (I : Libp2p Key) (topic : ι → String) (peer : ι → PeerId) (net : Net ι Key)
    (past : List (ι × Action Key)) : Prop where
  traced : ∀ i, Traced I (topic i) (net.nodes i).1 (net.nodes i).2
  named : ∀ i, (net.nodes i).1.localPeer = peer i
  queued : ∀ i data, .publish data ∈ (net.nodes i).1.queue → (i, .publish data) ∈ past
  flight : ∀ g ∈ net.flight, ∃ i data, g = ⟨topic i, some (peer i), Text.bytes data⟩ ∧
    (i, .publish data) ∈ past
  received : ∀ i, ∀ r ∈ (net.nodes i).2.receipts, Genuine peer net.flight r.gossip

omit [DecidableEq ι] [Fintype ι] in
theorem accounted_new : Accounted I topic peer (.new peer topic) [] where
  traced := fun i => traced_new (topic i) (peer i)
  named := fun _ => rfl
  queued := fun _ _ hq => absurd hq List.not_mem_nil
  flight := fun _ hg => absurd hg List.not_mem_nil
  received := fun _ _ hr => absurd hr List.not_mem_nil

omit [DecidableEq ι] [Fintype ι] in
theorem Genuine.append {flight : List Wire.Gossip} {g : Wire.Gossip} (h : Genuine peer flight g)
    (more : List Wire.Gossip) : Genuine peer (flight ++ more) g :=
  h.imp_left (List.mem_append_left more)

theorem Accounted.step (h : Accounted I topic peer net past)
    (hs : enabled (step I peer) net (i, e) net') :
    Accounted I topic peer net' (past ++ [(i, e)]) := by
  simp only [enabled, Network.step, Option.ite_none_right_eq_some, Option.map_eq_some_iff] at hs
  obtain ⟨hallows, s, hnode, rfl⟩ := hs
  have hlog := hnode
  simp only [Provenance.step, Option.map_eq_some_iff] at hlog
  obtain ⟨w', hw, rfl⟩ := hlog
  have hpast : ∀ {x}, x ∈ past → x ∈ past ++ [(i, e)] := fun hx => List.mem_append_left _ hx
  have hnodes : ∀ P : ι → Wire × Log Key → Prop, (∀ k, P k (net.nodes k)) →
      P i (w', (net.nodes i).2.note I (net.nodes i).1 e) →
      ∀ k, P k (Function.update net.nodes i (w', (net.nodes i).2.note I (net.nodes i).1 e) k) :=
    fun P hP hi => (Function.forall_update_iff net.nodes P).mpr ⟨hi, fun k _ => hP k⟩
  refine ⟨?_, ?_, ?_, fun g hg => ?_, ?_⟩
  · exact hnodes (fun k s => Traced I (topic k) s.1 s.2) h.traced ((h.traced i).step hnode)
  · exact hnodes (fun k s => s.1.localPeer = peer k) h.named ((name_of_step hw).2.trans (h.named i))
  · apply hnodes fun k s => ∀ data, .publish data ∈ s.1.queue →
      (k, .publish data) ∈ past ++ [(i, e)]
    · exact fun k data hq => hpast (h.queued k data hq)
    · intro data hq
      obtain hq | ⟨_, hd, rfl⟩ | ⟨_, hd, _⟩ | ⟨_, hd, _⟩ := queued_of_step hw hq
      · exact hpast (h.queued i data hq)
      · cases hd
        exact List.mem_append_right _ List.mem_cons_self
      · cases hd
      · cases hd
  · obtain hg | hg := List.mem_append.mp hg
    · obtain ⟨j, data, rfl, hd⟩ := h.flight g hg
      exact ⟨j, data, rfl, hpast hd⟩
    · obtain ⟨data, hq, rfl⟩ := mem_sent hg
      refine ⟨i, data, ?_, hpast (h.queued i data hq)⟩
      rw [(h.traced i).group, h.named i]
  · apply hnodes (fun _ s => ∀ r ∈ s.2.receipts,
      Genuine peer (net.flight ++ sent (net.nodes i).1 e) r.gossip)
    · exact fun k r hr => (h.received k r hr).append _
    · intro r hr
      obtain hr | rfl := receipts_note hr
      · exact (h.received i r hr).append _
      · exact Genuine.append (of_decide_eq_true hallows) _

theorem accounted_of_steps (h : Steps (enabled (step I peer)) (.new peer topic) es net) :
    Accounted I topic peer net es := by
  have haccounted := h.history (I := Accounted I topic peer)
    (fun _ _ _ _ ha hs => ha.step hs) accounted_new
  exact haccounted

omit [DecidableEq ι] [Fintype ι] in
/-- An accepted message that bears an honest device's signature was published by that device in the
same group. -/
theorem Accounted.published (h : Accounted I topic peer net past) {r : Receipt Key}
    (hr : r ∈ (net.nodes i).2.receipts) {j : ι} (hj : r.gossip.source = some (peer j)) :
    ∃ k, peer k = peer j ∧ topic k = topic i ∧ (k, .publish r.message.data) ∈ past := by
  obtain hflight | hforeign := h.received i r hr
  · obtain ⟨k, data, hg, hpast⟩ := h.flight _ hflight
    obtain ⟨hattested, _⟩ := (h.traced i).attested r hr
    have hdata : r.message.data = data := by
      have hpayload := hattested.data
      rw [hg, Wire.acceptPayload, Text.fromUtf8_bytes] at hpayload
      exact (Option.some.inj (Option.filter_eq_some_iff.mp hpayload).1).symm
    refine ⟨k, ?_, ?_, hdata ▸ hpast⟩
    · rw [hg] at hj
      exact Option.some.inj hj
    · have htopic := hattested.topic
      rwa [hg] at htopic
  · exact absurd hj (hforeign j)

/-- Whatever the honest swarms do and whatever others send, a message that a swarm has handed to its
daemon bears the address of its signer's key, and if an honest device signed it, then that device
was asked to publish exactly this text, in the same group. -/
theorem drained_messages_were_published
    (h : Steps (enabled (step I peer)) (.new peer topic) es net) {m : MeshMessage}
    (hm : m ∈ (net.nodes i).2.drained ++ (net.nodes i).1.inbox) :
    ∃ p, I.OwnAddress p m.sender ∧ ∀ j, peer j = p →
      ∃ k, peer k = p ∧ topic k = topic i ∧ (k, .publish m.data) ∈ es := by
  have haccounted := accounted_of_steps h
  have htraced := haccounted.traced i
  obtain ⟨r, hr, rfl⟩ := List.mem_map.mp
    (((List.sublist_append_left _ _).trans htraced.queue).subset hm)
  obtain ⟨hattested, hsub⟩ := htraced.attested r hr
  obtain ⟨p, hsource, _, adm, hadm, rfl, haddress⟩ := hattested.source
  have hsound := htraced.sound adm (hsub.subset hadm)
  refine ⟨adm.peer, ⟨adm.key, hsound.peer, haddress ▸ hsound.address⟩, fun j hj => ?_⟩
  rw [← hj] at hsource ⊢
  exact haccounted.published hr hsource

/-- Two devices of one group. -/
def pair : Fin 2 → PeerId := ![m1, m2]

/-- The second device admits the first, which shares a file. -/
def sharing (cid : String) : List (Fin 2 × Action String) :=
  [(1, .authorize m1), (1, .established m1), (1, .identify m1 m1), (1, .resume), (1, .resume),
    (0, .publish cid), (0, .recv), (1, .message ⟨"group", some m1, Text.bytes cid⟩), (1, .resume),
    (1, .drain)]

theorem drained_messages_were_published_sample :
    ∃ net, Steps (enabled (step plainLibp2p pair)) (.new pair fun _ => "group")
        (sharing (cidOf '1')) net ∧ ⟨m1, cidOf '1'⟩ ∈ (net.nodes 1).2.drained ∧
      ∃ k, pair k = m1 ∧ (k, .publish (cidOf '1')) ∈ sharing (cidOf '1') := by
  have hrun : ((sharing (cidOf '1')).foldlM (step plainLibp2p pair)
      (.new pair fun _ => "group")).any
        (fun net => decide (⟨m1, cidOf '1'⟩ ∈ (net.nodes 1).2.drained)) = true := by
    decide +kernel
  obtain ⟨net, hs, hm⟩ := (Option.any_eq_true _ _).mp hrun
  have hm : ⟨m1, cidOf '1'⟩ ∈ (net.nodes 1).2.drained := of_decide_eq_true hm
  have hsteps := steps_enabled_iff.mpr hs
  obtain ⟨p, ⟨key, hkey, haddress⟩, hpublished⟩ :=
    drained_messages_were_published hsteps (List.mem_append_left _ hm)
  have hp : p = m1 := hkey.symm.trans (Option.some.inj haddress)
  obtain ⟨k, hk, _, hmem⟩ := hpublished 0 hp.symm
  exact ⟨net, hsteps, hm, k, hk.trans hp, hmem⟩

end CitrateCluster.Network
