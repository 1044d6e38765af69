import CitrateCluster.StateWrites
import Mathlib.Data.Set.Finite.Basic

namespace CitrateCluster.GroupEffect

open Std (ExtTreeMap ExtTreeSet)
open Roster Collections Device EffectiveRoster Transport Session Daemon ClusterDaemon Ipc DaemonStep
  GroupState StateWrites

variable {T : Type} [MeshTransport T] {V : LinkVerifier} {d d' : ClusterDaemon T} {g : String}

/-- What one event does to one group. -/
inductive OnGroup (V : LinkVerifier) (g : String) (d : ClusterDaemon T) :
    Event T → ClusterDaemon T → Prop where
  | apart {e : Event T} {d' : ClusterDaemon T} (he : eventGroup e ≠ some g) (h : SameAt g d d') :
      OnGroup V g d e d'
  | refused {roster : Entries} {links : List DeviceLinkWire} {revocations : List RevocationWire}
      {message : String}
      (h : (handleRequest V d (.setRoster g roster links revocations)).1 = .error message) :
      OnGroup V g d (.request (.setRoster g roster links revocations)) d
  | rostered {s : ClusterSession T} {roster : Entries} {links : List DeviceLinkWire}
      {revocations : List RevocationWire} {evicted rejected : List String} (hs : Opened d g s)
      (h : (handleRequest V d (.setRoster g roster links revocations)).1 =
        .reconciled evicted rejected) :
      OnGroup V g d (.request (.setRoster g roster links revocations))
        (rostered V d g s roster links revocations)
  | left : OnGroup V g d (.request (.leave g)) (d.leave g)
  | unchanged {e : Event T} {d' : ClusterDaemon T} (he : Quiet e) (hgroup : eventGroup e = some g)
      (hg : d'.groups[g]? = d.groups[g]?) (hdev : d'.deviceState = d.deviceState) :
      OnGroup V g d e d'
  | worked {e : Event T} {d' : ClusterDaemon T} {s : ClusterSession T} {ops : List (SessionOp T)}
      (he : Quiet e) (hgroup : eventGroup e = some g) (hs : Opened d g s)
      (hops : ∀ op ∈ ops, Allows e op) (hg : d'.groups[g]? = some (SessionOp.runAll ops s))
      (hdev : d'.deviceState = d.deviceState) :
      OnGroup V g d e d'

theorem onGroup_step (V : LinkVerifier) (g : String) (d : ClusterDaemon T) (e : Event T) :
    OnGroup V g d e (step V d e) := by
  by_cases he : eventGroup e = some g
  · have heff := effect_step V d e
    generalize step V d e = d' at heff
    cases heff with
    | refused h =>
      cases he
      exact .refused h
    | rostered hs h =>
      cases he
      exact .rostered hs h
    | left =>
      cases he
      exact .left
    | factory => cases he
    | @quiet _ k _ hquiet ht =>
      obtain hg | ⟨s, ops, hs, hops, hg⟩ := ht.groups
      · exact .unchanged hquiet he (by rw [hg]) ht.deviceState
      · by_cases hk : k = g
        · subst hk
          exact .worked hquiet he hs hops (by simp [hg]) ht.deviceState
        · refine .unchanged hquiet he ?_ ht.deviceState
          simp [hg, ExtTreeMap.getElem?_insert, hk]
  · refine .apart he ?_
    cases hk : eventGroup e with
    | some k =>
      refine sameAt_writes (writes_step (V := V) d hk) ?_
      rintro rfl
      exact he hk
    | none =>
      cases e with
      | factory => exact ⟨rfl, rfl, rfl⟩
      | _ => cases hk

/-- How actions on one group explain an event of the daemon: a new roster that is answered
`Reconciled` takes effect, with the registry that its links and revocations leave, and one that is
refused leaves the daemon as it is; leaving the group is what it is, what else happens to the group
makes peers come and go, and what happens to other groups does nothing. -/
inductive ExplainedBy {α : Type} (V : LinkVerifier) (g : String) (peer : α → Prop)
    (roster : Entries → DeviceRegistry → List α → Prop) (leaving : List α → Prop)
    (d : ClusterDaemon T) : Event T → ClusterDaemon T → List α → Prop where
  | apart {e : Event T} {d' : ClusterDaemon T} (he : eventGroup e ≠ some g) :
      ExplainedBy V g peer roster leaving d e d' []
  | refused {entries : Entries} {links : List DeviceLinkWire} {revocations : List RevocationWire}
      {message : String}
      (h : (handleRequest V d (.setRoster g entries links revocations)).1 = .error message) :
      ExplainedBy V g peer roster leaving d (.request (.setRoster g entries links revocations)) d []
  | rostered {d' : ClusterDaemon T} {acts : List α} {entries : Entries}
      {links : List DeviceLinkWire} {revocations : List RevocationWire}
      {evicted rejected : List String}
      (h : (handleRequest V d (.setRoster g entries links revocations)).1 =
        .reconciled evicted rejected)
      (hacts : roster entries (registryAfter V d g links revocations).2 acts) :
      ExplainedBy V g peer roster leaving d
        (.request (.setRoster g entries links revocations)) d' acts
  | left {d' : ClusterDaemon T} {acts : List α} (hacts : leaving acts) :
      ExplainedBy V g peer roster leaving d (.request (.leave g)) d' acts
  | quiet {e : Event T} {d' : ClusterDaemon T} {acts : List α} (he : Quiet e)
      (hgroup : eventGroup e = some g) (hacts : ∀ a ∈ acts, peer a) :
      ExplainedBy V g peer roster leaving d e d' acts

theorem finite_addressSet (set : AddressSet) : {a | a ∈ set}.Finite := by
  apply (List.finite_toSet set.toList).subset
  intro a ha
  exact ExtTreeSet.mem_toList.mpr ha

end CitrateCluster.GroupEffect
