import CitrateCluster.DaemonStep

namespace CitrateCluster.Admission

open Std (ExtTreeMap ExtTreeSet)
open CitrateCluster.Membership Runs Roster Collections Device Registry Transport Session Daemon
  ClusterDaemon Ipc DaemonStep

variable {T : Type} [MeshTransport T] {V : LinkVerifier} {d d' : ClusterDaemon T}

theorem safe_step {e : Event T} (h : AllSessions (fun s => s.membership.Safe) d)
    (hs : total (step V) d e d') : AllSessions (fun s => s.membership.Safe) d' := by
  rw [hs]
  apply h.step (effect_step V d e)
  · exact fun _ _ _ => ClusterMembership.safe_new []
  · exact fun op _ _ => SessionOp.run_safe op
  · exact fun s roster _ => ClusterMembership.safe_reconcile s.membership roster

/-- In every run of a daemon, whatever its transports do, a group admits only peers it allows, and
either set holds canonical addresses only. -/
theorem admitted_subset_allowed {es : List (Event T)} (hd : Initial d)
    (h : Steps (total (step V)) d es d') {g : String} {s : ClusterSession T}
    (hs : d'.groups[g]? = some s) :
    (∀ a ∈ s.membership.admitted, a ∈ s.membership.allowed) ∧
      (∀ a ∈ s.membership.admitted, Canonical a) ∧ ∀ a ∈ s.membership.allowed, Canonical a := by
  have hsafe := h.invariant (fun _ _ _ => safe_step) (allSessions_of_initial hd) g s hs
  exact ⟨hsafe.admitted_allowed, fun a ha => hsafe.canonical a (hsafe.admitted_allowed a ha),
    hsafe.canonical⟩

/-- A daemon of a single node. -/
def nodeDaemon : ClusterDaemon InProcessTransport := .new m1 .new

theorem admitted_subset_allowed_sample :
    ∃ s, (([.request (.setRoster "group" [(m1, "member")] [] []), .admitPeer "group" m1 "member"] :
        List (Event InProcessTransport)).foldl (step plainVerifier) nodeDaemon).groups["group"]? =
          some s ∧
      m1 ∈ s.membership.admitted ∧ ∀ a ∈ s.membership.admitted, a ∈ s.membership.allowed := by
  have hrun : (([.request (.setRoster "group" [(m1, "member")] [] []),
      .admitPeer "group" m1 "member"] : List (Event InProcessTransport)).foldl
        (step plainVerifier) nodeDaemon).groups["group"]?.any
          (fun s => s.membership.admitted.contains m1) = true := by
    decide +kernel
  obtain ⟨s, hs, hm⟩ := (Option.any_eq_true _ _).mp hrun
  exact ⟨s, hs, ExtTreeSet.contains_iff_mem.mp hm,
    (admitted_subset_allowed (initial_withFactory _ _) (steps_total_iff.mpr rfl) hs).1⟩

end CitrateCluster.Admission
