import CitrateCluster.GroupState

namespace CitrateCluster.Refusals

open Std (ExtTreeMap ExtTreeSet)
open CitrateCluster.Membership Text Runs Roster Collections Device Registry Transport Session Daemon
  ClusterDaemon Ipc DaemonStep GroupState

variable {T : Type} {V : LinkVerifier} {d d' d'' : ClusterDaemon T} {g : String}
  {s : ClusterSession T}

/-- A daemon is as before, but for the state of its transports. -/
structure SameBooks (d d' : ClusterDaemon T) : Prop where
  membership : ∀ g : String, (d'.groups[g]?).map (·.membership) = (d.groups[g]?).map (·.membership)
  sharedFiles : d'.sharedFiles = d.sharedFiles
  deviceState : d'.deviceState = d.deviceState

theorem SameBooks.refl (d : ClusterDaemon T) : SameBooks d d := ⟨fun _ => rfl, rfl, rfl⟩

/-- A call on the transport of a session. -/
theorem sameBooks_setSession (hs : d.groups[g]? = some s) (transport : T) :
    SameBooks d (d.setSession g { s with transport }) := by
  refine ⟨fun k => ?_, rfl, rfl⟩
  by_cases hk : g = k
  · subst hk
    simp [setSession, hs]
  · simp [setSession, ExtTreeMap.getElem?_insert, hk]

/-- The sessions of a daemon are those that it had. -/
theorem SameBooks.mem_groups (h : SameBooks d d') : g ∈ d'.groups ↔ g ∈ d.groups := by
  have hsome := congrArg Option.isSome (h.membership g)
  simp only [Option.isSome_map] at hsome
  rw [ExtTreeMap.mem_iff_isSome_getElem?, hsome, ExtTreeMap.mem_iff_isSome_getElem?]

variable [MeshTransport T] {message : String}

omit [MeshTransport T] in
theorem join_refused (h : (d.join g).1 = .error message) : (d.join g).2 = d := by
  revert h
  rw [join]
  split
  · exact fun _ => rfl
  · split
    · exact fun _ => rfl
    · exact fun h => by cases h

theorem shareFile_refused {cid : String} (h : (d.shareFile g cid).1 = .error message) :
    (d.shareFile g cid).2 = d := by
  revert h
  rw [shareFile]
  split
  · exact fun _ => rfl
  · split
    · exact fun _ => rfl
    · dsimp only
      split
      · exact fun _ => rfl
      · exact fun h => by cases h

/-- The transport is asked for its addresses, whatever becomes of the answer. -/
theorem sameBooks_seed (d : ClusterDaemon T) (g : String) : SameBooks d (d.seed g).2 := by
  rw [seed]
  split
  · exact .refl d
  · next s hs =>
    have h : SameBooks d (d.setSession g { s with transport := (seedAddrs s.transport).2 }) :=
      sameBooks_setSession hs _
    dsimp only
    split
    · exact h
    · split
      · exact h
      · split <;> exact h

theorem sameBooks_addSeed (d : ClusterDaemon T) (g text : String) :
    SameBooks d (d.addSeed g text).2 := by
  rw [addSeed]
  split
  · exact .refl d
  · split
    · exact .refl d
    · split
      · exact .refl d
      · next s hs => exact sameBooks_setSession hs _

theorem sameBooks_of_refused {r : Request} (h : (handleRequest V d r).1 = .error message) :
    SameBooks d (handleRequest V d r).2 := by
  cases r with
  | setRoster g roster links revocations =>
    obtain ⟨e, he⟩ | ⟨s, _, he⟩ := handleRequest_setRoster_cases V d g roster links revocations
    · rw [he]
      exact .refl d
    · rw [he] at h
      cases h
  | join g =>
    have hjoin : (d.join g).1 = .error message → (d.join g).2 = d := join_refused
    simp only [handleRequest] at h ⊢
    split at h
    · cases h
    · next d' heq =>
      cases h
      simp only [heq] at hjoin ⊢
      rw [hjoin trivial]
      exact .refl d
  | shareFile g cid =>
    have hshare : (d.shareFile g cid).1 = .error message → (d.shareFile g cid).2 = d :=
      shareFile_refused
    simp only [handleRequest] at h ⊢
    split at h
    · cases h
    · next d' heq =>
      cases h
      simp only [heq] at hshare ⊢
      rw [hshare trivial]
      exact .refl d
  | seed g =>
    have hseed := sameBooks_seed d g
    simp only [handleRequest]
    split <;> simp_all
  | addSeed g text =>
    have hadd := sameBooks_addSeed d g text
    simp only [handleRequest]
    split <;> simp_all
  | _ => simp [handleRequest] at h

/-- A request that is answered with an error leaves the set of sessions, their memberships, the
shared sets, the rosters and the registries as they were. -/
theorem refused_request_changes_nothing (V : LinkVerifier) (d : ClusterDaemon T) (r : Request)
    (message : String) (h : (handleRequest V d r).1 = .error message) :
    (∀ g, g ∈ (handleRequest V d r).2.groups ↔ g ∈ d.groups) ∧
      SameBooks d (handleRequest V d r).2 := by
  have hbooks := sameBooks_of_refused h
  exact ⟨fun _ => hbooks.mem_groups, hbooks⟩

theorem refused_request_changes_nothing_sample :
    SameBooks (step plainVerifier Admission.nodeDaemon (.request (.join "group")))
      (handleRequest plainVerifier (step plainVerifier Admission.nodeDaemon
        (.request (.join "group"))) (.addSeed "group" "seed")).2 := by
  refine (refused_request_changes_nothing plainVerifier _ (.addSeed "group" "seed")
    "not a cluster seed" ?_).2
  decide +kernel

end CitrateCluster.Refusals
