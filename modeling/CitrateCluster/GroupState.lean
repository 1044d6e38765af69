import CitrateCluster.Admission

namespace CitrateCluster.GroupState

open Std (ExtTreeMap ExtTreeSet)
open CitrateCluster.Membership Runs Roster Collections Device Registry EffectiveRoster Transport
  Session Daemon ClusterDaemon Ipc DaemonStep

variable {T : Type} {V : LinkVerifier} {d d' : ClusterDaemon T} {g k : String}
  {s : ClusterSession T} {roster : Entries} {links : List DeviceLinkWire}
  {revocations : List RevocationWire}

/-- The member roster that a group was last given, empty before its first. -/
def rosterOf (d : ClusterDaemon T) (g : String) : Entries := (d.deviceState[g]?.getD default).roster

/-- The allowed set of a group, empty without a session. -/
def allowedOf (d : ClusterDaemon T) (g : String) : AddressSet :=
  (d.groups[g]?.map fun s => s.membership.allowed).getD ∅

/-- The two lists of one request stay within the cap of an update. -/
def Fits (links : List DeviceLinkWire) (revocations : List RevocationWire) : Prop :=
  WithinCap (links.map DeviceLinkWire.toSigned) (revocations.map RevocationWire.toSigned)

instance (links : List DeviceLinkWire) (revocations : List RevocationWire) :
    Decidable (Fits links revocations) := inferInstanceAs (Decidable (WithinCap _ _))

theorem allowedOf_of_getElem? (hs : d.groups[g]? = some s) :
    allowedOf d g = s.membership.allowed := by
  simp [allowedOf, hs]

theorem allowed_of_opened (h : Opened d g s) : s.membership.allowed = allowedOf d g := by
  obtain hs | ⟨hn, transport, _, rfl⟩ := h
  · exact (allowedOf_of_getElem? hs).symm
  · simp only [allowedOf, hn]
    rfl

section Rostered

variable [MeshTransport T]

@[simp] theorem registryOf_rostered :
    registryOf (rostered V d g s roster links revocations) g =
      (registryAfter V d g links revocations).2 := by
  simp [registryOf, rostered]

@[simp] theorem rosterOf_rostered :
    rosterOf (rostered V d g s roster links revocations) g = roster := by
  simp [rosterOf, rostered]

@[simp] theorem groups_rostered :
    (rostered V d g s roster links revocations).groups[g]? =
      some (s.applyRoster
        (effectiveRoster roster (registryAfter V d g links revocations).2)).2 := by
  simp [rostered]

@[simp] theorem allowedOf_rostered :
    allowedOf (rostered V d g s roster links revocations) g =
      allowedSet (effectiveRoster roster (registryAfter V d g links revocations).2) := by
  simp [allowedOf]

theorem registryOf_rostered_of_ne (h : k ≠ g) :
    registryOf (rostered V d g s roster links revocations) k = registryOf d k := by
  simp [registryOf, rostered, ExtTreeMap.getElem?_insert, h.symm]

theorem groups_rostered_of_ne (h : k ≠ g) :
    (rostered V d g s roster links revocations).groups[k]? = d.groups[k]? := by
  simp [rostered, ExtTreeMap.getElem?_insert, h.symm]

end Rostered

theorem groups_leave_of_ne (h : k ≠ g) : (d.leave g).groups[k]? = d.groups[k]? := by
  simp [ClusterDaemon.leave, ExtTreeMap.getElem?_erase, h.symm]

theorem allowedOf_leave : allowedOf (d.leave g) g = ∅ := by
  simp [allowedOf, ClusterDaemon.leave]

section Steps

variable [MeshTransport T] {ok : SessionOp T → Prop}

theorem registryOf_of_touched (h : Touched g ok d d') (k : String) :
    registryOf d' k = registryOf d k := by
  rw [registryOf, h.deviceState, registryOf]

/-- Apart from a new roster nothing changes what a group allows. -/
theorem allowedOf_of_touched (h : Touched g ok d d') (k : String) :
    allowedOf d' k = allowedOf d k := by
  obtain hg | ⟨s, ops, hs, _, hg⟩ := h.groups
  · rw [allowedOf, hg, allowedOf]
  · by_cases hk : k = g
    · subst hk
      have hd' : d'.groups[k]? = some (SessionOp.runAll ops s) := by simp [hg]
      rw [allowedOf_of_getElem? hd', SessionOp.runAll_allowed, allowed_of_opened hs]
    · simp [allowedOf, hg, ExtTreeMap.getElem?_insert, Ne.symm hk]

theorem mem_groups_of_touched (h : Touched g ok d d') (hk : k ∈ d.groups) : k ∈ d'.groups := by
  obtain hg | ⟨s, ops, _, _, hg⟩ := h.groups
  · rwa [hg]
  · rw [hg, ExtTreeMap.mem_insert]
    exact .inr hk

/-- What the update of an event preserves holds of all registries after the event. -/
theorem registry_effect {P : DeviceRegistry → Prop} {e : Event T}
    (hupdate : ∀ g roster links revocations reg,
      e = .request (.setRoster g roster links revocations) → P reg →
        P (reg.update (links.map DeviceLinkWire.toSigned)
          (revocations.map RevocationWire.toSigned) V).2)
    (h : ∀ k, P (registryOf d k)) (he : Effect V d e d') : ∀ k, P (registryOf d' k) := by
  intro k
  cases he with
  | @rostered g s roster links revocations =>
    by_cases hk : k = g
    · subst hk
      rw [registryOf_rostered]
      exact hupdate k roster links revocations _ rfl (h k)
    · rw [registryOf_rostered_of_ne hk]
      exact h k
  | quiet _ ht =>
    rw [registryOf_of_touched ht]
    exact h k
  | _ => exact h k

/-- What every reachable daemon has: safe sessions and well-formed registries. -/
structure Sound (d : ClusterDaemon T) : Prop where
  sessions : AllSessions (fun s => s.membership.Safe) d
  registries : ∀ k, WellFormed (registryOf d k)

omit [MeshTransport T] in
theorem sound_of_initial (h : Initial d) : Sound d where
  sessions := allSessions_of_initial h
  registries := by
    intro k
    have hk : registryOf d k = .new := by
      simp only [registryOf, h.deviceState]
      rfl
    rw [hk]
    exact wellFormed_new

theorem Sound.step {e : Event T} (h : Sound d) (hs : total (step V) d e d') : Sound d' := by
  refine ⟨Admission.safe_step h.sessions hs, ?_⟩
  rw [hs]
  exact registry_effect (fun _ _ links revocations _ _ h => h.update V _ _) h.registries
    (effect_step V d e)

theorem sound_of_steps {es : List (Event T)} (hd : Initial d) (h : Steps (total (step V)) d es d') :
    Sound d' :=
  h.invariant (fun _ _ _ h hs => h.step hs) (sound_of_initial hd)

end Steps

section Samples

def linkWire (s : SignedDeviceLink) : DeviceLinkWire :=
  ⟨s.link.member, s.link.device, s.link.wallet, s.link.index, s.link.label, s.link.issuedAt,
    s.memberSig, s.deviceSig, s.walletSig⟩

@[simp] theorem toSigned_linkWire (s : SignedDeviceLink) : (linkWire s).toSigned = s := rfl

def revocationWire (r : SignedRevocation) : RevocationWire :=
  ⟨r.revocation.member, r.revocation.device, r.revocation.revokedAt, r.memberSig⟩

@[simp] theorem toSigned_revocationWire (r : SignedRevocation) : (revocationWire r).toSigned = r :=
  rfl

theorem handleRequest_nodeDaemon (V : LinkVerifier) (roster : Entries)
    (links : List DeviceLinkWire) (revocations : List RevocationWire) :
    ∃ evicted rejected,
      handleRequest V Admission.nodeDaemon (.setRoster "group" roster links revocations) =
        (.reconciled evicted rejected, rostered V Admission.nodeDaemon "group" (.new [] .new)
          roster links revocations) := by
  refine ⟨_, _, handleRequest_setRoster_of_ensureSession V rfl ?_ roster links revocations⟩
  rfl

/-- A node whose first call links a device has it on file. -/
theorem registryAfter_linked {l : DeviceLink} (h : l.Valid) :
    registryAfter plainVerifier Admission.nodeDaemon "group" [linkWire (signed l)] [] =
      ([], onlyLink l) := by
  have hnew : registryOf Admission.nodeDaemon "group" = .new := rfl
  rw [registryAfter, hnew]
  exact update_single (body_signed h) (Nat.zero_le _) rfl

end Samples

end CitrateCluster.GroupState
