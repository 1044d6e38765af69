import CitrateCluster.ClusterAdmission
import Mathlib.Data.Set.Card

namespace CitrateCluster.DeviceLinkModel

open Runs Simulation

section Model

variable {M D K : Type}

/-- The state of the device model: the members that the roster allows, the key each device drew, the
links and revocations, and who is meshed, as a device or under a member's comms identity. -/
@[ext]
structure State (M D K : Type) where
  allowed : Set M
  key : D → Option K
  links : Set (D × M)
  revoked : Set D
  admitted : Set D
  legacy : Set M
  revokedBy : Set (D × M)
  revokeLog : Set (D × M)

/-- The links of one device. -/
def linksOf (L : Set (D × M)) (d : D) : Set (D × M) := {x | x ∈ L ∧ x.1 = d}

def memberOf (s : State M D K) (d : D) : Set M := {m | (d, m) ∈ s.links}

def LinkedToAllowed (s : State M D K) (d : D) : Prop := ∃ m ∈ s.allowed, (d, m) ∈ s.links

def allowedDevices (s : State M D K) : Set D := {d | LinkedToAllowed s d ∧ d ∉ s.revoked}

def usedKeys (s : State M D K) : Set K := {k | ∃ d, s.key d = some k}

def OnDeviceKeys (s : State M D K) (m : M) : Prop :=
  (∃ d, (d, m) ∈ s.links) ∨ ∃ d, (d, m) ∈ s.revokedBy

def legacyAllowed (s : State M D K) : Set M := {m | m ∈ s.allowed ∧ ¬ OnDeviceKeys s m}

structure Init (s : State M D K) : Prop where
  key : s.key = fun _ => none
  links : s.links = ∅
  revoked : s.revoked = ∅
  admitted : s.admitted = ∅
  legacy : s.legacy = ∅
  revokedBy : s.revokedBy = ∅
  revokeLog : s.revokeLog = ∅

inductive Action (M D : Type) where
  | mintKey (d : D)
  | issueLink (d : D) (m : M)
  | admitDevice (d : D)
  | leave (d : D)
  | revoke (d : D)
  | reconcile (na : Set M)
  | legacyAdmit (m : M)
  | legacyLeave (m : M)
  | dropLink (d : D)

/-- The actions of single peers. -/
def Action.IsPeer : Action M D → Prop
  | admitDevice _ | leave _ | legacyAdmit _ | legacyLeave _ => True
  | _ => False

/-- The actions on keys, links and revocations. -/
def Action.IsLink : Action M D → Prop
  | mintKey _ | issueLink _ _ | revoke _ | dropLink _ => True
  | _ => False

inductive Next [DecidableEq D] : State M D K → Action M D → State M D K → Prop where
  | mintKey {s : State M D K} {d : D} {k : K} (h : s.key d = none) (hk : k ∉ usedKeys s) :
      Next s (.mintKey d) { s with key := Function.update s.key d (some k) }
  | issueLink {s : State M D K} {d : D} {m : M} (h : s.key d ≠ none) (hr : d ∉ s.revoked)
      (hm : memberOf s d ⊆ {m}) :
      Next s (.issueLink d m)
        { s with links := insert (d, m) s.links, legacy := s.legacy \ {m} }
  | admitDevice {s : State M D K} {d : D} (h : d ∈ allowedDevices s) (hn : d ∉ s.admitted) :
      Next s (.admitDevice d) { s with admitted := insert d s.admitted }
  | leave {s : State M D K} {d : D} (h : d ∈ s.admitted) :
      Next s (.leave d) { s with admitted := s.admitted \ {d} }
  | revoke {s : State M D K} {d : D} (h : linksOf s.links d ≠ ∅) :
      Next s (.revoke d)
        { s with
          revoked := insert d s.revoked
          admitted := s.admitted \ {d}
          legacy := s.legacy \ memberOf s d
          revokedBy := s.revokedBy ∪ linksOf s.links d
          revokeLog := s.revokeLog ∪ linksOf s.links d }
  | reconcile (s : State M D K) (na : Set M) :
      Next s (.reconcile na)
        { s with
          allowed := na
          admitted := {d | d ∈ s.admitted ∧ ∃ m ∈ na, (d, m) ∈ s.links}
          legacy := s.legacy ∩ na }
  | legacyAdmit {s : State M D K} {m : M} (h : m ∈ legacyAllowed s) (hn : m ∉ s.legacy) :
      Next s (.legacyAdmit m) { s with legacy := insert m s.legacy }
  | legacyLeave {s : State M D K} {m : M} (h : m ∈ s.legacy) :
      Next s (.legacyLeave m) { s with legacy := s.legacy \ {m} }
  | dropLink {s : State M D K} {d : D} (h : linksOf s.links d ≠ ∅) :
      Next s (.dropLink d)
        { s with links := s.links \ linksOf s.links d, admitted := s.admitted \ {d} }

/-- What the specification asserts of every reachable state. -/
structure Safe (s : State M D K) : Prop where
  noActWithoutLink : ∀ d ∈ s.admitted, LinkedToAllowed s d
  revokedDeviceEvicted : s.admitted ∩ s.revoked = ∅
  distinctPeerIds : ∀ d₁ d₂, d₁ ≠ d₂ → s.key d₁ ≠ none → s.key d₂ ≠ none → s.key d₁ ≠ s.key d₂
  oneMemberPerDevice : ∀ d, (memberOf s d).encard ≤ 1
  admittedSubsetAllowed : s.admitted ⊆ allowedDevices s
  legacyOnlyWithoutDevices : ∀ m ∈ s.legacy, ¬ OnDeviceKeys s m
  revokedMachineNotBackAsMember : ∀ m ∈ s.legacy, ∀ d, (d, m) ∉ s.revokeLog
  legacySubsetAllowed : s.legacy ⊆ s.allowed

/-- What the steps preserve: besides who is meshed, each key was drawn once, each device is linked to
one member, and the history is what the gate has on record. -/
structure Inductive (s : State M D K) : Prop where
  admitted : s.admitted ⊆ allowedDevices s
  legacy : s.legacy ⊆ legacyAllowed s
  keys : ∀ d₁ d₂ k, s.key d₁ = some k → s.key d₂ = some k → d₁ = d₂
  members : ∀ d m₁ m₂, (d, m₁) ∈ s.links → (d, m₂) ∈ s.links → m₁ = m₂
  log : s.revokeLog = s.revokedBy

theorem Inductive.safe {s : State M D K} (h : Inductive s) : Safe s where
  noActWithoutLink := fun d hd => (h.admitted hd).1
  revokedDeviceEvicted := by
    ext d
    exact iff_of_false (fun hd => (h.admitted hd.1).2 hd.2) id
  distinctPeerIds := by
    intro d₁ d₂ hne h₁ _ heq
    obtain ⟨k, hk⟩ := Option.ne_none_iff_exists'.mp h₁
    exact hne (h.keys d₁ d₂ k hk (heq ▸ hk))
  oneMemberPerDevice := by
    intro d
    rw [Set.encard_le_one_iff]
    exact fun m₁ m₂ => h.members d m₁ m₂
  admittedSubsetAllowed := h.admitted
  legacyOnlyWithoutDevices := fun m hm => (h.legacy hm).2
  revokedMachineNotBackAsMember := by
    intro m hm d hd
    exact (h.legacy hm).2 (.inr ⟨d, h.log ▸ hd⟩)
  legacySubsetAllowed := fun m hm => (h.legacy hm).1

theorem inductive_of_init {s : State M D K} (h : Init s) : Inductive s where
  admitted := by simp [h.admitted]
  legacy := by simp [h.legacy]
  keys := by simp [h.key]
  members := by simp [h.links]
  log := by rw [h.revokeLog, h.revokedBy]

variable [DecidableEq D]

theorem keys_update {key : D → Option K} {d : D} {k : K}
    (h : ∀ d₁ d₂ k, key d₁ = some k → key d₂ = some k → d₁ = d₂)
    (hk : ∀ d, key d ≠ some k) (d₁ d₂ : D) (k' : K)
    (h₁ : Function.update key d (some k) d₁ = some k')
    (h₂ : Function.update key d (some k) d₂ = some k') : d₁ = d₂ := by
  by_cases hd₁ : d₁ = d <;> by_cases hd₂ : d₂ = d
  · rw [hd₁, hd₂]
  · subst hd₁
    rw [Function.update_self, Option.some.injEq] at h₁
    rw [Function.update_of_ne hd₂, ← h₁] at h₂
    exact absurd h₂ (hk d₂)
  · subst hd₂
    rw [Function.update_self, Option.some.injEq] at h₂
    rw [Function.update_of_ne hd₁, ← h₂] at h₁
    exact absurd h₁ (hk d₁)
  · rw [Function.update_of_ne hd₁] at h₁
    rw [Function.update_of_ne hd₂] at h₂
    exact h d₁ d₂ k' h₁ h₂

theorem Inductive.step {s t : State M D K} {a : Action M D} (h : Inductive s) (hs : Next s a t) :
    Inductive t := by
  cases hs with
  | mintKey _ hk =>
    exact { h with keys := keys_update h.keys fun d hd => hk ⟨d, hd⟩ }
  | @issueLink d m _ hr hm =>
    refine ⟨?_, ?_, h.keys, ?_, h.log⟩
    · intro e he
      obtain ⟨⟨m', hm', hl⟩, hrev⟩ := h.admitted he
      exact ⟨⟨m', hm', .inr hl⟩, hrev⟩
    · rintro m' ⟨hm', hne⟩
      refine ⟨(h.legacy hm').1, ?_⟩
      rintro (⟨e, he | he⟩ | hrev)
      · exact hne (Prod.ext_iff.mp he).2
      · exact (h.legacy hm').2 (.inl ⟨e, he⟩)
      · exact (h.legacy hm').2 (.inr hrev)
    · rintro e m₁ m₂ (h₁ | h₁) (h₂ | h₂)
      · exact (Prod.ext_iff.mp (h₁.trans h₂.symm)).2
      · obtain ⟨rfl, rfl⟩ := Prod.ext_iff.mp h₁
        exact (hm h₂).symm
      · obtain ⟨rfl, rfl⟩ := Prod.ext_iff.mp h₂
        exact hm h₁
      · exact h.members e m₁ m₂ h₁ h₂
  | admitDevice hd => exact { h with admitted := Set.insert_subset hd h.admitted }
  | leave => exact { h with admitted := Set.sdiff_subset.trans h.admitted }
  | @revoke d =>
    refine ⟨?_, ?_, h.keys, h.members, by simp only [h.log]⟩
    · rintro e ⟨he, hne⟩
      obtain ⟨hl, hrev⟩ := h.admitted he
      exact ⟨hl, fun hrev' => hrev'.elim hne hrev⟩
    · rintro m ⟨hm, hne⟩
      refine ⟨(h.legacy hm).1, ?_⟩
      rintro (hl | ⟨e, hrev | ⟨hl, rfl⟩⟩)
      · exact (h.legacy hm).2 (.inl hl)
      · exact (h.legacy hm).2 (.inr ⟨e, hrev⟩)
      · exact hne hl
  | reconcile =>
    refine ⟨?_, ?_, h.keys, h.members, h.log⟩
    · rintro d ⟨hd, hl⟩
      exact ⟨hl, (h.admitted hd).2⟩
    · rintro m ⟨hm, hna⟩
      exact ⟨hna, (h.legacy hm).2⟩
  | legacyAdmit hm => exact { h with legacy := Set.insert_subset hm h.legacy }
  | legacyLeave => exact { h with legacy := Set.sdiff_subset.trans h.legacy }
  | @dropLink d =>
    refine ⟨?_, ?_, h.keys, fun e m₁ m₂ h₁ h₂ => h.members e m₁ m₂ h₁.1 h₂.1, h.log⟩
    · rintro e ⟨he, hne⟩
      obtain ⟨⟨m, hm, hl⟩, hrev⟩ := h.admitted he
      exact ⟨⟨m, hm, hl, fun hd => hne hd.2⟩, hrev⟩
    · intro m hm
      refine ⟨(h.legacy hm).1, ?_⟩
      rintro (⟨e, he⟩ | hrev)
      · exact (h.legacy hm).2 (.inl ⟨e, he.1⟩)
      · exact (h.legacy hm).2 (.inr hrev)

theorem inductive_of_steps {s t : State M D K} {acts : List (Action M D)} (hs : Init s)
    (h : Steps Next s acts t) : Inductive t :=
  h.invariant (fun _ _ _ => .step) (inductive_of_init hs)

/-- In every state that any members, devices and keys can reach, all that the specification asserts
holds: for each interleaving of links, revocations, rosters and peers that come and go. -/
theorem deviceLink_safe {s t : State M D K} {acts : List (Action M D)} (hs : Init s)
    (h : Steps Next s acts t) : Safe t :=
  (inductive_of_steps hs h).safe

section Admission

/-- The device model's gate in the words of the admission model: it allows the devices with a live
link to an allowed member, and the members that are allowed under their comms identity. -/
def admission (s : State M D K) : ClusterAdmission.State (D ⊕ M) where
  allowed := Sum.inl '' allowedDevices s ∪ Sum.inr '' legacyAllowed s
  admitted := Sum.inl '' s.admitted ∪ Sum.inr '' s.legacy

/-- A device or a member that meshes joins, and one that closes its connection leaves. What moves the
gate is a `Reconcile` with what the gate allows then, and keys are not seen. -/
def explains (_ : State M D K) (a : Action M D) (s' : State M D K)
    (acts : List (ClusterAdmission.Action (D ⊕ M))) : Prop :=
  match a with
  | .mintKey _ => acts = []
  | .admitDevice d => acts = [.join (.inl d)]
  | .leave d => acts = [.leave (.inl d)]
  | .legacyAdmit m => acts = [.join (.inr m)]
  | .legacyLeave m => acts = [.leave (.inr m)]
  | .issueLink _ _ | .revoke _ | .reconcile _ | .dropLink _ =>
    acts = [.reconcile (admission s').allowed]

omit [DecidableEq D] in
theorem Inductive.subset_admission {s : State M D K} (h : Inductive s) :
    (admission s).admitted ⊆ (admission s).allowed :=
  Set.union_subset_union (Set.image_mono h.admitted) (Set.image_mono h.legacy)

omit [DecidableEq D] in
/-- Whoever is meshed and allowed afterwards stays meshed, and nobody else. -/
theorem next_reconcile {s s' : State M D K} (h : Inductive s') (hd : s'.admitted ⊆ s.admitted)
    (hm : s'.legacy ⊆ s.legacy) (hback : s.admitted ∩ allowedDevices s' ⊆ s'.admitted)
    (hback' : s.legacy ∩ legacyAllowed s' ⊆ s'.legacy) :
    ClusterAdmission.Next (admission s) (.reconcile (admission s').allowed) (admission s') := by
  have hadmitted : (admission s').admitted =
      (admission s).admitted ∩ (admission s').allowed := by
    apply Set.Subset.antisymm
    · refine Set.subset_inter ?_ h.subset_admission
      exact Set.union_subset_union (Set.image_mono hd) (Set.image_mono hm)
    · rintro _ ⟨⟨d, hs, rfl⟩ | ⟨m, hs, rfl⟩, hallowed⟩
      · have hd' : d ∈ allowedDevices s' := by simpa [admission] using hallowed
        exact .inl ⟨d, hback ⟨hs, hd'⟩, rfl⟩
      · have hm' : m ∈ legacyAllowed s' := by simpa [admission] using hallowed
        exact .inr ⟨m, hback' ⟨hs, hm'⟩, rfl⟩
  have hnext := ClusterAdmission.Next.reconcile (admission s) (admission s').allowed
  rwa [← hadmitted] at hnext

theorem simulates_admission :
    Simulates (Next (M := M) (D := D) (K := K)) ClusterAdmission.Next
      (fun s t => Inductive s ∧ t = admission s) explains := by
  rintro s a s' _ ⟨hind, rfl⟩ hs
  have hind' := hind.step hs
  refine (?_ : ∃ acts, explains s a s' acts ∧
    Steps ClusterAdmission.Next (admission s) acts (admission s')).imp
      fun acts h => ⟨_, h.1, h.2, hind', rfl⟩
  cases hs with
  | mintKey => exact ⟨[], rfl, .nil _⟩
  | @admitDevice d hd hn =>
    have hstate : admission { s with admitted := insert d s.admitted } =
        { admission s with admitted := insert (.inl d) (admission s).admitted } := by
      ext x
      · rfl
      · cases x <;> simp [admission]
    rw [hstate]
    exact ⟨_, rfl, .single (.join (.inl ⟨d, hd, rfl⟩) (by simpa [admission] using hn))⟩
  | @leave d hd =>
    have hstate : admission { s with admitted := s.admitted \ {d} } =
        { admission s with admitted := (admission s).admitted \ {.inl d} } := by
      ext x
      · rfl
      · cases x <;> simp [admission]
    rw [hstate]
    exact ⟨_, rfl, .single (.leave (.inl ⟨d, hd, rfl⟩))⟩
  | @legacyAdmit m hm hn =>
    have hstate : admission { s with legacy := insert m s.legacy } =
        { admission s with admitted := insert (.inr m) (admission s).admitted } := by
      ext x
      · rfl
      · cases x <;> simp [admission]
    rw [hstate]
    exact ⟨_, rfl, .single (.join (.inr ⟨m, hm, rfl⟩) (by simpa [admission] using hn))⟩
  | @legacyLeave m hm =>
    have hstate : admission { s with legacy := s.legacy \ {m} } =
        { admission s with admitted := (admission s).admitted \ {.inr m} } := by
      ext x
      · rfl
      · cases x <;> simp [admission]
    rw [hstate]
    exact ⟨_, rfl, .single (.leave (.inr ⟨m, hm, rfl⟩))⟩
  | @issueLink d m =>
    refine ⟨_, rfl, .single (next_reconcile hind' subset_rfl Set.sdiff_subset
      Set.inter_subset_left ?_)⟩
    rintro m' ⟨hm', _, hfree⟩
    refine ⟨hm', ?_⟩
    rintro rfl
    exact hfree (.inl ⟨d, Set.mem_insert _ _⟩)
  | @revoke d =>
    refine ⟨_, rfl, .single (next_reconcile hind' Set.sdiff_subset Set.sdiff_subset ?_ ?_)⟩
    · exact fun e ⟨he, _, hrev⟩ => ⟨he, fun hd => hrev (.inl hd)⟩
    · exact fun m ⟨hm, _, hfree⟩ => ⟨hm, fun hl => hfree (.inl ⟨d, hl⟩)⟩
  | reconcile =>
    refine ⟨_, rfl, .single (next_reconcile hind' (fun e he => he.1) Set.inter_subset_left ?_ ?_)⟩
    · exact fun e ⟨he, hl, _⟩ => ⟨he, hl⟩
    · exact fun m ⟨hm, hna, _⟩ => ⟨hm, hna⟩
  | dropLink =>
    refine ⟨_, rfl, .single (next_reconcile hind' Set.sdiff_subset subset_rfl ?_
      Set.inter_subset_left)⟩
    exact fun e ⟨he, ⟨m, _, hl⟩, _⟩ => ⟨he, fun hd => hl.2 ⟨hl.1, hd⟩⟩

/-- The device model runs as the admission model does, over its own gate and state by state. -/
theorem deviceLink_refines_admission {s t : State M D K} {acts : List (Action M D)} (hs : Init s)
    (h : Steps Next s acts t) :
    ClusterAdmission.Init (admission s) ∧
      Lockstep Next ClusterAdmission.Next (fun s t => t = admission s) explains s (admission s)
        acts t (admission t) := by
  obtain ⟨_, hlock⟩ := simulates_admission.lockstep h ⟨inductive_of_init hs, rfl⟩
  obtain rfl := hlock.last.2
  refine ⟨?_, hlock.mono fun _ _ h => h.2⟩
  simp [ClusterAdmission.Init, admission, hs.admitted, hs.legacy]

end Admission

end Model

section Samples

/-- One member on the roster, and no device yet. -/
def start : State Nat Nat Nat := ⟨{0}, fun _ => none, ∅, ∅, ∅, ∅, ∅, ∅⟩

theorem init_start : Init start := ⟨rfl, rfl, rfl, rfl, rfl, rfl, rfl⟩

/-- A member meshes under its comms identity, then links a device, which takes its place. -/
def linking : List (Action Nat Nat) := [.legacyAdmit 0, .mintKey 1, .issueLink 1 0, .admitDevice 1]

theorem steps_linking : ∃ t, Steps Next start linking t ∧ t.admitted = {1} ∧ t.legacy = ∅ := by
  refine ⟨_, .cons (.legacyAdmit ?_ ?_) (.cons (.mintKey (k := 7) rfl ?_)
    (.cons (.issueLink ?_ ?_ ?_) (.single (.admitDevice ?_ ?_)))), ?_, ?_⟩
  all_goals
    simp [start, legacyAllowed, OnDeviceKeys, usedKeys, memberOf, allowedDevices,
      LinkedToAllowed]

theorem deviceLink_safe_sample : ∃ t : State Nat Nat Nat, t.admitted = {1} ∧ Safe t := by
  obtain ⟨t, h, hadmitted, _⟩ := steps_linking
  exact ⟨t, hadmitted, deviceLink_safe init_start h⟩

theorem deviceLink_refines_admission_sample :
    ∃ t, Lockstep Next ClusterAdmission.Next (fun s t => t = admission s) explains start
        ⟨{.inr 0}, ∅⟩ linking t (admission t) ∧ (admission t).admitted = {.inl 1} := by
  obtain ⟨t, h, hadmitted, hlegacy⟩ := steps_linking
  have hlock := (deviceLink_refines_admission init_start h).2
  have hstart : admission start = ⟨{.inr 0}, ∅⟩ := by
    ext x <;> cases x <;>
      simp [admission, allowedDevices, legacyAllowed, LinkedToAllowed, OnDeviceKeys, start]
  rw [hstart] at hlock
  exact ⟨t, hlock, by simp [admission, hadmitted, hlegacy]⟩

end Samples

end CitrateCluster.DeviceLinkModel
