import CitrateCluster.Runs
import Mathlib.Data.Set.Finite.Basic

namespace CitrateCluster.Simulation

open Runs

variable {σ τ ε α : Type} {R : σ → ε → σ → Prop} {S : τ → α → τ → Prop}

/-- From related states, a step of one system is matched by a run of the other, over labels that
explain the step. The run may be empty. -/
def Simulates (R : σ → ε → σ → Prop) (S : τ → α → τ → Prop) (rel : σ → τ → Prop)
    (explains : σ → ε → σ → List α → Prop) : Prop :=
  ∀ s e s' t, rel s t → R s e s' →
    ∃ acts t', explains s e s' acts ∧ Steps S t acts t' ∧ rel s' t'

/-- A run of one system beside a run of another. Their states are related before, between and after
the steps, and each step stands beside a run over labels that explain it. -/
inductive Lockstep (R : σ → ε → σ → Prop) (S : τ → α → τ → Prop) (rel : σ → τ → Prop)
    (explains : σ → ε → σ → List α → Prop) : σ → τ → List ε → σ → τ → Prop where
  | nil {s : σ} {t : τ} (h : rel s t) : Lockstep R S rel explains s t [] s t
  | cons {s s' s'' : σ} {t t' t'' : τ} {e : ε} {es : List ε} {acts : List α} (h : rel s t)
      (hstep : R s e s') (hexplains : explains s e s' acts) (hsteps : Steps S t acts t')
      (hrest : Lockstep R S rel explains s' t' es s'' t'') :
      Lockstep R S rel explains s t (e :: es) s'' t''

section Runs

variable {rel rel' : σ → τ → Prop} {explains : σ → ε → σ → List α → Prop} {s s' : σ} {t t' : τ}
  {es : List ε}

/-- What is matched step by step is matched over whole runs. -/
theorem Simulates.lockstep (h : Simulates R S rel explains) (hs : Steps R s es s')
    (hrel : rel s t) : ∃ t', Lockstep R S rel explains s t es s' t' := by
  induction hs generalizing t with
  | nil => exact ⟨t, .nil hrel⟩
  | cons hr _ ih =>
    obtain ⟨acts, t₁, hacts, hsteps, hrel₁⟩ := h _ _ _ _ hrel hr
    obtain ⟨t₂, hrest⟩ := ih hrel₁
    exact ⟨t₂, .cons hrel hr hacts hsteps hrest⟩

theorem Lockstep.mono (h : Lockstep R S rel explains s t es s' t')
    (hrel : ∀ s t, rel s t → rel' s t) : Lockstep R S rel' explains s t es s' t' := by
  induction h with
  | nil h => exact .nil (hrel _ _ h)
  | cons h hstep hexplains hsteps _ ih => exact .cons (hrel _ _ h) hstep hexplains hsteps ih

/-- The second system runs from its first state to its last. -/
theorem Lockstep.steps (h : Lockstep R S rel explains s t es s' t') :
    ∃ acts, Steps S t acts t' := by
  induction h with
  | nil => exact ⟨[], .nil _⟩
  | cons _ _ _ hsteps _ ih =>
    obtain ⟨rest, hrest⟩ := ih
    exact ⟨_, hsteps.append hrest⟩

theorem Lockstep.last (h : Lockstep R S rel explains s t es s' t') : rel s' t' := by
  induction h with
  | nil h => exact h
  | cons _ _ _ _ _ ih => exact ih

end Runs

section Leads

variable {label label' : α → Prop} {P Q : τ → Prop} {s t : τ} {a : α}

/-- Some run over labels of one kind leads to a state of the given kind. -/
def Leads (S : τ → α → τ → Prop) (label : α → Prop) (s : τ) (P : τ → Prop) : Prop :=
  ∃ acts t, (∀ a ∈ acts, label a) ∧ Steps S s acts t ∧ P t

theorem Leads.refl (h : P s) : Leads S label s P := ⟨[], s, by simp, .nil s, h⟩

theorem Leads.single (ha : label a) (h : S s a t) (ht : P t) : Leads S label s P :=
  ⟨[a], t, by simpa using ha, .single h, ht⟩

theorem Leads.bind (h : Leads S label s P) (k : ∀ t, P t → Leads S label t Q) :
    Leads S label s Q := by
  obtain ⟨acts, t, hacts, hsteps, ht⟩ := h
  obtain ⟨rest, u, hrest, hsteps', hu⟩ := k t ht
  exact ⟨acts ++ rest, u, fun a ha => (List.mem_append.mp ha).elim (hacts a) (hrest a),
    hsteps.append hsteps', hu⟩

theorem Leads.mono (h : Leads S label s P) (k : ∀ t, P t → Q t) : Leads S label s Q :=
  h.bind fun t ht => .refl (k t ht)

variable {γ : Type} (holds : Set γ → τ → Prop) (good : γ → Prop) {A B : Set γ}

/-- A set that the states hold, which a run can extend by any good element. -/
theorem leads_union
    (hadd : ∀ A x s, holds A s → x ∉ A → good x → Leads S label s (holds (insert x A)))
    (hB : B.Finite) (hgood : ∀ x ∈ B, good x) (hs : holds A s) :
    Leads S label s (holds (A ∪ B)) := by
  induction B, hB using Set.Finite.induction_on with
  | empty =>
    rw [Set.union_empty]
    exact .refl hs
  | @insert x B _ _ ih =>
    apply (ih fun y hy => hgood y (Set.mem_insert_of_mem x hy)).bind
    intro t ht
    rw [Set.union_insert]
    by_cases hx : x ∈ A ∪ B
    · rw [Set.insert_eq_of_mem hx]
      exact .refl ht
    · exact hadd _ x t ht hx (hgood x (Set.mem_insert x B))

theorem leads_diff
    (hdrop : ∀ A x s, holds A s → x ∈ A → Leads S label s (holds (A \ {x})))
    (hB : B.Finite) (hs : holds A s) : Leads S label s (holds (A \ B)) := by
  induction B, hB using Set.Finite.induction_on with
  | empty =>
    rw [Set.sdiff_empty]
    exact .refl hs
  | @insert x B _ _ ih =>
    apply ih.bind
    intro t ht
    have hdiff : A \ insert x B = (A \ B) \ {x} := by
      ext y
      simp only [Set.mem_sdiff, Set.mem_insert_iff, Set.mem_singleton_iff]
      tauto
    rw [hdiff]
    by_cases hx : x ∈ A \ B
    · exact hdrop _ x t ht hx
    · rw [Set.sdiff_singleton_eq_self hx]
      exact .refl ht

/-- One finite set is exchanged for another, an element at a time. -/
theorem leads_exchange
    (hadd : ∀ A x s, holds A s → x ∉ A → good x → Leads S label s (holds (insert x A)))
    (hdrop : ∀ A x s, holds A s → x ∈ A → Leads S label s (holds (A \ {x})))
    (hA : A.Finite) (hB : B.Finite) (hgood : ∀ x ∈ B, good x) (hs : holds A s) :
    Leads S label s (holds B) := by
  apply (leads_diff holds hdrop (hA.subset (Set.sdiff_subset (t := B))) hs).bind
  intro t ht
  have h := leads_union holds good hadd hB hgood ht
  rwa [Set.sdiff_sdiff_right_self, Set.union_eq_self_of_subset_left Set.inter_subset_right] at h

end Leads

end CitrateCluster.Simulation
