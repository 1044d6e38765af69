import Mathlib.Logic.Relation

namespace CitrateCluster.Runs

variable {σ ε : Type}

/-- A finite run: the states are linked by labelled steps, in order. -/
inductive Steps (R : σ → ε → σ → Prop) : σ → List ε → σ → Prop where
  | nil (s : σ) : Steps R s [] s
  | cons {s t u : σ} {e : ε} {es : List ε} : R s e t → Steps R t es u → Steps R s (e :: es) u

/-- The steps of `R` that meet a condition on the label and the state before the step. -/
def Meeting (R : σ → ε → σ → Prop) (G : σ → ε → Prop) : σ → ε → σ → Prop :=
  fun s e t => R s e t ∧ G s e

variable {R S : σ → ε → σ → Prop}

theorem Steps.append {s t u : σ} {es fs : List ε} (h : Steps R s es t) (k : Steps R t fs u) :
    Steps R s (es ++ fs) u := by
  induction h with
  | nil => exact k
  | cons hr _ ih => exact .cons hr (ih k)

theorem Steps.single {s t : σ} {e : ε} (h : R s e t) : Steps R s [e] t := .cons h (.nil t)

theorem Steps.mono (hRS : ∀ s e t, R s e t → S s e t) {s t : σ} {es : List ε}
    (h : Steps R s es t) : Steps S s es t := by
  induction h with
  | nil => exact .nil _
  | cons hr _ ih => exact .cons (hRS _ _ _ hr) ih

/-- A run meets a condition that all its labels meet in every state. -/
theorem Steps.meeting {G : σ → ε → Prop} {s t : σ} {es : List ε} (h : Steps R s es t)
    (hG : ∀ e ∈ es, ∀ s, G s e) : Steps (Meeting R G) s es t := by
  induction h with
  | nil => exact .nil _
  | cons hr _ ih =>
    exact .cons ⟨hr, hG _ List.mem_cons_self _⟩ (ih fun e he => hG e (List.mem_cons_of_mem _ he))

/-- What one step preserves, a run preserves. -/
theorem Steps.invariant {I : σ → Prop} (hI : ∀ s e t, I s → R s e t → I t)
    {s t : σ} {es : List ε} (h : Steps R s es t) (hs : I s) : I t := by
  induction h with
  | nil => exact hs
  | cons hr _ ih => exact ih (hI _ _ _ hs hr)

/-- What holds of the state and the labels so far holds of the state and the labels after a run. -/
theorem Steps.history {I : σ → List ε → Prop}
    (hI : ∀ s e t past, I s past → R s e t → I t (past ++ [e])) {s t : σ} {es past : List ε}
    (h : Steps R s es t) (hs : I s past) : I t (past ++ es) := by
  induction h generalizing past with
  | nil => rwa [List.append_nil]
  | cons hr _ ih =>
    rw [List.append_cons]
    exact ih (hI _ _ _ _ hs hr)

/-- The step relation of a total step function. -/
def total (f : σ → ε → σ) : σ → ε → σ → Prop := fun s e t => t = f s e

/-- The step relation of a step function that is undefined where a step is not enabled. -/
def enabled (f : σ → ε → Option σ) : σ → ε → σ → Prop := fun s e t => f s e = some t

theorem steps_total_iff {f : σ → ε → σ} {s t : σ} {es : List ε} :
    Steps (total f) s es t ↔ t = es.foldl f s := by
  constructor
  · intro h
    induction h with
    | nil => rfl
    | cons hr _ ih => rw [ih, hr, List.foldl_cons]
  · rintro rfl
    induction es generalizing s with
    | nil => exact .nil s
    | cons e es ih => exact .cons rfl ih

theorem steps_meeting_total {f : σ → ε → σ} {G : σ → ε → Prop} {es : List ε}
    (hG : ∀ e ∈ es, ∀ s, G s e) (s : σ) : Steps (Meeting (total f) G) s es (es.foldl f s) :=
  (steps_total_iff.mpr rfl).meeting hG

theorem steps_enabled_iff {f : σ → ε → Option σ} {s t : σ} {es : List ε} :
    Steps (enabled f) s es t ↔ es.foldlM f s = some t := by
  constructor
  · intro h
    induction h with
    | nil => rfl
    | cons hr _ ih =>
      rw [List.foldlM_cons, hr]
      exact ih
  · intro h
    induction es generalizing s with
    | nil =>
      have hs : s = t := by simpa using h
      exact hs ▸ .nil s
    | cons e es ih =>
      obtain ⟨u, hu, ht⟩ : ∃ u, f s e = some u ∧ es.foldlM f u = some t := by
        simpa [List.foldlM_cons, Option.bind_eq_some_iff] using h
      exact .cons hu (ih ht)

/-- The steps that meet a decidable condition are those of a step function that checks it. -/
theorem meeting_enabled (f : σ → ε → Option σ) (G : σ → ε → Prop) [∀ s e, Decidable (G s e)] :
    Meeting (enabled f) G = enabled fun s e => if G s e then f s e else none := by
  funext s e t
  apply propext
  simp only [Meeting, enabled, Option.ite_none_right_eq_some]
  exact and_comm

end CitrateCluster.Runs
