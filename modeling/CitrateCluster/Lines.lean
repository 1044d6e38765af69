import Mathlib.Data.List.Basic

namespace CitrateCluster.Lines

variable {α : Type} [DecidableEq α] {sep : α}

/-- A text up to its first terminator, which is included, and what follows. -/
def readUntil (sep : α) : List α → List α × List α
  | [] => ([], [])
  | a :: as =>
    if a = sep then ([a], as)
    else
      let (line, rest) := readUntil sep as
      (a :: line, rest)

/-- The lines of a text with their terminators, which the last one may lack. -/
def lines (sep : α) : List α → List (List α)
  | [] => []
  | a :: as =>
    if a = sep then [a] :: lines sep as
    else
      match lines sep as with
      | [] => [[a]]
      | line :: rest => (a :: line) :: rest

section Reading

theorem readUntil_cons_self (as : List α) : readUntil sep (sep :: as) = ([sep], as) := if_pos rfl

theorem readUntil_cons_of_ne {a : α} (h : a ≠ sep) (as : List α) :
    readUntil sep (a :: as) = (a :: (readUntil sep as).1, (readUntil sep as).2) := if_neg h

theorem append_readUntil (sep : α) (as : List α) : (readUntil sep as).1 ++ (readUntil sep as).2 = as := by
  induction as with
  | nil => rfl
  | cons a as ih =>
    by_cases ha : a = sep
    · rw [ha, readUntil_cons_self, List.singleton_append]
    · rw [readUntil_cons_of_ne ha, List.cons_append, ih]

theorem drop_length_readUntil (as : List α) :
    as.drop (readUntil sep as).1.length = (readUntil sep as).2 := by
  have h := congrArg (List.drop (readUntil sep as).1.length) (append_readUntil sep as)
  rw [← h, List.drop_left]

theorem readUntil_ne_nil {as : List α} (h : as ≠ []) : (readUntil sep as).1 ≠ [] := by
  cases as with
  | nil => exact absurd rfl h
  | cons a as =>
    by_cases ha : a = sep
    · rw [ha, readUntil_cons_self]
      exact List.cons_ne_nil _ _
    · rw [readUntil_cons_of_ne ha]
      exact List.cons_ne_nil _ _

/-- Under a cap the line is cut off at the cap. -/
theorem readUntil_take (n : Nat) (as : List α) :
    (readUntil sep (as.take n)).1 = (readUntil sep as).1.take n := by
  induction as generalizing n with
  | nil => simp [readUntil]
  | cons a as ih =>
    cases n with
    | zero => simp [readUntil]
    | succ n =>
      rw [List.take_succ_cons]
      by_cases ha : a = sep
      · simp [ha, readUntil_cons_self]
      · rw [readUntil_cons_of_ne ha, readUntil_cons_of_ne ha, List.take_succ_cons, ih]

/-- A terminator stands at the end of a line or nowhere in it. -/
theorem not_mem_dropLast_readUntil (as : List α) : sep ∉ (readUntil sep as).1.dropLast := by
  induction as with
  | nil => simp [readUntil]
  | cons a as ih =>
    by_cases ha : a = sep
    · simp [ha, readUntil_cons_self]
    · rw [readUntil_cons_of_ne ha]
      cases hl : (readUntil sep as).1 with
      | nil => simp
      | cons b bs =>
        rw [hl] at ih
        rw [List.dropLast_cons_cons, List.mem_cons, not_or]
        exact ⟨Ne.symm ha, ih⟩

theorem not_mem_take_readUntil {n : Nat} {as : List α} (h : n < (readUntil sep as).1.length) :
    sep ∉ (readUntil sep as).1.take n := by
  have hlast : sep ∉ (readUntil sep as).1.dropLast := not_mem_dropLast_readUntil as
  rw [List.dropLast_eq_take] at hlast
  exact fun hm => hlast (List.take_subset_take_left _ (by omega) hm)

/-- A line that something follows is read alike whatever follows it. -/
theorem readUntil_append {as : List α} (h : (readUntil sep as).2 ≠ []) (bs : List α) :
    readUntil sep ((readUntil sep as).1 ++ bs) = ((readUntil sep as).1, bs) := by
  induction as with
  | nil => exact absurd rfl h
  | cons a as ih =>
    by_cases ha : a = sep
    · rw [ha, readUntil_cons_self, List.singleton_append, readUntil_cons_self]
    · rw [readUntil_cons_of_ne ha] at h ⊢
      rw [List.cons_append, readUntil_cons_of_ne ha, ih h]

theorem readUntil_append_of_not_mem {as : List α} (h : sep ∉ as) (bs : List α) :
    readUntil sep (as ++ bs) = (as ++ (readUntil sep bs).1, (readUntil sep bs).2) := by
  induction as with
  | nil => rfl
  | cons a as ih =>
    rw [List.mem_cons, not_or] at h
    rw [List.cons_append, readUntil_cons_of_ne (Ne.symm h.1), ih h.2]
    rfl

end Reading

section Splitting

@[simp] theorem lines_nil : lines sep ([] : List α) = [] := rfl

/-- A text is read line by line. -/
theorem lines_eq_cons {as : List α} (h : as ≠ []) :
    lines sep as = (readUntil sep as).1 :: lines sep (readUntil sep as).2 := by
  induction as with
  | nil => exact absurd rfl h
  | cons a as ih =>
    by_cases ha : a = sep
    · rw [ha, readUntil_cons_self, lines, if_pos rfl]
    · rw [lines, if_neg ha, readUntil_cons_of_ne ha]
      cases as with
      | nil => rfl
      | cons b bs => rw [ih (List.cons_ne_nil b bs)]

theorem lines_eq_nil_iff {as : List α} : lines sep as = [] ↔ as = [] := by
  constructor
  · intro h
    by_contra hne
    rw [lines_eq_cons hne] at h
    cases h
  · rintro rfl
    rfl

theorem flatten_lines (as : List α) : (lines sep as).flatten = as := by
  induction as with
  | nil => rfl
  | cons a as ih =>
    rw [lines]
    split
    · rw [List.flatten_cons, ih, List.singleton_append]
    · cases hl : lines sep as with
      | nil => rw [lines_eq_nil_iff.mp hl, List.flatten_singleton]
      | cons line ls =>
        rw [hl, List.flatten_cons] at ih
        rw [List.flatten_cons, List.cons_append, ih]

/-- Lines before the last are the same whatever follows them. -/
theorem lines_append {as : List α} {p q : List (List α)} (h : lines sep as = p ++ q) (hq : q ≠ []) :
    ∃ rest, as = p.flatten ++ rest ∧ lines sep rest = q ∧
      ∀ bs, lines sep (p.flatten ++ bs) = p ++ lines sep bs := by
  induction p generalizing as with
  | nil => exact ⟨as, rfl, h, fun _ => rfl⟩
  | cons l p ih =>
    have hne : as ≠ [] := by
      rintro rfl
      cases h
    rw [lines_eq_cons hne, List.cons_append, List.cons.injEq] at h
    obtain ⟨rfl, h⟩ := h
    have hrest : (readUntil sep as).2 ≠ [] := by
      intro hnil
      rw [hnil, lines_nil] at h
      exact hq (List.append_eq_nil_iff.mp h.symm).2
    obtain ⟨rest, hflat, hlines, happend⟩ := ih h
    refine ⟨rest, ?_, hlines, fun bs => ?_⟩
    · rw [List.flatten_cons, List.append_assoc, ← hflat, append_readUntil]
    · have hline : (readUntil sep as).1 ++ (p.flatten ++ bs) ≠ [] :=
        List.append_ne_nil_of_left_ne_nil (readUntil_ne_nil hne) _
      rw [List.flatten_cons, List.append_assoc, lines_eq_cons hline,
        readUntil_append hrest (p.flatten ++ bs), happend, List.cons_append]

end Splitting

end CitrateCluster.Lines
