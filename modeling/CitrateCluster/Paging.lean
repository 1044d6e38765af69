import Mathlib.Data.List.Basic
import Mathlib.Data.Nat.Find
import Mathlib.Order.Basic

namespace CitrateCluster.Paging

variable {α : Type}

/-- A walk through a list that may change between two pages: each page is cut from the list of its
time, at the number of elements that have been read so far. -/
structure Walk (lists : Nat → List α) (limit offset : Nat → Nat) (page : Nat → List α) : Prop where
  start : offset 0 = 0
  cut : ∀ k, page k = ((lists k).drop (offset k)).take (limit k)
  advance : ∀ k, offset (k + 1) = offset k + (page k).length

variable {lists : Nat → List α} {limit offset : Nat → Nat} {page : Nat → List α} {k n bound : Nat}

/-- What a page leaves of the list begins where the next page does. -/
theorem Walk.page_append (h : Walk lists limit offset page) (k : Nat) :
    page k ++ (lists k).drop (offset (k + 1)) = (lists k).drop (offset k) := by
  have hrest : (lists k).drop (offset (k + 1)) = ((lists k).drop (offset k)).drop (limit k) := by
    rw [h.advance, h.cut, ← List.drop_drop, List.length_take]
    obtain hle | hle := Nat.le_total (limit k) ((lists k).drop (offset k)).length
    · rw [Nat.min_eq_left hle]
    · rw [Nat.min_eq_right hle, List.drop_length, List.drop_eq_nil_of_le hle]
  rw [hrest, h.cut, List.take_append_drop]

theorem Walk.drop_eq_nil (h : Walk lists limit offset page) (hlimit : 1 ≤ limit k)
    (hk : page k = []) : (lists k).drop (offset k) = [] := by
  rw [h.cut, List.take_eq_nil_iff] at hk
  obtain hzero | hnil := hk
  · omega
  · exact hnil

theorem Walk.le_offset (h : Walk lists limit offset page) (hpages : ∀ k < n, page k ≠ []) :
    n ≤ offset n := by
  induction n with
  | zero => exact Nat.zero_le _
  | succ n ih =>
    have hn := ih fun k hk => hpages k (Nat.lt_succ_of_lt hk)
    have hpos := List.length_pos_iff.mpr (hpages n (Nat.lt_succ_self n))
    rw [h.advance]
    omega

/-- A walk through lists of bounded length ends. -/
theorem Walk.ends (h : Walk lists limit offset page) (hbound : ∀ k, (lists k).length ≤ bound) :
    ∃ n, page n = [] ∧ ∀ k < n, page k ≠ [] := by
  classical
  have hsome : ∃ n, page n = [] := by
    by_contra hnone
    have hle := h.le_offset (n := bound) fun k _ hk => hnone ⟨k, hk⟩
    apply hnone
    refine ⟨bound, ?_⟩
    rw [h.cut, List.drop_eq_nil_of_le ((hbound bound).trans hle), List.take_nil]
  exact ⟨Nat.find hsome, Nat.find_spec hsome, fun k hk => Nat.find_min hsome hk⟩

/-- What was in the list at the start has been read, or is still ahead. -/
theorem Walk.read_or_ahead (h : Walk lists limit offset page)
    (hgrow : ∀ k, (lists k).Sublist (lists (k + 1))) {a : α} (ha : a ∈ lists 0) (n : Nat) :
    (∃ k < n, a ∈ page k) ∨ a ∈ (lists n).drop (offset n) := by
  induction n with
  | zero =>
    rw [h.start, List.drop_zero]
    exact .inr ha
  | succ n ih =>
    obtain ⟨k, hk, hread⟩ | hahead := ih
    · exact .inl ⟨k, Nat.lt_succ_of_lt hk, hread⟩
    · rw [← h.page_append, List.mem_append] at hahead
      obtain hread | hahead := hahead
      · exact .inl ⟨n, Nat.lt_succ_self n, hread⟩
      · exact .inr (((hgrow n).drop _).subset hahead)

/-- A walk through a growing list that has ended has read all that was in the list at the start. -/
theorem Walk.complete (h : Walk lists limit offset page)
    (hgrow : ∀ k, (lists k).Sublist (lists (k + 1))) (hlimit : 1 ≤ limit n) (hn : page n = [])
    {a : α} (ha : a ∈ lists 0) : ∃ k < n, a ∈ page k := by
  obtain hread | hahead := h.read_or_ahead hgrow ha n
  · exact hread
  · rw [h.drop_eq_nil hlimit hn] at hahead
    cases hahead

theorem Walk.flatMap_append (h : Walk lists limit offset page) {l : List α}
    (hl : ∀ k < n, lists k = l) : (List.range n).flatMap page ++ l.drop (offset n) = l := by
  induction n with
  | zero => rw [h.start, List.range_zero, List.flatMap_nil, List.nil_append, List.drop_zero]
  | succ n ih =>
    have hpage := h.page_append n
    rw [hl n (Nat.lt_succ_self n)] at hpage
    rw [List.range_succ, List.flatMap_append, List.flatMap_singleton, List.append_assoc, hpage]
    exact ih fun k hk => hl k (Nat.lt_succ_of_lt hk)

/-- The pages of a walk through one list that has ended are that list. -/
theorem Walk.flatMap_page (h : Walk lists limit offset page) {l : List α}
    (hl : ∀ k ≤ n, lists k = l) (hlimit : 1 ≤ limit n) (hn : page n = []) :
    (List.range n).flatMap page = l := by
  have hnil := h.drop_eq_nil hlimit hn
  rw [hl n le_rfl] at hnil
  have hall := h.flatMap_append fun k hk => hl k (Nat.le_of_lt hk)
  rwa [hnil, List.append_nil] at hall

end CitrateCluster.Paging
