import Std.Data.ExtTreeMap
import Std.Data.ExtTreeSet
import Mathlib.Data.List.Sort
import Mathlib.Order.Defs.LinearOrder
import Mathlib.Tactic.Tauto

namespace CitrateCluster.Collections

open Std

section Folds

variable {σ α : Type}

/-- A property that each step of a fold either keeps or acquires by its element. -/
theorem foldl_iff {f : σ → α → σ} (P : σ → Prop) (hit : α → Prop)
    (hstep : ∀ s x, P (f s x) ↔ P s ∨ hit x) (l : List α) (s : σ) :
    P (l.foldl f s) ↔ P s ∨ ∃ x ∈ l, hit x := by
  induction l generalizing s with
  | nil => simp
  | cons x l ih => rw [List.foldl_cons, ih, hstep, or_assoc, List.exists_mem_cons_iff]

/-- What the order of a loop does not change can be done before it or after it. -/
theorem foldl_right_comm {f : σ → α → σ} (hcomm : ∀ s x y, f (f s x) y = f (f s y) x) (l : List α)
    (s : σ) (x : α) : l.foldl f (f s x) = f (l.foldl f s) x := by
  induction l generalizing s with
  | nil => rfl
  | cons y l ih => rw [List.foldl_cons, hcomm, ih, List.foldl_cons]

/-- A loop whose rounds commute and do nothing the second time does nothing the second time. -/
theorem foldl_foldl_self {f : σ → α → σ} (hself : ∀ s x, f (f s x) x = f s x)
    (hcomm : ∀ s x y, f (f s x) y = f (f s y) x) (l : List α) (s : σ) :
    l.foldl f (l.foldl f s) = l.foldl f s := by
  induction l generalizing s with
  | nil => rfl
  | cons x l ih =>
    have hx : f (l.foldl f (f s x)) x = l.foldl f (f s x) := by
      rw [foldl_right_comm hcomm, hself]
    rw [List.foldl_cons, List.foldl_cons, hx, ih]

/-- A loop that reports at most once in each round. -/
theorem foldl_snd_eq {β : Type} {f : σ × List β → α → σ × List β} (report : α → Option β)
    (hf : ∀ acc x, (f acc x).2 = acc.2 ++ (report x).toList) (l : List α) (acc : σ × List β) :
    (l.foldl f acc).2 = acc.2 ++ l.filterMap report := by
  induction l generalizing acc with
  | nil => simp
  | cons x l ih =>
    rw [List.foldl_cons, ih, hf, List.append_assoc, List.filterMap_cons]
    cases report x <;> rfl

/-- Keep the first of the elements of highest rank. -/
def keepBest (rank : α → Nat) (best : Option α) (x : α) : Option α :=
  match best with
  | none => some x
  | some b => if rank x > rank b then some x else some b

theorem foldl_keepBest_some (rank : α → Nat) (l : List α) (b : α) :
    ∃ c, l.foldl (keepBest rank) (some b) = some c ∧ (c = b ∨ c ∈ l) ∧
      rank b ≤ rank c ∧ ∀ x ∈ l, rank x ≤ rank c := by
  induction l generalizing b with
  | nil => exact ⟨b, rfl, .inl rfl, le_rfl, by simp⟩
  | cons x l ih =>
    by_cases hx : rank x > rank b
    · obtain ⟨c, hc, hm, hle, hall⟩ := ih x
      refine ⟨c, by simpa [keepBest, hx] using hc, .inr ?_, by omega, ?_⟩
      · simpa using hm
      · simpa using ⟨hle, hall⟩
    · obtain ⟨c, hc, hm, hle, hall⟩ := ih b
      refine ⟨c, by simpa [keepBest, hx] using hc, ?_, hle, ?_⟩
      · exact hm.imp_right (List.mem_cons_of_mem x)
      · simpa using ⟨by omega, hall⟩

theorem foldl_keepBest (rank : α → Nat) (l : List α) :
    (l = [] ∧ l.foldl (keepBest rank) none = none) ∨
      ∃ c ∈ l, l.foldl (keepBest rank) none = some c ∧ ∀ x ∈ l, rank x ≤ rank c := by
  cases l with
  | nil => exact .inl ⟨rfl, rfl⟩
  | cons x l =>
    obtain ⟨c, hc, hm, hle, hall⟩ := foldl_keepBest_some rank l x
    refine .inr ⟨c, ?_, hc, ?_⟩
    · simpa using hm
    · simpa using ⟨hle, hall⟩

end Folds

section Latest

variable {α β : Type} [LinearOrder β] (key : α → β)

/-- A stable sort by a key, then pop: among the elements of greatest key, the last one. -/
def latest (l : List α) : Option α :=
  (l.insertionSort fun a b => key a ≤ key b).getLast?

theorem latest_eq_none {l : List α} : latest key l = none ↔ l = [] := by
  rw [latest, List.getLast?_eq_none_iff]
  exact ⟨fun h => List.length_eq_zero_iff.mp (by simpa using congrArg List.length h),
    fun h => by rw [h, List.insertionSort_nil]⟩

theorem mem_of_latest {l : List α} {a : α} (h : latest key l = some a) : a ∈ l :=
  (List.mem_insertionSort _).mp (List.mem_of_getLast? h)

theorem le_of_latest {l : List α} {a : α} (h : latest key l = some a) :
    ∀ x ∈ l, key x ≤ key a := by
  intro x hx
  obtain ⟨p, hp⟩ := List.getLast?_eq_some_iff.mp h
  have hs := List.pairwise_insertionSort (fun a b : α => key a ≤ key b) l
  have hm := (List.mem_insertionSort fun a b : α => key a ≤ key b).mpr hx
  rw [hp] at hs hm
  rcases List.mem_append.mp hm with hm | hm
  · exact (List.pairwise_append.mp hs).2.2 x hm a (by simp)
  · rw [List.mem_singleton.mp hm]

/-- Placing an element of greatest key at the end of the list makes it the result. -/
theorem latest_concat {l : List α} {a : α} (h : ∀ x ∈ l, key x ≤ key a) :
    latest key (l ++ [a]) = some a := by
  suffices hs : (l ++ [a]).insertionSort (fun a b => key a ≤ key b) =
      l.insertionSort (fun a b => key a ≤ key b) ++ [a] by
    rw [latest, hs, List.getLast?_concat]
  have hins : ∀ (x : α) (m : List α), key x ≤ key a →
      List.orderedInsert (fun a b => key a ≤ key b) x (m ++ [a]) =
        List.orderedInsert (fun a b => key a ≤ key b) x m ++ [a] := by
    intro x m hx
    induction m with
    | nil => simp [hx]
    | cons y m ih =>
      by_cases hxy : key x ≤ key y
      · simp [List.orderedInsert, hxy]
      · simp only [List.cons_append, List.orderedInsert, hxy, if_false, ih]
  induction l with
  | nil => rfl
  | cons x l ih =>
    rw [List.cons_append, List.insertionSort_cons, List.insertionSort_cons,
      ih fun y hy => h y (List.mem_cons_of_mem x hy), hins x _ (h x List.mem_cons_self)]

end Latest

section Pairs

variable {α β : Type} [Ord α] [TransOrd α] [LawfulEqOrd α] [Ord β] [TransOrd β] [LawfulEqOrd β]

/-- The lexicographic order of pairs. -/
abbrev lexCmp : α × β → α × β → Ordering := compareLex (compareOn Prod.fst) (compareOn Prod.snd)

instance : LawfulEqCmp (lexCmp (α := α) (β := β)) where
  eq_of_compare {a b} h := by
    obtain ⟨h₁, h₂⟩ : compare a.1 b.1 = .eq ∧ compare a.2 b.2 = .eq := by
      simpa [lexCmp, compareLex, compareOn, Ordering.then_eq_eq] using h
    exact Prod.ext (LawfulEqOrd.eq_of_compare h₁) (LawfulEqOrd.eq_of_compare h₂)

end Pairs

section Sets

variable {κ : Type} {cmp : κ → κ → Ordering} [TransCmp cmp] {s : ExtTreeSet κ cmp} {a k : κ}

@[simp] theorem contains_eq_false_iff : s.contains a = false ↔ a ∉ s := by
  rw [← ExtTreeSet.contains_iff_mem, Bool.not_eq_true]

variable [LawfulEqCmp cmp]

theorem mem_insert_iff : a ∈ s.insert k ↔ a = k ∨ a ∈ s := by
  rw [ExtTreeSet.mem_insert, LawfulEqCmp.compare_eq_iff_eq, eq_comm]

theorem set_insert_self (s : ExtTreeSet κ cmp) (k : κ) : (s.insert k).insert k = s.insert k := by
  apply ExtTreeSet.ext_mem
  intro a
  rw [mem_insert_iff, mem_insert_iff, or_self_left]

theorem set_insert_comm (s : ExtTreeSet κ cmp) (k l : κ) :
    (s.insert k).insert l = (s.insert l).insert k := by
  apply ExtTreeSet.ext_mem
  intro a
  simp only [mem_insert_iff, or_left_comm]

theorem mem_erase_iff : a ∈ s.erase k ↔ a ≠ k ∧ a ∈ s := by
  rw [ExtTreeSet.mem_erase, ne_eq, LawfulEqCmp.compare_eq_iff_eq, ne_eq, eq_comm]

theorem mem_foldl_erase {l : List κ} : a ∈ l.foldl ExtTreeSet.erase s ↔ a ∈ s ∧ a ∉ l := by
  induction l generalizing s with
  | nil => simp
  | cons b l ih =>
    rw [List.foldl_cons, ih, mem_erase_iff, List.mem_cons, not_or]
    tauto

theorem mem_foldl_insert {l : List κ} : a ∈ l.foldl ExtTreeSet.insert s ↔ a ∈ s ∨ a ∈ l := by
  induction l generalizing s with
  | nil => simp
  | cons b l ih =>
    rw [List.foldl_cons, ih, mem_insert_iff, List.mem_cons]
    tauto

theorem mem_ofList_iff {l : List κ} : a ∈ ExtTreeSet.ofList l cmp ↔ a ∈ l := by
  rw [ExtTreeSet.ofList_eq_foldl, mem_foldl_insert]
  simp

theorem nodup_toList : s.toList.Nodup := by
  have hd := ExtTreeSet.distinct_toList (t := s)
  apply hd.imp
  intro a b hne hab
  exact hne (by simp [hab])

theorem size_ofList_le_one_iff {l : List κ} :
    (ExtTreeSet.ofList l cmp).size ≤ 1 ↔ ∀ x ∈ l, ∀ y ∈ l, x = y := by
  have hm : ∀ x, x ∈ (ExtTreeSet.ofList l cmp).toList ↔ x ∈ l := by
    intro x
    rw [ExtTreeSet.mem_toList, mem_ofList_iff]
  have hd : (ExtTreeSet.ofList l cmp).toList.Nodup := nodup_toList
  rw [← ExtTreeSet.length_toList]
  constructor
  · intro hle x hx y hy
    rw [← hm] at hx hy
    match hl : (ExtTreeSet.ofList l cmp).toList, hle with
    | [], _ => simp [hl] at hx
    | [z], _ =>
      rw [hl, List.mem_singleton] at hx hy
      exact hx.trans hy.symm
  · intro hall
    match hl : (ExtTreeSet.ofList l cmp).toList with
    | [] => simp
    | [z] => simp
    | z :: w :: rest =>
      rw [hl] at hd hm
      have hzw := hall z ((hm z).mp (by simp)) w ((hm w).mp (by simp))
      simp [hzw] at hd

/-- Counting the elements of a subset. -/
theorem countP_contains {t : ExtTreeSet κ cmp} (h : ∀ a ∈ t, a ∈ s) :
    s.toList.countP t.contains = t.size := by
  rw [List.countP_eq_length_filter, ← ExtTreeSet.length_toList]
  apply List.Perm.length_eq
  rw [List.perm_ext_iff_of_nodup (nodup_toList.filter _) nodup_toList]
  intro a
  simp only [List.mem_filter, ExtTreeSet.mem_toList, ExtTreeSet.contains_iff_mem]
  exact ⟨And.right, fun ha => ⟨h a ha, ha⟩⟩

/-- The elements of a subset stand in the same order. -/
theorem sublist_toList {t : ExtTreeSet κ cmp} (h : ∀ a ∈ s, a ∈ t) : s.toList.Sublist t.toList := by
  have hantisymm : Std.Antisymm fun a b : κ => cmp a b = .lt := by
    refine ⟨fun a b hab hba => ?_⟩
    rw [OrientedCmp.gt_of_lt hab] at hba
    cases hba
  refine List.sublist_of_subperm_of_pairwise ?_ ExtTreeSet.ordered_toList ExtTreeSet.ordered_toList
  apply List.subperm_of_subset nodup_toList
  intro a ha
  rw [ExtTreeSet.mem_toList] at ha ⊢
  exact h a ha

end Sets

section Maps

variable {κ β γ : Type} [Ord κ] [TransOrd κ] [LawfulEqOrd κ]

/-- Group elements under their key, in the order they come. -/
theorem getElem?_foldl_group {α : Type} [DecidableEq κ] (key : α → κ) (l : List α)
    (m : ExtTreeMap κ (List α)) (k : κ) :
    ((l.foldl (fun m x => m.insert (key x) (m[key x]?.getD [] ++ [x])) m)[k]?).getD [] =
      m[k]?.getD [] ++ l.filter (fun x => decide (key x = k)) := by
  induction l generalizing m with
  | nil => simp
  | cons x l ih =>
    rw [List.foldl_cons, ih, ExtTreeMap.getElem?_insert]
    by_cases hx : key x = k
    · subst hx
      simp
    · simp [hx]

theorem getElem?_insert_eq_some {m : ExtTreeMap κ β} {k a : κ} {v b : β} :
    (m.insert k v)[a]? = some b ↔ (a = k ∧ b = v) ∨ (a ≠ k ∧ m[a]? = some b) := by
  rw [ExtTreeMap.getElem?_insert]
  by_cases h : k = a
  · simp [h, eq_comm]
  · simp [h, Ne.symm h]

theorem getElem?_erase_eq_some {m : ExtTreeMap κ β} {k a : κ} {b : β} :
    (m.erase k)[a]? = some b ↔ a ≠ k ∧ m[a]? = some b := by
  rw [ExtTreeMap.getElem?_erase]
  by_cases h : k = a
  · simp [h]
  · simp [h, Ne.symm h]

variable {insertAt : ExtTreeMap κ γ → κ × β → ExtTreeMap κ γ} {f : κ → β → Option γ}

omit [LawfulEqOrd κ] in
theorem getElem?_foldl_of_not_mem
    (hne : ∀ m kv k, kv.1 ≠ k → (insertAt m kv)[k]? = m[k]?)
    (l : List (κ × β)) (m : ExtTreeMap κ γ) (k : κ) (hk : ∀ kv ∈ l, kv.1 ≠ k) :
    (l.foldl insertAt m)[k]? = m[k]? := by
  induction l generalizing m with
  | nil => rfl
  | cons kv l ih =>
    rw [List.foldl_cons, ih _ fun x hx => hk x (List.mem_cons_of_mem kv hx),
      hne m kv k (hk kv List.mem_cons_self)]

/-- A loop over the entries of a map that fills another map under the same keys. -/
theorem getElem?_foldl_toList
    (hne : ∀ m kv k, kv.1 ≠ k → (insertAt m kv)[k]? = m[k]?)
    (heq : ∀ m kv, m[kv.1]? = none → (insertAt m kv)[kv.1]? = f kv.1 kv.2)
    (t : ExtTreeMap κ β) (k : κ) :
    (t.toList.foldl insertAt ∅)[k]? = t[k]?.bind (f k) := by
  cases ht : t[k]? with
  | none =>
    rw [getElem?_foldl_of_not_mem hne, ExtTreeMap.getElem?_empty, Option.bind_none]
    rintro ⟨k', b⟩ hm rfl
    simp [ExtTreeMap.mem_toList_iff_getElem?_eq_some.mp hm] at ht
  | some b =>
    have hm := ExtTreeMap.mem_toList_iff_getElem?_eq_some.mpr ht
    obtain ⟨p, q, hpq⟩ := List.append_of_mem hm
    have hd : t.toList.Pairwise fun a b => a.1 ≠ b.1 :=
      ExtTreeMap.distinct_keys_toList.imp fun h he => h (by simp [he])
    rw [hpq, List.pairwise_append, List.pairwise_cons] at hd
    have hp : ∀ kv ∈ p, kv.1 ≠ k := fun kv hkv => hd.2.2 kv hkv _ List.mem_cons_self
    have hq : ∀ kv ∈ q, kv.1 ≠ k := fun kv hkv => (hd.2.1.1 kv hkv).symm
    rw [hpq, List.foldl_append, List.foldl_cons, getElem?_foldl_of_not_mem hne _ _ _ hq]
    exact heq _ (k, b) (by
      rw [getElem?_foldl_of_not_mem hne _ _ _ hp, ExtTreeMap.getElem?_empty])

theorem mem_keys_insert {m : ExtTreeMap κ β} {k a : κ} {v : β} :
    a ∈ m.insert k v ↔ a = k ∨ a ∈ m := by
  rw [ExtTreeMap.mem_insert, LawfulEqCmp.compare_eq_iff_eq, eq_comm]

theorem mem_keys_erase {m : ExtTreeMap κ β} {k a : κ} : a ∈ m.erase k ↔ a ≠ k ∧ a ∈ m := by
  rw [ExtTreeMap.mem_erase, ne_eq, LawfulEqCmp.compare_eq_iff_eq, ne_eq, eq_comm]

theorem insert_insert (m : ExtTreeMap κ β) (k : κ) (v w : β) :
    (m.insert k v).insert k w = m.insert k w := by
  apply ExtTreeMap.ext_getElem?
  intro a
  by_cases ha : k = a <;> simp [ExtTreeMap.getElem?_insert, ha]

theorem insert_eq_self {m : ExtTreeMap κ β} {k : κ} {v : β} (h : m[k]? = some v) :
    m.insert k v = m := by
  apply ExtTreeMap.ext_getElem?
  intro a
  by_cases ha : k = a
  · simp [← ha, h]
  · simp [ExtTreeMap.getElem?_insert, ha]

omit [TransOrd κ] [LawfulEqOrd κ] in
/-- A loop that adds at most one entry in each round. -/
theorem size_foldl_le {α σ : Type} {f : σ → α → σ} (entries : σ → ExtTreeMap κ β)
    (hf : ∀ s x, (entries (f s x)).size ≤ (entries s).size + 1) (l : List α) (s : σ) :
    (entries (l.foldl f s)).size ≤ (entries s).size + l.length := by
  induction l generalizing s with
  | nil => exact le_rfl
  | cons x l ih =>
    have hx := hf s x
    have hl := ih (f s x)
    rw [List.foldl_cons, List.length_cons]
    omega

theorem toList_insert_empty (k : κ) (v : β) :
    ((∅ : ExtTreeMap κ β).insert k v).toList = [(k, v)] := by
  have hlen : ((∅ : ExtTreeMap κ β).insert k v).toList.length = 1 := by
    simp [ExtTreeMap.length_toList, ExtTreeMap.size_insert]
  obtain ⟨e, he⟩ := List.length_eq_one_iff.mp hlen
  have hmem : (k, v) ∈ ((∅ : ExtTreeMap κ β).insert k v).toList := by simp
  rw [he, List.mem_singleton] at hmem
  rw [he, hmem]

end Maps

end CitrateCluster.Collections
