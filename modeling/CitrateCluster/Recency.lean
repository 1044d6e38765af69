import Mathlib.Data.List.Nodup

namespace CitrateCluster.Recency

variable {α ε : Type}

/-- What a call does to a list. -/
inductive Change (α : Type) where
  | add (a : α)
  | drop (a : α)

/-- Add an element at the end. A full list drops its oldest element first. -/
def push (cap : Nat) (l : List α) (a : α) : List α := (if l.length ≥ cap then l.tail else l) ++ [a]

section History

variable [DecidableEq α] (cap : Nat) (effect : List ε → ε → Option (Change α))

/-- The list after some calls, the latest first. What a call does may depend on the calls before it. -/
def content : List ε → List α
  | [] => []
  | e :: h =>
    match effect h e with
    | some (.add a) => push cap (content h) a
    | some (.drop a) => (content h).filter (· ≠ a)
    | none => content h

/-- The elements that were added after some earlier calls and not dropped since, oldest first. -/
def newer (earlier : List ε) : List ε → List α
  | [] => []
  | e :: later =>
    match effect (later ++ earlier) e with
    | some (.add a) => newer earlier later ++ [a]
    | some (.drop a) => (newer earlier later).filter (· ≠ a)
    | none => newer earlier later

/-- An element that a call added has been neither dropped nor pushed out since: at no time were there
as many newer elements as the list has room for. -/
structure Standing (a : α) (later : List ε) (e : ε) (earlier : List ε) : Prop where
  added : effect earlier e = some (.add a)
  kept : ∀ l c m, later = l ++ c :: m → effect (m ++ e :: earlier) c ≠ some (.drop a)
  room : ∀ m, m <:+ later → (newer effect (e :: earlier) m).length < cap

/-- One element was added before another, and both are standing. -/
def Before (h : List ε) (a b : α) : Prop :=
  ∃ later f mid e earlier, h = later ++ f :: (mid ++ e :: earlier) ∧
    Standing cap effect a (later ++ f :: mid) e earlier ∧
    Standing cap effect b later f (mid ++ e :: earlier)

/-- Calls add only what is not in the list. -/
def Fresh : Prop := ∀ h e a, effect h e = some (.add a) → a ∉ content cap effect h

end History

section Pushing

variable {cap : Nat} {l : List α} {a b : α}

theorem length_push (hcap : 0 < cap) (h : l.length ≤ cap) : (push cap l a).length ≤ cap := by
  rw [push, List.length_append, List.length_singleton]
  split
  · rw [List.length_tail]
    omega
  · omega

theorem nodup_push (h : l.Nodup) (ha : a ∉ l) : (push cap l a).Nodup := by
  rw [push, List.nodup_append_comm, List.singleton_append, List.nodup_cons]
  split
  · exact ⟨fun hm => ha (List.mem_of_mem_tail hm), h.tail⟩
  · exact ⟨ha, h⟩

theorem mem_of_mem_push (h : b ∈ push cap l a) : b = a ∨ b ∈ l := by
  rw [push, List.mem_append, List.mem_singleton] at h
  obtain h | rfl := h
  · right
    split at h
    · exact List.mem_of_mem_tail h
    · exact h
  · exact .inl rfl

/-- An element is pushed out only by as many newer ones as the list has room for. -/
theorem push_cases (cap : Nat) (a b : α) (older newer : List α) :
    (older = [] ∧ cap ≤ newer.length + 1 ∧ push cap (older ++ b :: newer) a = newer ++ [a]) ∨
      ∃ older', push cap (older ++ b :: newer) a = older' ++ b :: (newer ++ [a]) := by
  rw [push]
  split
  · next hfull =>
    cases older with
    | nil =>
      refine .inl ⟨rfl, ?_, rfl⟩
      simpa using hfull
    | cons x older =>
      refine .inr ⟨older, ?_⟩
      rw [List.cons_append, List.tail_cons, List.append_assoc, List.cons_append]
  · refine .inr ⟨older, ?_⟩
    rw [List.append_assoc, List.cons_append]

/-- An element that another one leaves in the list has room for it behind itself. -/
theorem room_of_mem_push {older newer : List α} (hcap : 0 < cap)
    (hlen : (older ++ b :: newer).length ≤ cap) (hnodup : (older ++ b :: newer).Nodup)
    (ha : a ∉ older ++ b :: newer) (hb : b ∈ push cap (older ++ b :: newer) a) :
    newer.length + 1 < cap := by
  have hle : (push cap (older ++ b :: newer) a).length ≤ cap := length_push hcap hlen
  obtain ⟨rfl, _, hpush⟩ | ⟨older', hpush⟩ := push_cases cap a b older newer
  · rw [hpush, List.mem_append, List.mem_singleton] at hb
    rw [List.nil_append, List.nodup_cons] at hnodup
    obtain hb | rfl := hb
    · exact absurd hb hnodup.1
    · exact absurd List.mem_cons_self ha
  · rw [hpush, List.length_append, List.length_cons, List.length_append,
      List.length_singleton] at hle
    omega

end Pushing

section Runs

variable [DecidableEq α] {cap : Nat} {effect : List ε → ε → Option (Change α)}
  {h later earlier : List ε} {c e : ε} {a b : α}

theorem length_content (hcap : 0 < cap) (h : List ε) : (content cap effect h).length ≤ cap := by
  induction h with
  | nil => exact Nat.zero_le cap
  | cons e h ih =>
    rw [content]
    split
    · exact length_push hcap ih
    · exact Nat.le_trans (List.length_filter_le _ _) ih
    · exact ih

theorem nodup_content (hfresh : Fresh cap effect) (h : List ε) : (content cap effect h).Nodup := by
  induction h with
  | nil => exact List.nodup_nil
  | cons e h ih =>
    rw [content]
    split
    · next a he => exact nodup_push ih (hfresh h e a he)
    · exact ih.filter _
    · exact ih

theorem Standing.of_cons (hs : Standing cap effect a (c :: later) e earlier) :
    Standing cap effect a later e earlier where
  added := hs.added
  kept l x m hm := hs.kept (c :: l) x m (by rw [hm, List.cons_append])
  room m hm := hs.room m (hm.trans (List.suffix_cons c later))

/-- A standing element has the elements that were added after it behind it. -/
theorem content_of_standing (hs : Standing cap effect a later e earlier) :
    ∃ older, content cap effect (later ++ e :: earlier) =
      older ++ a :: newer effect (e :: earlier) later := by
  induction later with
  | nil =>
    refine ⟨if (content cap effect earlier).length ≥ cap then (content cap effect earlier).tail
      else content cap effect earlier, ?_⟩
    rw [List.nil_append, content, hs.added]
    rfl
  | cons c later ih =>
    obtain ⟨older, hold⟩ := ih hs.of_cons
    rw [List.cons_append, content, newer, hold]
    cases hc : effect (later ++ e :: earlier) c with
    | none => exact ⟨older, rfl⟩
    | some change =>
      cases change with
      | add b =>
        obtain ⟨rfl, hfull, _⟩ | hpush := push_cases cap b a older (newer effect (e :: earlier) later)
        · have hroom := hs.room (c :: later) List.suffix_rfl
          rw [newer, hc, List.length_append, List.length_singleton] at hroom
          omega
        · exact hpush
      | drop b =>
        have hne : a ≠ b := by
          rintro rfl
          exact hs.kept [] c later rfl hc
        exact ⟨older.filter (· ≠ b), by simp [hne]⟩

/-- An element that is still in the list after one more call is still standing. -/
theorem Standing.cons (hcap : 0 < cap) (hfresh : Fresh cap effect)
    (hs : Standing cap effect a later e earlier)
    (ha : a ∈ content cap effect (c :: later ++ e :: earlier)) :
    Standing cap effect a (c :: later) e earlier where
  added := hs.added
  kept := by
    intro l x m hm hx
    cases l with
    | nil =>
      obtain ⟨rfl, rfl⟩ := List.cons.inj hm
      rw [List.cons_append, content, hx] at ha
      simp at ha
    | cons y l =>
      rw [List.cons_append, List.cons.injEq] at hm
      exact hs.kept l x m hm.2 hx
  room := by
    intro m hm
    obtain rfl | hm := List.suffix_cons_iff.mp hm
    · have hroom := hs.room later List.suffix_rfl
      rw [newer]
      rw [List.cons_append, content] at ha
      cases hc : effect (later ++ e :: earlier) c with
      | none => exact hroom
      | some change =>
        cases change with
        | drop b => exact Nat.lt_of_le_of_lt (List.length_filter_le _ _) hroom
        | add b =>
          have hlen : (content cap effect (later ++ e :: earlier)).length ≤ cap :=
            length_content hcap _
          have hnodup := nodup_content hfresh (later ++ e :: earlier)
          have hb := hfresh _ _ _ hc
          obtain ⟨older, hold⟩ := content_of_standing hs
          simp only [hc, hold] at ha hlen hnodup hb
          dsimp only
          rw [List.length_append, List.length_singleton]
          exact room_of_mem_push hcap hlen hnodup hb ha
    · exact hs.room m hm

/-- The elements of the list are those that are standing. -/
theorem mem_content_iff (hcap : 0 < cap) (hfresh : Fresh cap effect) :
    a ∈ content cap effect h ↔
      ∃ later e earlier, h = later ++ e :: earlier ∧ Standing cap effect a later e earlier := by
  constructor
  · intro ha
    induction h with
    | nil => cases ha
    | cons c h ih =>
      have hold : a ∈ content cap effect h → ∃ later e earlier, c :: h = later ++ e :: earlier ∧
          Standing cap effect a later e earlier := by
        intro hm
        obtain ⟨later, e, earlier, rfl, hs⟩ := ih hm
        exact ⟨c :: later, e, earlier, rfl, hs.cons hcap hfresh ha⟩
      rw [content] at ha
      cases hc : effect h c with
      | none => exact hold (by simpa only [hc] using ha)
      | some change =>
        simp only [hc] at ha
        cases change with
        | drop b => exact hold (List.mem_filter.mp ha).1
        | add b =>
          obtain rfl | hm := mem_of_mem_push ha
          · refine ⟨[], c, h, rfl, hc, fun l x m hm => ?_, fun m hm => ?_⟩
            · simp at hm
            · rw [List.suffix_nil.mp hm]
              exact hcap
          · exact hold hm
  · rintro ⟨later, e, earlier, rfl, hs⟩
    obtain ⟨older, hold⟩ := content_of_standing hs
    rw [hold]
    simp

/-- What was added since and not dropped is among the newer elements. -/
theorem mem_newer {mid : List ε} (hadd : effect (mid ++ earlier) e = some (.add a))
    (hkept : ∀ l c m, later = l ++ c :: m →
      effect (m ++ e :: (mid ++ earlier)) c ≠ some (.drop a)) :
    a ∈ newer effect earlier (later ++ e :: mid) := by
  induction later with
  | nil =>
    rw [List.nil_append, newer, hadd]
    exact List.mem_append_right _ List.mem_cons_self
  | cons c later ih =>
    have hold := ih fun l x m hm => hkept (c :: l) x m (by rw [hm, List.cons_append])
    have hc := hkept [] c later rfl
    rw [List.cons_append, newer, List.append_assoc, List.cons_append]
    cases heff : effect (later ++ e :: (mid ++ earlier)) c with
    | none => exact hold
    | some change =>
      cases change with
      | add b => exact List.mem_append_left _ hold
      | drop b =>
        have hne : a ≠ b := by
          rintro rfl
          exact hc heff
        simp [hold, hne]

omit [DecidableEq α] in
/-- Without repetitions two elements stand in one order only. -/
theorem not_sublist_swap {l : List α} (hl : l.Nodup) (hab : [a, b].Sublist l) :
    ¬ [b, a].Sublist l := by
  induction l with
  | nil => cases hab
  | cons x l ih =>
    obtain ⟨hx, hl⟩ := List.nodup_cons.mp hl
    intro hba
    cases hab with
    | cons _ hab =>
      cases hba with
      | cons _ hba => exact ih hl hab hba
      | cons_cons _ hba => exact hx (hab.subset (List.mem_cons_of_mem a List.mem_cons_self))
    | cons_cons _ hab =>
      cases hba with
      | cons _ hba => exact hx (hba.subset (List.mem_cons_of_mem b List.mem_cons_self))
      | cons_cons _ hba => exact hx (hba.subset List.mem_cons_self)

theorem sublist_of_newer (ha : Standing cap effect a later e earlier)
    (hb : b ∈ newer effect (e :: earlier) later) :
    [a, b].Sublist (content cap effect (later ++ e :: earlier)) := by
  obtain ⟨older, hold⟩ := content_of_standing ha
  rw [hold]
  exact List.sublist_append_of_sublist_right ((List.singleton_sublist.mpr hb).cons_cons a)

/-- The list is in the order in which its elements were added. -/
theorem pairwise_content (hcap : 0 < cap) (hfresh : Fresh cap effect) (h : List ε) :
    (content cap effect h).Pairwise (Before cap effect h) := by
  have hnodup := nodup_content hfresh h
  rw [List.pairwise_iff_forall_sublist]
  intro a b hab
  obtain ⟨later, e, earlier, rfl, ha⟩ :=
    (mem_content_iff hcap hfresh).mp (hab.subset List.mem_cons_self)
  obtain ⟨later', f, earlier', hh, hb⟩ :=
    (mem_content_iff hcap hfresh).mp (hab.subset (List.mem_cons_of_mem a List.mem_cons_self))
  have hne : ¬ (e = f ∧ earlier = earlier') := by
    rintro ⟨rfl, rfl⟩
    have heq : a = b := by simpa [ha.added] using hb.added
    exact List.nodup_iff_sublist.mp hnodup a (heq ▸ hab)
  obtain ⟨as, rfl, has⟩ | ⟨bs, rfl, hbs⟩ := List.append_eq_append_iff.mp hh
  · cases as with
    | nil => exact absurd (List.cons.inj has) hne
    | cons x mid =>
      rw [List.cons_append, List.cons.injEq] at has
      obtain ⟨rfl, rfl⟩ := has
      have hnewer := mem_newer ha.added ha.kept
      exact absurd (hh ▸ sublist_of_newer hb hnewer) (not_sublist_swap hnodup hab)
  · cases bs with
    | nil => exact absurd (List.cons.inj hbs.symm) hne
    | cons x mid =>
      rw [List.cons_append, List.cons.injEq] at hbs
      obtain ⟨rfl, rfl⟩ := hbs
      exact ⟨later', f, mid, e, earlier, hh, ha, hb⟩

end Runs

end CitrateCluster.Recency
