import Mathlib.Data.List.Basic

namespace CitrateCluster.Escapes

variable {α : Type} {mark : α} {R S : α → α → α → Prop}

/-- What a text stands for in which a mark and the two letters after it stand for one letter, as a
relation says, and every other letter for itself. -/
inductive Unescapes (mark : α) (R : α → α → α → Prop) : List α → List α → Prop where
  | nil : Unescapes mark R [] []
  | plain {b : α} {bs out : List α} : b ≠ mark → Unescapes mark R bs out →
      Unescapes mark R (b :: bs) (b :: out)
  | escape {x y v : α} {bs out : List α} : R x y v → Unescapes mark R bs out →
      Unescapes mark R (mark :: x :: y :: bs) (v :: out)

namespace Unescapes

variable {bs cs out out' : List α} {x y v b : α}

theorem cons_iff (hb : b ≠ mark) :
    Unescapes mark R (b :: bs) out ↔ ∃ out', out = b :: out' ∧ Unescapes mark R bs out' := by
  constructor
  · intro h
    cases h with
    | plain _ h => exact ⟨_, rfl, h⟩
    | escape => exact absurd rfl hb
  · rintro ⟨out', rfl, h⟩
    exact .plain hb h

theorem mark_iff :
    Unescapes mark R (mark :: x :: y :: bs) out ↔
      ∃ v out', out = v :: out' ∧ R x y v ∧ Unescapes mark R bs out' := by
  constructor
  · intro h
    cases h with
    | plain hb _ => exact absurd rfl hb
    | escape hv h => exact ⟨_, _, rfl, hv, h⟩
  · rintro ⟨v, out', rfl, hv, h⟩
    exact .escape hv h

theorem mono (hRS : ∀ x y v, R x y v → S x y v) (h : Unescapes mark R bs out) :
    Unescapes mark S bs out := by
  induction h with
  | nil => exact .nil
  | plain hb _ ih => exact .plain hb ih
  | escape hv _ ih => exact .escape (hRS _ _ _ hv) ih

theorem append (h : Unescapes mark R bs out) (h' : Unescapes mark R cs out') :
    Unescapes mark R (bs ++ cs) (out ++ out') := by
  induction h with
  | nil => exact h'
  | plain hb _ ih => exact .plain hb ih
  | escape hv _ ih => exact .escape hv ih

/-- After a text that can be read, in whatever way, the rest is read by itself. -/
theorem drop (h : Unescapes mark S bs out) {w : List α} (hw : Unescapes mark R (bs ++ cs) w) :
    ∃ w', Unescapes mark R cs w' := by
  induction h generalizing w with
  | nil => exact ⟨w, hw⟩
  | plain hb _ ih =>
    obtain ⟨w', _, hw'⟩ := (cons_iff hb).mp hw
    exact ih hw'
  | escape _ _ ih =>
    obtain ⟨_, w', _, _, hw'⟩ := mark_iff.mp hw
    exact ih hw'

/-- Either every escape of a text is of one kind, or one of them is of the other kind. -/
theorem cases_or (h : Unescapes mark (fun x y v => R x y v ∨ S x y v) bs out) :
    Unescapes mark R bs out ∨ ∃ p x y v q o o', bs = p ++ mark :: x :: y :: q ∧ S x y v ∧
      Unescapes mark (fun x y v => R x y v ∨ S x y v) p o ∧
      Unescapes mark (fun x y v => R x y v ∨ S x y v) q o' ∧ out = o ++ v :: o' := by
  induction h with
  | nil => exact .inl .nil
  | plain hb _ ih =>
    obtain h | ⟨p, x, y, v, q, o, o', rfl, hv, hp, hq, rfl⟩ := ih
    · exact .inl (.plain hb h)
    · exact .inr ⟨_ :: p, x, y, v, q, _ :: o, o', rfl, hv, .plain hb hp, hq, rfl⟩
  | @escape x y v bs out hv hbs ih =>
    obtain hv | hv := hv
    · obtain h | ⟨p, x', y', v', q, o, o', rfl, hv', hp, hq, rfl⟩ := ih
      · exact .inl (.escape hv h)
      · exact .inr ⟨mark :: x :: y :: p, x', y', v', q, v :: o, o', rfl, hv',
          .escape (.inl hv) hp, hq, rfl⟩
    · exact .inr ⟨[], x, y, v, bs, [], out, rfl, hv, .nil, hbs, rfl⟩

end Unescapes

end CitrateCluster.Escapes
