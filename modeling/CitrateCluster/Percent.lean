import CitrateCluster.Escapes
import CitrateCluster.Seed

namespace CitrateCluster.Percent

open Text Seed Escapes

/-- The percent sign. -/
def percent : UInt8 := 0x25

/-- Two hexadecimal digits stand for a byte. -/
def HexPair (x y v : UInt8) : Prop :=
  ∃ hi lo, hexValue x = some hi ∧ hexValue y = some lo ∧ v = UInt8.ofNat (16 * hi + lo)

/-- A plus sign and a hexadecimal digit stand for the value of the digit. -/
def PlusDigit (x y v : UInt8) : Prop :=
  x.toNat = 0x2B ∧ ∃ n, hexValue y = some n ∧ v = UInt8.ofNat n

/-- A text whose escapes are two hexadecimal digits each, and the UTF-8 text they stand for. -/
def Decodes (s u : String) : Prop :=
  ∃ out, Unescapes percent HexPair (bytes s) out ∧ fromUtf8 out = some u

/-- Decoding a text returns what it stands for, and an encoding error if it stands for nothing. -/
def DecodesExactly (s : String) : Prop :=
  (∀ u, pctDecode s = .ok u ↔ Decodes s u) ∧
    ((∀ u, ¬ Decodes s u) → pctDecode s = .error .encoding)

/-- An escape of a text is a plus sign and a digit, each escape before and after it is one of these or
two digits, and with the digit's value for it the bytes are UTF-8. -/
def PlusEscaped (s : String) : Prop :=
  ∃ p x y v q out out', bytes s = p ++ percent :: x :: y :: q ∧ PlusDigit x y v ∧
    Unescapes percent (fun x y v => HexPair x y v ∨ PlusDigit x y v) p out ∧
    Unescapes percent (fun x y v => HexPair x y v ∨ PlusDigit x y v) q out' ∧
    (fromUtf8 (out ++ v :: out')).isSome = true

theorem hexValue_plus {x : UInt8} (h : x.toNat = 0x2B) : hexValue x = none := by
  simp [hexValue, h]

theorem fromStrRadix16_iff {x y v : UInt8} :
    fromStrRadix16 x y = some v ↔ HexPair x y v ∨ PlusDigit x y v := by
  rw [fromStrRadix16]
  split
  · next h =>
    simp only [HexPair, PlusDigit, hexValue_plus h, h, Option.map_eq_some_iff, reduceCtorEq,
      false_and, exists_false, true_and, false_or, eq_comm (a := v)]
  · next h =>
    simp only [HexPair, PlusDigit, h, false_and, or_false, Option.bind_eq_bind,
      Option.bind_eq_some_iff, Option.some.injEq, eq_comm (b := v)]
    constructor
    · rintro ⟨hi, hhi, lo, hlo, hv⟩
      exact ⟨hi, lo, hhi, hlo, hv⟩
    · rintro ⟨hi, lo, hhi, hlo, hv⟩
      exact ⟨hi, hhi, lo, hlo, hv⟩

theorem eq_percent {b : UInt8} (h : b.toNat = 37) : b = percent := UInt8.toNat_inj.mp h

theorem map_ok_iff {α β ε : Type} {f : α → β} {r : Except ε α} {y : β} :
    r.map f = .ok y ↔ ∃ x, r = .ok x ∧ f x = y := by
  cases r with
  | error e => simp [Except.map]
  | ok x => simp [Except.map]

/-- The loop of the decoder reads escapes of either kind, and no others. -/
theorem pctDecodeBytes_ok_iff (bs out : List UInt8) :
    pctDecodeBytes bs = .ok out ↔
      Unescapes percent (fun x y v => HexPair x y v ∨ PlusDigit x y v) bs out := by
  fun_induction pctDecodeBytes bs generalizing out with
  | case1 =>
    constructor
    · intro h
      cases h
      exact .nil
    · intro h
      cases h
      rfl
  | case2 b hb x y rest v hv ih =>
    have hvalue : ∀ w, HexPair x y w ∨ PlusDigit x y w ↔ v = w := by
      intro w
      rw [← fromStrRadix16_iff, hv, Option.some.injEq]
    obtain rfl := eq_percent hb
    simp only [map_ok_iff, ih, Unescapes.mark_iff, hvalue]
    constructor
    · rintro ⟨out', h, rfl⟩
      exact ⟨v, out', rfl, rfl, h⟩
    · rintro ⟨_, out', rfl, rfl, h⟩
      exact ⟨out', h, rfl⟩
  | case3 b hb x y rest hv =>
    obtain rfl := eq_percent hb
    simp only [reduceCtorEq, false_iff, Unescapes.mark_iff, not_exists]
    rintro w out' ⟨_, hw, _⟩
    rw [← fromStrRadix16_iff, hv] at hw
    cases hw
  | case4 b rest hb hshort =>
    obtain rfl := eq_percent hb
    simp only [reduceCtorEq, false_iff]
    intro h
    cases h with
    | plain hne _ => exact hne rfl
    | escape _ _ => exact hshort _ _ _ rfl
  | case5 b rest hb ih =>
    have hne : b ≠ percent := fun h => hb (by rw [h]; rfl)
    simp only [map_ok_iff, ih, Unescapes.cons_iff hne]
    constructor
    · rintro ⟨out', h, rfl⟩
      exact ⟨out', rfl, h⟩
    · rintro ⟨out', rfl, h⟩
      exact ⟨out', h, rfl⟩

theorem pctDecodeBytes_error {bs : List UInt8} {e : SeedError}
    (h : pctDecodeBytes bs = .error e) : e = .encoding := by
  have hmap : ∀ {v : UInt8} {r : Except SeedError (List UInt8)}, r.map (v :: ·) = .error e →
      r = .error e := by
    intro v r hr
    cases r with
    | error e' => exact hr
    | ok out => cases hr
  fun_induction pctDecodeBytes bs with
  | case1 => cases h
  | case2 _ _ _ _ _ _ _ ih => exact ih (hmap h)
  | case3 => exact (Except.error.inj h).symm
  | case4 => exact (Except.error.inj h).symm
  | case5 _ _ _ ih => exact ih (hmap h)

theorem pctDecode_ok_iff {s u : String} :
    pctDecode s = .ok u ↔ ∃ out,
      Unescapes percent (fun x y v => HexPair x y v ∨ PlusDigit x y v) (bytes s) out ∧
        fromUtf8 out = some u := by
  simp only [← pctDecodeBytes_ok_iff, pctDecode]
  cases pctDecodeBytes (bytes s) with
  | error e => simp
  | ok out =>
    cases h : fromUtf8 out <;> simp [h]

theorem pctDecode_error {s : String} {e : SeedError} (h : pctDecode s = .error e) :
    e = .encoding := by
  rw [pctDecode] at h
  split at h
  · next e' he =>
    cases h
    exact pctDecodeBytes_error he
  · split at h
    · cases h
    · exact (Except.error.inj h).symm

/-- What the escapes of two digits make of a text, the decoder makes of it too. -/
theorem pctDecode_of_decodes {s u : String} (h : Decodes s u) : pctDecode s = .ok u := by
  obtain ⟨out, hout, hu⟩ := h
  exact pctDecode_ok_iff.mpr ⟨out, hout.mono fun _ _ _ => Or.inl, hu⟩

/-- The decoder goes wrong on the texts with a plus sign in an escape and no other defect. -/
theorem decodes_of_not_plusEscaped {s u : String} (h : ¬ PlusEscaped s)
    (hs : pctDecode s = .ok u) : Decodes s u := by
  obtain ⟨out, hout, hu⟩ := pctDecode_ok_iff.mp hs
  obtain hhex | ⟨p, x, y, v, q, o, o', hbytes, hv, hp, hq, rfl⟩ := hout.cases_or
  · exact ⟨out, hhex, hu⟩
  · exact absurd ⟨p, x, y, v, q, o, o', hbytes, hv, hp, hq, by simp [hu]⟩ h

theorem exists_decoded_of_plusEscaped {s : String} (h : PlusEscaped s) :
    ∃ u, pctDecode s = .ok u ∧ ¬ Decodes s u := by
  obtain ⟨p, x, y, v, q, out, out', hbytes, hv, hp, hq, hutf⟩ := h
  obtain ⟨u, hu⟩ := Option.isSome_iff_exists.mp hutf
  refine ⟨u, pctDecode_ok_iff.mpr ⟨_, hbytes ▸ hp.append (.escape (.inr hv) hq), hu⟩, ?_⟩
  rintro ⟨w, hw, _⟩
  rw [hbytes] at hw
  obtain ⟨w', hrest⟩ := hp.drop hw
  obtain ⟨_, _, _, ⟨hi, _, hhi, _⟩, _⟩ := Unescapes.mark_iff.mp hrest
  rw [hexValue_plus hv.1] at hhi
  cases hhi

/-- Decoding is exact on a text if and only if the text is no well-formed one in which a plus sign
takes the place of a digit. -/
theorem decodes_exactly_iff (s : String) : DecodesExactly s ↔ ¬ PlusEscaped s := by
  constructor
  · rintro ⟨hexact, _⟩ hplus
    obtain ⟨u, hu, hno⟩ := exists_decoded_of_plusEscaped hplus
    exact hno ((hexact u).mp hu)
  · intro hplus
    refine ⟨fun u => ⟨decodes_of_not_plusEscaped hplus, pctDecode_of_decodes⟩, fun hno => ?_⟩
    cases hs : pctDecode s with
    | error e => rw [pctDecode_error hs]
    | ok u => exact absurd (decodes_of_not_plusEscaped hplus hs) (hno u)

theorem plus_escape_decodes : ¬ DecodesExactly "%+1" := by
  rw [decodes_exactly_iff, not_not]
  exact ⟨[], 0x2B, 0x31, 1, [], [], [], by decide +kernel, ⟨rfl, 1, by decide, rfl⟩, .nil, .nil,
    by decide +kernel⟩

end CitrateCluster.Percent
