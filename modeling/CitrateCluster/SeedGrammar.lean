import CitrateCluster.SeedText
import Mathlib.Data.List.Forall2

namespace CitrateCluster.SeedGrammar

open Text Seed SeedText

section Reading

/-- The values of the fields with a given key, in order. -/
def valuesOf (k : Char) (pairs : List (List Char)) : List String :=
  pairs.filterMap fun p =>
    if (splitOnce p).1 = [k] then some (String.ofList (splitOnce p).2) else none

/-- A field with a key that the format knows. -/
def known (p : List Char) : Bool :=
  let k := (splitOnce p).1
  k == ['v'] || k == ['g'] || k == ['a']

/-- Values and what they decode to, one by one. -/
abbrev DecodeTo : List String → List String → Prop := List.Forall₂ fun a x => pctDecode a = .ok x

/-- What reading some fields adds to what has been read. -/
structure Reads (pairs : List (List Char)) (acc acc' : Fields) : Prop where
  versions : ∃ vs, DecodeTo (valuesOf 'v' pairs) vs ∧ acc'.version = vs.getLast?.or acc.version
  group : (valuesOf 'g' pairs = [] ∧ acc'.group = acc.group) ∨
    ∃ a x, valuesOf 'g' pairs = [a] ∧ pctDecode a = .ok x ∧ acc.group = none ∧ acc'.group = some x
  addrs : ∃ xs, DecodeTo (valuesOf 'a' pairs) xs ∧ acc'.addrs = acc.addrs ++ xs
  room : acc'.addrs.length ≤ maxSeedAddrs

variable {acc acc' : Fields} {p : List Char} {pairs : List (List Char)}

theorem bind_ok_iff {ε α β : Type} {r : Except ε α} {f : α → Except ε β} {y : β} :
    (r >>= f) = .ok y ↔ ∃ x, r = .ok x ∧ f x = .ok y := by
  cases r with
  | error e => simp [bind, Except.bind]
  | ok x => simp [bind, Except.bind]

theorem valuesOf_cons_self {k : Char} (h : (splitOnce p).1 = [k]) :
    valuesOf k (p :: pairs) = String.ofList (splitOnce p).2 :: valuesOf k pairs := by
  simp [valuesOf, h]

theorem valuesOf_cons_of_ne {k : Char} (h : (splitOnce p).1 ≠ [k]) :
    valuesOf k (p :: pairs) = valuesOf k pairs := by
  simp [valuesOf, h]

/-- What one round of the loop does, by the key of the field. -/
theorem decodePair_version (h : (splitOnce p).1 = ['v']) :
    decodePair acc p = .ok acc' ↔
      ∃ x, pctDecode (String.ofList (splitOnce p).2) = .ok x ∧
        acc' = { acc with version := some x } := by
  simp only [decodePair, h, if_true, bind_ok_iff]
  exact exists_congr fun x => and_congr_right fun _ =>
    ⟨fun h => (Except.ok.inj h).symm, fun h => congrArg Except.ok h.symm⟩

theorem decodePair_group (h : (splitOnce p).1 = ['g']) :
    decodePair acc p = .ok acc' ↔ acc.group = none ∧
      ∃ x, pctDecode (String.ofList (splitOnce p).2) = .ok x ∧
        acc' = { acc with group := some x } := by
  have hkey : ¬ (['g'] : List Char) = ['v'] := by decide
  simp only [decodePair, h, hkey, if_true, if_false]
  cases hg : acc.group with
  | some g => simp
  | none =>
    simp only [Option.isSome_none, Bool.false_eq_true, if_false, bind_ok_iff, true_and]
    exact exists_congr fun x => and_congr_right fun _ =>
      ⟨fun h => (Except.ok.inj h).symm, fun h => congrArg Except.ok h.symm⟩

theorem decodePair_addr (h : (splitOnce p).1 = ['a']) :
    decodePair acc p = .ok acc' ↔ acc.addrs.length < maxSeedAddrs ∧
      ∃ x, pctDecode (String.ofList (splitOnce p).2) = .ok x ∧
        acc' = { acc with addrs := acc.addrs ++ [x] } := by
  have hv : ¬ (['a'] : List Char) = ['v'] := by decide
  have hg : ¬ (['a'] : List Char) = ['g'] := by decide
  simp only [decodePair, h, hv, hg, if_true, if_false]
  by_cases hroom : acc.addrs.length ≥ maxSeedAddrs
  · simp [hroom, Nat.not_lt.mpr hroom]
  · simp only [hroom, if_false, bind_ok_iff, Nat.lt_of_not_le hroom, true_and]
    exact exists_congr fun x => and_congr_right fun _ =>
      ⟨fun h => (Except.ok.inj h).symm, fun h => congrArg Except.ok h.symm⟩

theorem decodePair_unknown (h : known p = false) : decodePair acc p = .ok acc := by
  simp only [known, Bool.or_eq_false_iff, beq_eq_false_iff_ne] at h
  simp only [decodePair, h.1.1, h.1.2, h.2, if_false]

theorem decodePair_room (h : decodePair acc p = .ok acc') (hroom : acc.addrs.length ≤ maxSeedAddrs) :
    acc'.addrs.length ≤ maxSeedAddrs := by
  by_cases hv : (splitOnce p).1 = ['v']
  · obtain ⟨x, _, rfl⟩ := (decodePair_version hv).mp h
    exact hroom
  · by_cases hg : (splitOnce p).1 = ['g']
    · obtain ⟨_, x, _, rfl⟩ := (decodePair_group hg).mp h
      exact hroom
    · by_cases ha : (splitOnce p).1 = ['a']
      · obtain ⟨hlt, x, _, rfl⟩ := (decodePair_addr ha).mp h
        rw [List.length_append, List.length_singleton]
        omega
      · have hk : known p = false := by simp [known, hv, hg, ha]
        rw [decodePair_unknown hk] at h
        cases h
        exact hroom

theorem reads_nil_iff (hroom : acc.addrs.length ≤ maxSeedAddrs) :
    Reads [] acc acc' ↔ acc' = acc := by
  constructor
  · rintro ⟨⟨vs, hvs, hv⟩, hg, ⟨xs, hxs, ha⟩, _⟩
    rw [valuesOf, List.filterMap_nil, DecodeTo, List.forall₂_nil_left_iff] at hvs hxs
    subst hvs hxs
    obtain ⟨_, hg⟩ | ⟨a, x, hnil, _⟩ := hg
    · cases acc
      cases acc'
      simp_all
    · cases hnil
  · rintro rfl
    exact ⟨⟨[], .nil, rfl⟩, .inl ⟨rfl, rfl⟩, ⟨[], .nil, (List.append_nil _).symm⟩, hroom⟩

/-- The fields after the first are read from where the first has led. -/
theorem reads_cons_version (h : (splitOnce p).1 = ['v']) :
    Reads (p :: pairs) acc acc' ↔ ∃ x, pctDecode (String.ofList (splitOnce p).2) = .ok x ∧
      Reads pairs { acc with version := some x } acc' := by
  have hg : (splitOnce p).1 ≠ ['g'] := by simp [h]
  have ha : (splitOnce p).1 ≠ ['a'] := by simp [h]
  constructor
  · rintro ⟨⟨vs, hvs, hv⟩, hgroup, haddrs, hroom⟩
    rw [valuesOf_cons_self h, DecodeTo, List.forall₂_cons_left_iff] at hvs
    obtain ⟨x, ws, hx, hws, rfl⟩ := hvs
    rw [valuesOf_cons_of_ne hg] at hgroup
    rw [valuesOf_cons_of_ne ha] at haddrs
    refine ⟨x, hx, ⟨ws, hws, ?_⟩, hgroup, haddrs, hroom⟩
    rw [hv, List.getLast?_cons]
    cases ws.getLast? <;> rfl
  · rintro ⟨x, hx, ⟨ws, hws, hv⟩, hgroup, haddrs, hroom⟩
    refine ⟨⟨x :: ws, ?_, ?_⟩, ?_, ?_, hroom⟩
    · rw [valuesOf_cons_self h]
      exact .cons hx hws
    · rw [hv, List.getLast?_cons]
      cases ws.getLast? <;> rfl
    · rw [valuesOf_cons_of_ne hg]
      exact hgroup
    · rw [valuesOf_cons_of_ne ha]
      exact haddrs

theorem reads_cons_group (h : (splitOnce p).1 = ['g']) :
    Reads (p :: pairs) acc acc' ↔ acc.group = none ∧
      ∃ x, pctDecode (String.ofList (splitOnce p).2) = .ok x ∧
        Reads pairs { acc with group := some x } acc' := by
  have hv : (splitOnce p).1 ≠ ['v'] := by simp [h]
  have ha : (splitOnce p).1 ≠ ['a'] := by simp [h]
  constructor
  · rintro ⟨hversions, hgroup, haddrs, hroom⟩
    rw [valuesOf_cons_of_ne hv] at hversions
    rw [valuesOf_cons_of_ne ha] at haddrs
    rw [valuesOf_cons_self h] at hgroup
    obtain ⟨hnil, _⟩ | ⟨a, x, hone, hx, hnone, hg⟩ := hgroup
    · cases hnil
    · obtain ⟨rfl, hnil⟩ := List.cons.inj hone
      exact ⟨hnone, x, hx, hversions, .inl ⟨hnil, hg⟩, haddrs, hroom⟩
  · rintro ⟨hnone, x, hx, hversions, hgroup, haddrs, hroom⟩
    obtain ⟨hnil, hg⟩ | ⟨_, _, _, _, hsome, _⟩ := hgroup
    · refine ⟨?_, .inr ⟨_, x, ?_, hx, hnone, hg⟩, ?_, hroom⟩
      · rw [valuesOf_cons_of_ne hv]
        exact hversions
      · rw [valuesOf_cons_self h, hnil]
      · rw [valuesOf_cons_of_ne ha]
        exact haddrs
    · cases hsome

theorem reads_cons_addr (h : (splitOnce p).1 = ['a']) :
    Reads (p :: pairs) acc acc' ↔ acc.addrs.length < maxSeedAddrs ∧
      ∃ x, pctDecode (String.ofList (splitOnce p).2) = .ok x ∧
        Reads pairs { acc with addrs := acc.addrs ++ [x] } acc' := by
  have hv : (splitOnce p).1 ≠ ['v'] := by simp [h]
  have hg : (splitOnce p).1 ≠ ['g'] := by simp [h]
  constructor
  · rintro ⟨hversions, hgroup, ⟨xs, hxs, ha⟩, hroom⟩
    rw [valuesOf_cons_of_ne hv] at hversions
    rw [valuesOf_cons_of_ne hg] at hgroup
    rw [valuesOf_cons_self h, DecodeTo, List.forall₂_cons_left_iff] at hxs
    obtain ⟨x, ys, hx, hys, rfl⟩ := hxs
    have hlt : acc.addrs.length < maxSeedAddrs := by
      rw [ha, List.length_append, List.length_cons] at hroom
      omega
    exact ⟨hlt, x, hx, hversions, hgroup, ⟨ys, hys, by simp [ha]⟩, hroom⟩
  · rintro ⟨_, x, hx, hversions, hgroup, ⟨ys, hys, ha⟩, hroom⟩
    refine ⟨?_, ?_, ⟨x :: ys, ?_, by simp [ha]⟩, hroom⟩
    · rw [valuesOf_cons_of_ne hv]
      exact hversions
    · rw [valuesOf_cons_of_ne hg]
      exact hgroup
    · rw [valuesOf_cons_self h]
      exact .cons hx hys

theorem reads_cons_unknown (h : known p = false) :
    Reads (p :: pairs) acc acc' ↔ Reads pairs acc acc' := by
  simp only [known, Bool.or_eq_false_iff, beq_eq_false_iff_ne] at h
  have hv : valuesOf 'v' (p :: pairs) = valuesOf 'v' pairs := valuesOf_cons_of_ne h.1.1
  have hg : valuesOf 'g' (p :: pairs) = valuesOf 'g' pairs := valuesOf_cons_of_ne h.1.2
  have ha : valuesOf 'a' (p :: pairs) = valuesOf 'a' pairs := valuesOf_cons_of_ne h.2
  constructor
  · rintro ⟨hversions, hgroup, haddrs, hroom⟩
    rw [hv] at hversions
    rw [hg] at hgroup
    rw [ha] at haddrs
    exact ⟨hversions, hgroup, haddrs, hroom⟩
  · rintro ⟨hversions, hgroup, haddrs, hroom⟩
    rw [← hv] at hversions
    rw [← hg] at hgroup
    rw [← ha] at haddrs
    exact ⟨hversions, hgroup, haddrs, hroom⟩

theorem reads_cons_iff :
    Reads (p :: pairs) acc acc' ↔ ∃ mid, decodePair acc p = .ok mid ∧ Reads pairs mid acc' := by
  by_cases hv : (splitOnce p).1 = ['v']
  · simp only [reads_cons_version hv, decodePair_version hv]
    constructor
    · rintro ⟨x, hx, hrest⟩
      exact ⟨_, ⟨x, hx, rfl⟩, hrest⟩
    · rintro ⟨_, ⟨x, hx, rfl⟩, hrest⟩
      exact ⟨x, hx, hrest⟩
  · by_cases hg : (splitOnce p).1 = ['g']
    · simp only [reads_cons_group hg, decodePair_group hg]
      constructor
      · rintro ⟨hnone, x, hx, hrest⟩
        exact ⟨_, ⟨hnone, x, hx, rfl⟩, hrest⟩
      · rintro ⟨_, ⟨hnone, x, hx, rfl⟩, hrest⟩
        exact ⟨hnone, x, hx, hrest⟩
    · by_cases ha : (splitOnce p).1 = ['a']
      · simp only [reads_cons_addr ha, decodePair_addr ha]
        constructor
        · rintro ⟨hlt, x, hx, hrest⟩
          exact ⟨_, ⟨hlt, x, hx, rfl⟩, hrest⟩
        · rintro ⟨_, ⟨hlt, x, hx, rfl⟩, hrest⟩
          exact ⟨hlt, x, hx, hrest⟩
      · have hk : known p = false := by simp [known, hv, hg, ha]
        simp [reads_cons_unknown hk, decodePair_unknown hk]

/-- The loop succeeds exactly on the fields that can all be read, and returns what they add up to. -/
theorem foldlM_ok_iff (hroom : acc.addrs.length ≤ maxSeedAddrs) :
    pairs.foldlM decodePair acc = .ok acc' ↔ Reads pairs acc acc' := by
  induction pairs generalizing acc with
  | nil =>
    rw [reads_nil_iff hroom]
    exact ⟨fun h => (Except.ok.inj h).symm, fun h => congrArg Except.ok h.symm⟩
  | cons p pairs ih =>
    rw [List.foldlM_cons, bind_ok_iff, reads_cons_iff]
    exact exists_congr fun mid => and_congr_right fun hmid => ih (decodePair_room hmid hroom)

end Reading

/-- The non-empty fields of a text that starts as seeds do. -/
def fieldsOf (text : String) : Option (List (List Char)) :=
  ((trim text).toList.dropPrefix? seedPrefix.toList).map fun query =>
    (query.splitOn '&').filter fun p => !p.isEmpty

/-- The group and the addresses of some fields are those of a seed. -/
structure Describes (pairs : List (List Char)) (seed : GroupSeed) : Prop where
  group : ∃ a, valuesOf 'g' pairs = [a] ∧ pctDecode a = .ok seed.group
  addrs : DecodeTo (valuesOf 'a' pairs) seed.addrs
  count : 1 ≤ (valuesOf 'a' pairs).length ∧ (valuesOf 'a' pairs).length ≤ maxSeedAddrs
  validGroup : validGroup seed.group = true
  validAddrs : ∀ a ∈ seed.addrs, validAddr a = true

/-- A text in the format of seeds, and its seed. -/
def Grammar (text : String) (seed : GroupSeed) : Prop :=
  len (trim text) ≤ maxSeedLen ∧ ∃ pairs, fieldsOf text = some pairs ∧ valuesOf 'v' pairs ≠ [] ∧
    (∀ a ∈ valuesOf 'v' pairs, pctDecode a = .ok seedVersion) ∧ Describes pairs seed

/-- A text in the format of seeds but for its versions: the last is the supported one, an earlier one
is not. -/
def MixedVersions (text : String) : Prop :=
  len (trim text) ≤ maxSeedLen ∧ ∃ pairs seed vs, fieldsOf text = some pairs ∧
    DecodeTo (valuesOf 'v' pairs) vs ∧ vs.getLast? = some seedVersion ∧ (∃ v ∈ vs, v ≠ seedVersion) ∧
    Describes pairs seed

section Decoding

variable {text text' : String} {seed : GroupSeed} {pairs : List (List Char)}

theorem validate_ok_iff :
    seed.validate = .ok () ↔ validGroup seed.group = true ∧ 1 ≤ seed.addrs.length ∧
      seed.addrs.length ≤ maxSeedAddrs ∧ ∀ a ∈ seed.addrs, validAddr a = true := by
  have hcount : (seed.addrs.isEmpty || decide (seed.addrs.length > maxSeedAddrs)) = true ↔
      ¬ (1 ≤ seed.addrs.length ∧ seed.addrs.length ≤ maxSeedAddrs) := by
    rw [Bool.or_eq_true, List.isEmpty_iff_length_eq_zero, decide_eq_true_eq]
    omega
  simp only [GroupSeed.validate, hcount, Bool.not_eq_true', ← List.all_eq_true]
  cases validGroup seed.group with
  | false => simp
  | true =>
    by_cases hn : 1 ≤ seed.addrs.length ∧ seed.addrs.length ≤ maxSeedAddrs
    · cases ha : seed.addrs.all validAddr <;> simp [hn]
    · simp only [Bool.true_eq_false, if_false, hn, not_false_iff, if_true, true_and]
      constructor
      · intro h
        cases h
      · rintro ⟨h, h', _⟩
        exact absurd ⟨h, h'⟩ hn

/-- The seed that the fields of a text add up to. -/
def finish (fields : Fields) : Except SeedError GroupSeed :=
  if fields.version ≠ some seedVersion then .error .version
  else
    match fields.group with
    | none => .error .group
    | some group => GroupSeed.new group fields.addrs

/-- Decoding looks at the length of a text and at its fields. -/
theorem decode_eq (text : String) : GroupSeed.decode text =
    (if len (trim text) > maxSeedLen then .error .tooLong
    else
      match fieldsOf text with
      | none => .error .notASeed
      | some pairs => pairs.foldlM decodePair ⟨none, none, []⟩ >>= finish) := by
  simp only [GroupSeed.decode, fieldsOf]
  cases (trim text).toList.dropPrefix? seedPrefix.toList <;> rfl

/-- What the fields add up to is a seed if the version is the supported one and the rest is valid. -/
theorem finish_ok_iff {fields : Fields} :
    finish fields = .ok seed ↔
    fields = ⟨some seedVersion, some seed.group, seed.addrs⟩ ∧ seed.validate = .ok () := by
  obtain ⟨version, group, addrs⟩ := fields
  simp only [finish, Fields.mk.injEq]
  by_cases hv : version = some seedVersion
  · cases group with
    | none => simp [hv]
    | some group =>
      simp only [hv, ne_eq, not_true_eq_false, if_false, new_eq_ok_iff, true_and,
        Option.some.injEq]
      constructor
      · rintro ⟨rfl, h⟩
        exact ⟨⟨rfl, rfl⟩, h⟩
      · rintro ⟨⟨rfl, rfl⟩, h⟩
        exact ⟨rfl, h⟩
  · simp [hv]

theorem reads_valid_iff :
    Reads pairs ⟨none, none, []⟩ ⟨some seedVersion, some seed.group, seed.addrs⟩ ∧
      seed.validate = .ok () ↔
    (∃ vs, DecodeTo (valuesOf 'v' pairs) vs ∧ vs.getLast? = some seedVersion) ∧
      Describes pairs seed := by
  rw [validate_ok_iff]
  constructor
  · rintro ⟨⟨⟨vs, hvs, hv⟩, hg, ⟨xs, hxs, ha⟩, _⟩, hvalid, hlow, hhigh, hall⟩
    rw [Option.or_none] at hv
    obtain rfl : seed.addrs = xs := ha
    refine ⟨⟨vs, hvs, hv.symm⟩, ?_, hxs, ?_, hvalid, hall⟩
    · obtain ⟨_, hnone⟩ | ⟨a, x, hone, hx, _, hsome⟩ := hg
      · cases hnone
      · exact ⟨a, hone, by rw [hx, Option.some.inj hsome]⟩
    · rw [List.Forall₂.length_eq hxs]
      exact ⟨hlow, hhigh⟩
  · rintro ⟨⟨vs, hvs, hv⟩, ⟨a, hone, hx⟩, hxs, ⟨hlow, hhigh⟩, hvalid, hall⟩
    rw [List.Forall₂.length_eq hxs] at hlow hhigh
    exact ⟨⟨⟨vs, hvs, by rw [hv]; rfl⟩, .inr ⟨a, seed.group, hone, hx, rfl, rfl⟩,
      ⟨seed.addrs, hxs, rfl⟩, hhigh⟩, hvalid, hlow, hhigh, hall⟩

/-- The texts that decode: only the last version has to be the supported one. -/
theorem decode_ok_iff : GroupSeed.decode text = .ok seed ↔
    len (trim text) ≤ maxSeedLen ∧ ∃ pairs, fieldsOf text = some pairs ∧
      (∃ vs, DecodeTo (valuesOf 'v' pairs) vs ∧ vs.getLast? = some seedVersion) ∧
      Describes pairs seed := by
  rw [decode_eq]
  by_cases hlen : len (trim text) ≤ maxSeedLen
  · rw [if_neg (Nat.not_lt.mpr hlen)]
    cases fieldsOf text with
    | none => simp
    | some pairs =>
      have hread : ∀ fields, pairs.foldlM decodePair ⟨none, none, []⟩ = .ok fields ↔
          Reads pairs ⟨none, none, []⟩ fields :=
        fun _ => foldlM_ok_iff (Nat.zero_le maxSeedAddrs)
      simp only [bind_ok_iff, finish_ok_iff, hread, hlen, true_and, Option.some.injEq,
        exists_eq_left', ← reads_valid_iff]
      constructor
      · rintro ⟨_, hreads, rfl, hvalid⟩
        exact ⟨hreads, hvalid⟩
      · rintro ⟨hreads, hvalid⟩
        exact ⟨_, hreads, rfl, hvalid⟩
  · rw [if_pos (Nat.lt_of_not_le hlen)]
    simp [hlen]

theorem forall_eq_iff {as vs : List String} {v : String} (h : DecodeTo as vs) :
    (∀ w ∈ vs, w = v) ↔ ∀ a ∈ as, pctDecode a = .ok v := by
  induction h with
  | nil => simp
  | cons hx _ ih => simp [hx, ih]

theorem decodeTo_replicate {as : List String} (hne : as ≠ [])
    (h : ∀ a ∈ as, pctDecode a = .ok seedVersion) :
    ∃ vs, DecodeTo as vs ∧ vs.getLast? = some seedVersion := by
  refine ⟨as.map fun _ => seedVersion, ?_, ?_⟩
  · rw [DecodeTo, List.forall₂_map_right_iff, List.forall₂_same]
    exact h
  · rw [List.getLast?_map, List.getLast?_eq_some_getLast hne]
    rfl

theorem grammar_decodes (h : Grammar text seed) : GroupSeed.decode text = .ok seed := by
  obtain ⟨hlen, pairs, hpairs, hne, hversions, hdescribes⟩ := h
  exact decode_ok_iff.mpr ⟨hlen, pairs, hpairs, decodeTo_replicate hne hversions, hdescribes⟩

theorem grammar_of_decodes (hmixed : ¬ MixedVersions text)
    (h : GroupSeed.decode text = .ok seed) : Grammar text seed := by
  obtain ⟨hlen, pairs, hpairs, ⟨vs, hvs, hlast⟩, hdescribes⟩ := decode_ok_iff.mp h
  have hall : ∀ v ∈ vs, v = seedVersion := by
    intro v hv
    by_contra hne
    exact hmixed ⟨hlen, pairs, seed, vs, hpairs, hvs, hlast, ⟨v, hv, hne⟩, hdescribes⟩
  refine ⟨hlen, pairs, hpairs, ?_, (forall_eq_iff hvs).mp hall, hdescribes⟩
  intro hnil
  rw [hnil, DecodeTo, List.forall₂_nil_left_iff] at hvs
  rw [hvs] at hlast
  cases hlast

/-- A text that ends in the supported version after another one is decoded all the same. -/
theorem decodes_of_mixedVersions (h : MixedVersions text) :
    ∃ seed, GroupSeed.decode text = .ok seed ∧ ¬ Grammar text seed := by
  obtain ⟨hlen, pairs, seed, vs, hpairs, hvs, hlast, ⟨v, hv, hne⟩, hdescribes⟩ := h
  refine ⟨seed, decode_ok_iff.mpr ⟨hlen, pairs, hpairs, ⟨vs, hvs, hlast⟩, hdescribes⟩, ?_⟩
  rintro ⟨_, pairs', hpairs', _, hversions, _⟩
  obtain rfl : pairs = pairs' := Option.some.inj (hpairs.symm.trans hpairs')
  exact hne ((forall_eq_iff hvs).mpr hversions v hv)

theorem foldlM_known (pairs : List (List Char)) (acc : Fields) :
    (pairs.filter known).foldlM decodePair acc = pairs.foldlM decodePair acc := by
  induction pairs generalizing acc with
  | nil => rfl
  | cons p pairs ih =>
    cases hk : known p with
    | true =>
      rw [List.filter_cons_of_pos hk, List.foldlM_cons, List.foldlM_cons]
      exact congrArg _ (funext ih)
    | false =>
      rw [List.filter_cons_of_neg (by simp [hk]), List.foldlM_cons, decodePair_unknown hk]
      exact ih acc

/-- The fields with other keys change nothing, whatever they are and wherever they stand. -/
theorem decode_congr (hlen : len (trim text) ≤ maxSeedLen) (hlen' : len (trim text') ≤ maxSeedLen)
    (h : (fieldsOf text).map (List.filter known) = (fieldsOf text').map (List.filter known)) :
    GroupSeed.decode text = GroupSeed.decode text' := by
  rw [decode_eq, decode_eq, if_neg (Nat.not_lt.mpr hlen), if_neg (Nat.not_lt.mpr hlen')]
  cases hf : fieldsOf text with
  | none =>
    rw [hf, Option.map_none, eq_comm, Option.map_eq_none_iff] at h
    rw [h]
  | some pairs =>
    rw [hf, Option.map_some, eq_comm, Option.map_eq_some_iff] at h
    obtain ⟨pairs', hf', hknown⟩ := h
    simp only [hf', ← foldlM_known pairs, ← foldlM_known pairs', hknown]

end Decoding

/-- Decoding accepts a text exactly as the format of seeds does if and only if the text does not mix
versions; fields with unknown keys never change what it returns. -/
theorem decode_is_grammar (text : String) :
    ((∀ seed, GroupSeed.decode text = .ok seed ↔ Grammar text seed) ↔ ¬ MixedVersions text) ∧
    ∀ text', len (trim text) ≤ maxSeedLen → len (trim text') ≤ maxSeedLen →
      (fieldsOf text).map (List.filter known) = (fieldsOf text').map (List.filter known) →
      GroupSeed.decode text = GroupSeed.decode text' := by
  refine ⟨⟨fun h hmixed => ?_, fun hmixed seed => ?_⟩, fun _ => decode_congr⟩
  · obtain ⟨seed, hseed, hgrammar⟩ := decodes_of_mixedVersions hmixed
    exact hgrammar ((h seed).mp hseed)
  · exact ⟨grammar_of_decodes hmixed, grammar_decodes⟩

/-- A version that the format refuses, followed by the supported one. -/
def mixedText : String := "citrate-cluster://seed?v=2&v=1&g=team&a=/ip4/10.0.0.2/tcp/1/p2p/9"

theorem mixed_versions_decode :
    ¬ ∀ text seed, GroupSeed.decode text = .ok seed ↔ Grammar text seed := by
  intro h
  have hdecode : GroupSeed.decode mixedText = .ok ⟨"team", ["/ip4/10.0.0.2/tcp/1/p2p/9"]⟩ := by
    decide +kernel
  obtain ⟨_, pairs, hpairs, _, hversions, _⟩ := (h _ _).mp hdecode
  have hfields : fieldsOf mixedText = some ["v=2".toList, "v=1".toList, "g=team".toList,
      "a=/ip4/10.0.0.2/tcp/1/p2p/9".toList] := by decide +kernel
  obtain rfl := Option.some.inj (hfields.symm.trans hpairs)
  have htwo := hversions "2" (by decide +kernel)
  exact absurd htwo (by decide +kernel)

end CitrateCluster.SeedGrammar
