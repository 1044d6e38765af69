import CitrateCluster.Seed
import Mathlib.Data.List.TakeDrop

namespace CitrateCluster.SeedText

open Text Seed

/-- A byte that a seed carries as it is. -/
def keeps (b : UInt8) : Bool :=
  isAsciiGraphic b && !(b.toNat == 0x25 || b.toNat == 0x26 || b.toNat == 0x3D || b.toNat == 0x23 ||
    b.toNat == 0x2B)

/-- The bytes that a value takes in a seed: one for each byte, and two more where it is escaped. -/
def escapedLen (s : String) : Nat := (bytes s).length + 2 * (bytes s).countP (!keeps ·)

/-- The bytes that a seed takes: the prefix with the version and the key of the group, the group,
and each address with its key. -/
def encodedLen (seed : GroupSeed) : Nat :=
  29 + escapedLen seed.group + seed.addrs.foldr (fun a n => 3 + escapedLen a + n) 0

section Bytes

/-- The byte of an ASCII character. -/
def byte (c : Char) : UInt8 := UInt8.ofNat c.toNat

def hexByte (n : Nat) : UInt8 := byte (hexDigit n)

theorem forall_byte {P : UInt8 → Prop} (h : ∀ n < 256, P (UInt8.ofNat n)) (b : UInt8) : P b := by
  have hb := h b.toNat b.toNat_lt
  rwa [UInt8.ofNat_toNat] at hb

/-- ASCII that neither separates fields nor is whitespace. -/
def Plain (c : Char) : Prop := c.toNat < 128 ∧ c ≠ '&' ∧ isWhitespace c = false

instance : DecidablePred Plain := fun _ => inferInstanceAs (Decidable (_ ∧ _))

theorem all_plain_encodeByte :
    ∀ b : UInt8, (pctEncodeByte b).all (fun c => decide (Plain c)) = true :=
  forall_byte (by decide +kernel)

theorem length_encodeByte : ∀ b : UInt8, (pctEncodeByte b).length = if keeps b then 1 else 3 :=
  forall_byte (by decide +kernel)

/-- A byte stands for itself, or for a percent sign and two digits that read as the byte. -/
theorem encodeByte_cases : ∀ b : UInt8,
    ((pctEncodeByte b).map byte = [b] ∧ b.toNat ≠ 0x25) ∨
      ((pctEncodeByte b).map byte = [0x25, hexByte (b.toNat / 16), hexByte (b.toNat % 16)] ∧
        fromStrRadix16 (hexByte (b.toNat / 16)) (hexByte (b.toNat % 16)) = some b) :=
  forall_byte (by decide +kernel)

theorem decode_encodeByte (b : UInt8) (rest : List UInt8) :
    pctDecodeBytes ((pctEncodeByte b).map byte ++ rest) = (pctDecodeBytes rest).map (b :: ·) := by
  obtain ⟨henc, hne⟩ | ⟨henc, hhex⟩ := encodeByte_cases b
  · rw [henc, List.singleton_append, pctDecodeBytes.eq_def]
    simp only [hne, if_false]
  · rw [henc, List.cons_append, List.cons_append, List.cons_append, List.nil_append,
      pctDecodeBytes.eq_def]
    simp only [hhex]
    rfl

theorem decode_encodeBytes (bs : List UInt8) :
    pctDecodeBytes ((bs.flatMap pctEncodeByte).map byte) = .ok bs := by
  induction bs with
  | nil => rfl
  | cons b bs ih =>
    rw [List.flatMap_cons, List.map_append, decode_encodeByte, ih]
    rfl

end Bytes

/-- The characters of an escaped value. -/
def escaped (s : String) : List Char := (bytes s).flatMap pctEncodeByte

theorem toList_pctEncode (s : String) : (pctEncode s).toList = escaped s := String.toList_ofList

theorem plain_escaped (s : String) : ∀ c ∈ escaped s, Plain c := by
  intro c hc
  obtain ⟨b, _, hc⟩ := List.mem_flatMap.mp hc
  exact of_decide_eq_true (List.all_eq_true.mp (all_plain_encodeByte b) c hc)

theorem length_escaped (s : String) : (escaped s).length = escapedLen s := by
  rw [escaped, escapedLen]
  induction bytes s with
  | nil => rfl
  | cons b bs ih =>
    rw [List.flatMap_cons, List.length_append, ih, length_encodeByte, List.countP_cons,
      List.length_cons]
    cases keeps b <;> simp <;> omega

/-- Percent decoding undoes percent encoding, on any text. -/
theorem pctDecode_escaped (s : String) : pctDecode (String.ofList (escaped s)) = .ok s := by
  have hbytes : bytes (String.ofList (escaped s)) = (escaped s).map byte :=
    bytes_of_ascii fun c hc => (plain_escaped s c hc).1
  rw [pctDecode, hbytes, escaped, decode_encodeBytes]
  simp only [fromUtf8_bytes]

section Fields

variable {seed : GroupSeed}

/-- A field of a seed: a key and an escaped value. -/
def field (k : Char) (s : String) : List Char := k :: '=' :: escaped s

/-- The fields of a seed, in the order they are written. -/
def fields (seed : GroupSeed) : List (List Char) :=
  field 'v' seedVersion :: field 'g' seed.group :: seed.addrs.map (field 'a')

theorem intercalate_cons {α : Type} (sep : α) (l : List α) (ls : List (List α)) :
    [sep].intercalate (l :: ls) = l ++ ls.flatMap (sep :: ·) := by
  induction ls generalizing l with
  | nil => simp
  | cons m ls ih =>
    rw [List.intercalate_cons_cons, ih, List.flatMap_cons]
    simp

theorem mem_intercalate {α : Type} {sep a : α} {ls : List (List α)}
    (h : a ∈ [sep].intercalate ls) : a = sep ∨ ∃ l ∈ ls, a ∈ l := by
  cases ls with
  | nil => exact absurd h List.not_mem_nil
  | cons l ls =>
    rw [intercalate_cons, List.mem_append, List.mem_flatMap] at h
    obtain h | ⟨m, hm, h⟩ := h
    · exact .inr ⟨l, List.mem_cons_self, h⟩
    · exact (List.mem_cons.mp h).imp_right fun h => ⟨m, List.mem_cons_of_mem l hm, h⟩

theorem toList_encode (seed : GroupSeed) :
    seed.encode.toList = seedPrefix.toList ++ ['&'].intercalate (fields seed) := by
  have hversion : escaped seedVersion = seedVersion.toList := by decide +kernel
  rw [fields, intercalate_cons, List.flatMap_cons, List.flatMap_map]
  simp only [GroupSeed.encode, String.toList_append, String.toList_join, List.flatMap_map]
  simp [field, toList_pctEncode, hversion]

theorem plain_field {k : Char} (hk : Plain k) (s : String) : ∀ c ∈ field k s, Plain c := by
  intro c hc
  rw [field, List.mem_cons, List.mem_cons] at hc
  obtain rfl | rfl | hc := hc
  · exact hk
  · decide
  · exact plain_escaped s c hc

theorem plain_of_mem_fields {l : List Char} (h : l ∈ fields seed) :
    l ≠ [] ∧ ∀ c ∈ l, Plain c := by
  rw [fields, List.mem_cons, List.mem_cons, List.mem_map] at h
  obtain rfl | rfl | ⟨a, _, rfl⟩ := h
  · exact ⟨List.cons_ne_nil _ _, plain_field (by decide) _⟩
  · exact ⟨List.cons_ne_nil _ _, plain_field (by decide) _⟩
  · exact ⟨List.cons_ne_nil _ _, plain_field (by decide) _⟩

theorem splitOn_fields (seed : GroupSeed) :
    (['&'].intercalate (fields seed)).splitOn '&' = fields seed := by
  apply List.splitOn_intercalate
  · intro l hl hm
    exact ((plain_of_mem_fields hl).2 '&' hm).2.1 rfl
  · exact List.cons_ne_nil _ _

theorem filter_fields (seed : GroupSeed) :
    (fields seed).filter (fun p => !p.isEmpty) = fields seed := by
  rw [List.filter_eq_self]
  intro l hl
  simpa using (plain_of_mem_fields hl).1

/-- A seed is ASCII without whitespace. -/
theorem ascii_encode (seed : GroupSeed) :
    ∀ c ∈ seed.encode.toList, c.toNat < 128 ∧ isWhitespace c = false := by
  have hprefix : seedPrefix.toList.all
      (fun c => decide (c.toNat < 128 ∧ isWhitespace c = false)) = true := by
    decide +kernel
  intro c hc
  rw [toList_encode] at hc
  obtain hc | hc := List.mem_append.mp hc
  · exact of_decide_eq_true (List.all_eq_true.mp hprefix c hc)
  · obtain rfl | ⟨l, hl, hc⟩ := mem_intercalate hc
    · decide
    · obtain ⟨hascii, _, hspace⟩ := (plain_of_mem_fields hl).2 c hc
      exact ⟨hascii, hspace⟩

theorem len_encode (seed : GroupSeed) : len seed.encode = encodedLen seed := by
  have hversion : escapedLen seedVersion = 1 := by decide +kernel
  have hprefix : seedPrefix.toList.length = 23 := by decide +kernel
  have haddrs : ∀ addrs : List String, ((addrs.map (field 'a')).flatMap ('&' :: ·)).length =
      addrs.foldr (fun a n => 3 + escapedLen a + n) 0 := by
    intro addrs
    induction addrs with
    | nil => rfl
    | cons a addrs ih =>
      rw [List.map_cons, List.flatMap_cons, List.length_append, ih, List.foldr_cons,
        List.length_cons, field, List.length_cons, List.length_cons, length_escaped]
      omega
  rw [len_of_ascii _ fun c hc => (ascii_encode seed c hc).1, toList_encode, List.length_append,
    hprefix, fields, intercalate_cons, List.length_append, List.flatMap_cons, List.length_append,
    haddrs, encodedLen]
  simp only [field, List.length_cons, length_escaped, hversion]
  omega

theorem splitOnce_field {k : Char} (hk : k ≠ '=') (s : String) :
    splitOnce (field k s) = ([k], escaped s) := by
  have htake : (field k s).takeWhile (· != '=') = [k] := by simp [field, hk]
  have hdrop : (field k s).dropWhile (· != '=') = '=' :: escaped s := by simp [field, hk]
  rw [splitOnce, List.span_eq_takeWhile_dropWhile, htake, hdrop]
  rfl

/-- Every address is read back, in order, as long as the seed has room for it. -/
theorem foldlM_decodePair (addrs : List String) (acc : Fields)
    (hroom : acc.addrs.length + addrs.length ≤ maxSeedAddrs) :
    (addrs.map (field 'a')).foldlM decodePair acc =
      .ok { acc with addrs := acc.addrs ++ addrs } := by
  induction addrs generalizing acc with
  | nil =>
    rw [List.append_nil]
    rfl
  | cons a addrs ih =>
    rw [List.length_cons] at hroom
    have hpair : decodePair acc (field 'a' a) = .ok { acc with addrs := acc.addrs ++ [a] } := by
      have hlt : ¬ acc.addrs.length ≥ maxSeedAddrs := by omega
      simp only [decodePair, splitOnce_field (show 'a' ≠ '=' by decide), pctDecode_escaped, hlt]
      rfl
    rw [List.map_cons, List.foldlM_cons, hpair]
    refine (ih _ ?_).trans ?_
    · rw [List.length_append, List.length_singleton]
      omega
    · rw [List.append_assoc, List.singleton_append]

/-- The fields of a seed read back as its version, group and addresses. -/
theorem foldlM_fields (hroom : seed.addrs.length ≤ maxSeedAddrs) :
    (fields seed).foldlM decodePair ⟨none, none, []⟩ =
      .ok ⟨some seedVersion, some seed.group, seed.addrs⟩ := by
  have hversion : decodePair ⟨none, none, []⟩ (field 'v' seedVersion) =
      .ok ⟨some seedVersion, none, []⟩ := by
    simp only [decodePair, splitOnce_field (show 'v' ≠ '=' by decide), pctDecode_escaped]
    rfl
  have hgroup : decodePair ⟨some seedVersion, none, []⟩ (field 'g' seed.group) =
      .ok ⟨some seedVersion, some seed.group, []⟩ := by
    simp only [decodePair, splitOnce_field (show 'g' ≠ '=' by decide), pctDecode_escaped]
    rfl
  have haddrs := foldlM_decodePair seed.addrs ⟨some seedVersion, some seed.group, []⟩
    (by simpa using hroom)
  rw [fields, List.foldlM_cons, hversion]
  refine Eq.trans ?_ haddrs
  change (field 'g' seed.group :: seed.addrs.map (field 'a')).foldlM decodePair _ = _
  rw [List.foldlM_cons, hgroup]
  rfl

end Fields

section RoundTrip

variable {seed : GroupSeed}

/-- A seed that `new` or `decode` has returned. -/
def Accepted (seed : GroupSeed) : Prop :=
  (∃ group addrs, GroupSeed.new group addrs = .ok seed) ∨ ∃ text, GroupSeed.decode text = .ok seed

theorem new_eq_ok_iff {group : String} {addrs : List String} :
    GroupSeed.new group addrs = .ok seed ↔ seed = ⟨group, addrs⟩ ∧ seed.validate = .ok () := by
  simp only [GroupSeed.new]
  cases hv : (⟨group, addrs⟩ : GroupSeed).validate with
  | error e =>
    constructor
    · intro h
      cases h
    · rintro ⟨rfl, h⟩
      rw [hv] at h
      cases h
  | ok u =>
    constructor
    · intro h
      cases h
      exact ⟨rfl, hv⟩
    · rintro ⟨rfl, _⟩
      rfl

/-- Either way the seed has passed its validation. -/
theorem Accepted.validate (h : Accepted seed) : seed.validate = .ok () := by
  obtain ⟨group, addrs, h⟩ | ⟨text, h⟩ := h
  · exact (new_eq_ok_iff.mp h).2
  · simp only [GroupSeed.decode] at h
    split at h
    · cases h
    · split at h
      · cases h
      · next query _ =>
        cases hf : ((query.splitOn '&').filter fun p => !p.isEmpty).foldlM decodePair
            ⟨none, none, []⟩ with
        | error e =>
          rw [hf] at h
          cases h
        | ok fields =>
          rw [hf] at h
          change (if fields.version ≠ some seedVersion then _ else _) = _ at h
          split at h
          · cases h
          · split at h
            · cases h
            · exact (new_eq_ok_iff.mp h).2

theorem length_addrs_of_validate (h : seed.validate = .ok ()) :
    seed.addrs.length ≤ maxSeedAddrs := by
  rw [GroupSeed.validate] at h
  split at h
  · cases h
  · split at h
    · cases h
    · next hn =>
      simp only [Bool.or_eq_true, decide_eq_true_eq, not_or, not_lt] at hn
      exact hn.2

/-- The text of a seed reads back as the seed, unless it is over the limit. -/
theorem decode_encode (h : seed.validate = .ok ()) {ws ws' : String}
    (hws : ws.toList.all isWhitespace = true) (hws' : ws'.toList.all isWhitespace = true) :
    GroupSeed.decode (ws ++ seed.encode ++ ws') =
      if encodedLen seed > maxSeedLen then .error .tooLong else .ok seed := by
  have hne : seed.encode.toList ≠ [] := by
    rw [toList_encode]
    exact List.append_ne_nil_of_left_ne_nil (by decide) _
  have htrim : trim (ws ++ seed.encode ++ ws') = seed.encode := by
    have ht := trim_append hws hws' (fun c hc => (ascii_encode seed c hc).2) hne
    rwa [String.ofList_toList] at ht
  have hprefix : seed.encode.toList.dropPrefix? seedPrefix.toList =
      some (['&'].intercalate (fields seed)) := by
    rw [toList_encode]
    exact List.dropPrefix?_append_of_beq _ (beq_self_eq_true _)
  simp only [GroupSeed.decode, htrim, len_encode, hprefix, splitOn_fields, filter_fields,
    foldlM_fields (length_addrs_of_validate h)]
  split
  · rfl
  · simp only [bind, Except.bind, ne_eq, not_true_eq_false, if_false]
    exact new_eq_ok_iff.mpr ⟨rfl, h⟩

theorem decode_encode_ne_of_long (h : seed.validate = .ok ())
    (hlong : encodedLen seed > maxSeedLen) : GroupSeed.decode seed.encode ≠ .ok seed := by
  have hnone : "".toList.all isWhitespace = true := rfl
  have hdecode := decode_encode h hnone hnone
  rw [String.empty_append, String.append_empty, if_pos hlong] at hdecode
  simp [hdecode]

/-- Whatever whitespace surrounds it, the text of an accepted seed reads back as that seed exactly
if it takes at most `maxSeedLen` bytes. -/
theorem decode_encode_eq_iff (h : Accepted seed) {ws ws' : String}
    (hws : ws.toList.all isWhitespace = true) (hws' : ws'.toList.all isWhitespace = true) :
    GroupSeed.decode (ws ++ seed.encode ++ ws') = .ok seed ↔ encodedLen seed ≤ maxSeedLen := by
  rw [decode_encode h.validate hws hws']
  split
  · next hlong => simp [Nat.not_le_of_lt hlong]
  · next hshort => simp [Nat.le_of_not_lt hshort]

def teamSeed : GroupSeed := ⟨"team a+b", ["/ip4/10.0.0.2/tcp/4001/p2p/12D3", "/ip6/::1/tcp/1/p2p/9"]⟩

theorem decode_encode_eq_iff_sample :
    GroupSeed.decode ("\n " ++ teamSeed.encode ++ " ") = .ok teamSeed := by
  have haccepted : Accepted teamSeed :=
    .inl ⟨teamSeed.group, teamSeed.addrs, new_eq_ok_iff.mpr ⟨rfl, by decide +kernel⟩⟩
  have hws : "\n ".toList.all isWhitespace = true := by decide
  have hws' : " ".toList.all isWhitespace = true := by decide
  have hlen : encodedLen teamSeed ≤ maxSeedLen := by decide +kernel
  exact (decode_encode_eq_iff haccepted hws hws').mpr hlen

/-- An address that escaping makes almost three times as long. -/
def longAddr : String := String.ofList ('/' :: (List.replicate 85 '+' ++ "/p2p/9".toList))

def longSeed : GroupSeed := ⟨"team", List.replicate maxSeedAddrs longAddr⟩

/-- A seed that `new` accepts, and whose text `decode` refuses as too long. -/
theorem long_seed_does_not_read_back :
    GroupSeed.new longSeed.group longSeed.addrs = .ok longSeed ∧
      GroupSeed.decode longSeed.encode ≠ .ok longSeed := by
  have hgroup : validGroup "team" = true := by decide +kernel
  have haddr : validAddr longAddr = true := by decide +kernel
  have hlen : escapedLen longAddr = 262 := by decide +kernel
  have hvalid : longSeed.validate = .ok () := by
    simp [GroupSeed.validate, longSeed, hgroup, haddr, maxSeedAddrs]
  have hlong : encodedLen longSeed > maxSeedLen := by
    simp only [encodedLen, longSeed, maxSeedAddrs, List.replicate, List.foldr, hlen]
    exact Nat.lt_of_lt_of_le (by decide) (Nat.le_add_left _ _)
  exact ⟨new_eq_ok_iff.mpr ⟨rfl, hvalid⟩, decode_encode_ne_of_long hvalid hlong⟩

end RoundTrip

end CitrateCluster.SeedText
