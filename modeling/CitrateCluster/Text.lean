import Mathlib.Data.List.DropRight
import Mathlib.Data.String.Basic

namespace CitrateCluster.Text

/-- The Unicode `White_Space` characters, which `str::trim` strips. -/
def isWhitespace (c : Char) : Bool :=
  let n := c.toNat
  (0x09 ≤ n && n ≤ 0x0D) || n == 0x20 || n == 0x85 || n == 0xA0 || n == 0x1680 ||
    (0x2000 ≤ n && n ≤ 0x200A) || n == 0x2028 || n == 0x2029 || n == 0x202F || n == 0x205F ||
    n == 0x3000

def trim (s : String) : String :=
  String.ofList ((s.toList.dropWhile isWhitespace).rdropWhile isWhitespace)

/-- `str::trim_start_matches` for the pattern `0x`. -/
def trimStart0x : List Char → List Char
  | '0' :: 'x' :: cs => trimStart0x cs
  | cs => cs

def inRange (lo hi c : Char) : Bool := lo.toNat ≤ c.toNat && c.toNat ≤ hi.toNat

def toAsciiLowercase (c : Char) : Char :=
  if inRange 'A' 'Z' c then Char.ofNat (c.toNat + 32) else c

/-- `str::len`, which counts bytes. -/
def len (s : String) : Nat := s.utf8ByteSize

/-- `str::bytes`. -/
def bytes (s : String) : List UInt8 := s.toUTF8.data.toList

/-- `String::from_utf8`. -/
def fromUtf8 (bs : List UInt8) : Option String := String.fromUTF8? ⟨bs.toArray⟩

def isAsciiHexdigit (c : Char) : Bool :=
  inRange '0' '9' c || inRange 'a' 'f' c || inRange 'A' 'F' c

def isAsciiAlphanumeric (c : Char) : Bool :=
  inRange '0' '9' c || inRange 'a' 'z' c || inRange 'A' 'Z' c

/-- The `{:?}` form of a string. Apart from control characters, what Unicode calls unprintable or a
grapheme extender is escaped there too, and is left as it is here. -/
def debug (s : String) : String :=
  "\"" ++ String.join (s.toList.map escape) ++ "\""
where
  escape (c : Char) : String :=
    if c = '"' then "\\\"" else if c = '\\' then "\\\\"
    else if c = '\n' then "\\n" else if c = '\r' then "\\r" else if c = '\t' then "\\t"
    else if c.toNat = 0 then "\\0"
    else if c.toNat < 0x20 || (0x7F ≤ c.toNat && c.toNat < 0xA0) then
      "\\u\x7b" ++ String.ofList (Nat.toDigits 16 c.toNat) ++ "\x7d"
    else String.singleton c

theorem inRange_iff {lo hi c : Char} :
    inRange lo hi c = true ↔ lo.toNat ≤ c.toNat ∧ c.toNat ≤ hi.toNat := by
  simp [inRange]

theorem toAsciiLowercase_not_upper (c : Char) : inRange 'A' 'Z' (toAsciiLowercase c) = false := by
  rw [toAsciiLowercase]
  split
  · next h =>
    have hc : 0x41 ≤ c.toNat ∧ c.toNat ≤ 0x5A := inRange_iff.mp h
    have hv : (c.toNat + 32).isValidChar := .inl (by omega)
    have hn : (Char.ofNat (c.toNat + 32)).toNat = c.toNat + 32 := by
      rw [Char.ofNat, dif_pos hv]
      rfl
    rw [inRange, hn, Bool.and_eq_false_iff, decide_eq_false_iff_not, decide_eq_false_iff_not]
    right
    simp only [Char.reduceToNat]
    omega
  · next h => simpa using h

theorem utf8Size_of_ascii {c : Char} (h : c.toNat < 128) : c.utf8Size = 1 := by
  rw [Char.utf8Size_eq_one_iff, UInt32.le_iff_toNat_le]
  exact Nat.le_of_lt_succ h

/-- On ASCII text bytes and characters are counted alike. -/
theorem len_of_ascii (s : String) (h : ∀ c ∈ s.toList, c.toNat < 128) :
    len s = s.toList.length := by
  obtain ⟨cs, rfl⟩ : ∃ cs, s = String.ofList cs := ⟨s.toList, String.ofList_toList.symm⟩
  rw [String.toList_ofList] at h ⊢
  induction cs with
  | nil => rfl
  | cons c cs ih =>
    have hc : c.utf8Size = 1 := utf8Size_of_ascii (h c List.mem_cons_self)
    have ht := ih fun x hx => h x (List.mem_cons_of_mem c hx)
    have hs : String.ofList (c :: cs) = String.singleton c ++ String.ofList cs := by
      apply String.toList_inj.mp
      simp
    simp only [len] at ht ⊢
    rw [hs, String.utf8ByteSize_append, String.utf8ByteSize_singleton, hc, ht, List.length_cons,
      Nat.add_comm]

theorem trim_of_forall_not {s : String} (h : ∀ c ∈ s.toList, isWhitespace c = false) :
    trim s = s := by
  have hd : s.toList.dropWhile isWhitespace = s.toList := by
    cases hs : s.toList with
    | nil => rfl
    | cons c cs =>
      rw [List.dropWhile_cons_of_neg]
      simp [h c (by simp [hs])]
  have hr : s.toList.rdropWhile isWhitespace = s.toList := by
    rw [List.rdropWhile_eq_self_iff]
    intro hl
    simp [h _ (List.getLast_mem hl)]
  rw [trim, hd, hr, String.ofList_toList]

theorem trimStart0x_of_forall_ne {cs : List Char} (h : ∀ c ∈ cs, c ≠ 'x') :
    trimStart0x cs = cs := by
  unfold trimStart0x
  split
  · exact absurd rfl (h 'x' (by simp))
  · rfl

theorem fromUtf8_bytes (s : String) : fromUtf8 (bytes s) = some s := by
  have hs : (⟨(bytes s).toArray⟩ : ByteArray) = s.toByteArray := by
    rw [bytes, Array.toArray_toList, String.toUTF8_eq_toByteArray]
  rw [fromUtf8, hs, String.fromUTF8?, dif_pos s.isValidUTF8]
  rfl

/-- The bytes of ASCII text are its characters. -/
theorem bytes_of_ascii {cs : List Char} (h : ∀ c ∈ cs, c.toNat < 128) :
    bytes (String.ofList cs) = cs.map fun c => UInt8.ofNat c.toNat := by
  rw [bytes, String.toUTF8_eq_toByteArray, String.toByteArray_ofList]
  induction cs with
  | nil => rfl
  | cons c cs ih =>
    have hc : c.utf8Size = 1 := utf8Size_of_ascii (h c List.mem_cons_self)
    rw [List.utf8Encode_cons, List.utf8Encode_singleton, String.utf8EncodeChar_eq_singleton hc]
    have ht := ih fun x hx => h x (List.mem_cons_of_mem c hx)
    simp [ht]
    rfl

/-- Whitespace around text that has none at its ends is all that `trim` removes. -/
theorem trim_append {ws ws' : String} {cs : List Char} (hws : ws.toList.all isWhitespace = true)
    (hws' : ws'.toList.all isWhitespace = true) (hcs : ∀ c ∈ cs, isWhitespace c = false)
    (hne : cs ≠ []) : trim (ws ++ String.ofList cs ++ ws') = String.ofList cs := by
  rw [List.all_eq_true] at hws hws'
  have hd : (ws.toList ++ (cs ++ ws'.toList)).dropWhile isWhitespace = cs ++ ws'.toList := by
    rw [List.dropWhile_append_of_pos hws]
    cases cs with
    | nil => exact absurd rfl hne
    | cons c cs =>
      rw [List.cons_append, List.dropWhile_cons_of_neg]
      simp [hcs c List.mem_cons_self]
  have hr : (cs ++ ws'.toList).rdropWhile isWhitespace = cs := by
    rw [List.rdropWhile, List.reverse_append, List.dropWhile_append_of_pos (by simpa using hws')]
    rw [← List.rdropWhile, List.rdropWhile_eq_self_iff]
    intro hl
    simp [hcs _ (List.getLast_mem hl)]
  rw [trim, String.toList_append, String.toList_append, String.toList_ofList, List.append_assoc, hd,
    hr]

end CitrateCluster.Text
