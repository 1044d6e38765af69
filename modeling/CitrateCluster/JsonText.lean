import CitrateCluster.Hex
import Mathlib.Data.List.TakeWhile

namespace CitrateCluster.JsonText

/-- A JSON value. Numbers other than naturals are kept as they are written. -/
inductive Value where
  | null
  | bool (b : Bool)
  | num (n : Nat)
  | real (literal : String)
  | str (s : String)
  | arr (vs : List Value)
  | obj (fs : List (String × Value))

/-- The values whose numbers are naturals of 64 bits, nested at most so deep. -/
inductive Value.Fits : Nat → Value → Prop where
  | null {d : Nat} : Fits d .null
  | bool {d : Nat} (b : Bool) : Fits d (.bool b)
  | num {d n : Nat} (h : n < 2 ^ 64) : Fits d (.num n)
  | str {d : Nat} (s : String) : Fits d (.str s)
  | arr {d : Nat} {vs : List Value} (h : ∀ v ∈ vs, Fits d v) : Fits (d + 1) (.arr vs)
  | obj {d : Nat} {fs : List (String × Value)} (h : ∀ f ∈ fs, Fits d f.2) : Fits (d + 1) (.obj fs)

/-- Deeper values are not read. -/
def maxDepth : Nat := 127

/-- What is relied on of a JSON library: it reads back what it writes, and writes no control
characters. -/
structure Codec where
  print : Value → String
  read : String → Option Value
  explain : String → String
  read_print {v : Value} (h : v.Fits maxDepth) : read (print v) = some v
  printable {v : Value} (h : v.Fits maxDepth) {c : Char} (hc : c ∈ (print v).toList) : 0x20 ≤ c.toNat

section Strings

/-- The letter that stands for a character behind a backslash. -/
def letter : Char → Option Char
  | '"' => some '"'
  | '\\' => some '\\'
  | '\x08' => some 'b'
  | '\x0c' => some 'f'
  | '\n' => some 'n'
  | '\r' => some 'r'
  | '\t' => some 't'
  | _ => none

def unescape : Char → Option Char
  | '"' => some '"'
  | '\\' => some '\\'
  | '/' => some '/'
  | 'b' => some '\x08'
  | 'f' => some '\x0c'
  | 'n' => some '\n'
  | 'r' => some '\r'
  | 't' => some '\t'
  | _ => none

def escape (c : Char) : List Char :=
  match letter c with
  | some x => ['\\', x]
  | none =>
    if c.toNat < 0x20 then
      ['\\', 'u', '0', '0', Hex.digit (c.toNat / 16), Hex.digit (c.toNat % 16)]
    else [c]

def printString (s : String) : List Char := '"' :: (s.toList.flatMap escape ++ ['"'])

/-- The rest of a string, up to the closing quote. Escaped surrogates are not read. -/
def readString : List Char → Option (List Char × List Char)
  | '"' :: r => some ([], r)
  | '\\' :: 'u' :: x₁ :: x₂ :: x₃ :: x₄ :: r => do
    let n₁ ← Hex.value x₁
    let n₂ ← Hex.value x₂
    let n₃ ← Hex.value x₃
    let n₄ ← Hex.value x₄
    let n := 4096 * n₁ + 256 * n₂ + 16 * n₃ + n₄
    if 0xD800 ≤ n ∧ n < 0xE000 then none
    let (s, r) ← readString r
    some (Char.ofNat n :: s, r)
  | '\\' :: x :: r => do
    let c ← unescape x
    let (s, r) ← readString r
    some (c :: s, r)
  | c :: r => do
    if c.toNat < 0x20 then none
    let (s, r) ← readString r
    some (c :: s, r)
  | [] => none

theorem unescape_letter {c x : Char} (h : letter c = some x) : unescape x = some c ∧ x ≠ 'u' := by
  unfold letter at h
  split at h <;> cases h <;> exact ⟨rfl, by decide⟩

theorem not_quote_of_letter {c : Char} (h : letter c = none) : c ≠ '"' ∧ c ≠ '\\' := by
  constructor <;> rintro rfl <;> cases h

theorem readString_escape (c : Char) {s r r' : List Char} (h : readString r = some (s, r')) :
    readString (escape c ++ r) = some (c :: s, r') := by
  rw [escape]
  cases hl : letter c with
  | some x =>
    obtain ⟨hx, hu⟩ := unescape_letter hl
    simp [readString, hx, h, hu]
  | none =>
    obtain ⟨hq, hb⟩ := not_quote_of_letter hl
    dsimp only
    split
    · next hc =>
      have hhi := Hex.value_digit (c.toNat / 16) (by omega)
      have hlo := Hex.value_digit (c.toNat % 16) (by omega)
      have hzero : Hex.value '0' = some 0 := by decide
      have hsmall : ¬ (0xD800 ≤ c.toNat ∧ c.toNat < 0xE000) := by omega
      have hn : 4096 * 0 + 256 * 0 + 16 * (c.toNat / 16) + c.toNat % 16 = c.toNat := by omega
      simp only [List.cons_append, List.nil_append, readString, hzero, hhi, hlo, hn, hsmall, h,
        Option.bind_eq_bind, Option.bind_some, if_false, Char.ofNat_toNat]
    · next hc =>
      simp [readString, h, hc, hb]

theorem readString_printString (s : String) (r : List Char) :
    readString (s.toList.flatMap escape ++ '"' :: r) = some (s.toList, r) := by
  induction s.toList with
  | nil => rfl
  | cons c cs ih =>
    rw [List.flatMap_cons, List.append_assoc]
    exact readString_escape c ih

end Strings

section Values

mutual

/-- A value in compact form. -/
def print : Value → List Char
  | .null => ['n', 'u', 'l', 'l']
  | .bool true => ['t', 'r', 'u', 'e']
  | .bool false => ['f', 'a', 'l', 's', 'e']
  | .num n => Nat.toDigits 10 n
  | .real literal => literal.toList
  | .str s => printString s
  | .arr [] => ['[', ']']
  | .arr (v :: vs) => '[' :: (print v ++ printItems vs)
  | .obj [] => ['\x7b', '\x7d']
  | .obj ((k, v) :: fs) => '\x7b' :: (printString k ++ ':' :: (print v ++ printFields fs))

def printItems : List Value → List Char
  | [] => [']']
  | v :: vs => ',' :: (print v ++ printItems vs)

def printFields : List (String × Value) → List Char
  | [] => ['\x7d']
  | (k, v) :: fs => ',' :: (printString k ++ ':' :: (print v ++ printFields fs))

end

def readNumber (cs : List Char) : Option (Value × List Char) :=
  let ds := cs.takeWhile Char.isDigit
  if ds.isEmpty then none
  else some (.num (Nat.ofDigitChars 10 ds 0), cs.dropWhile Char.isDigit)

/-- A name and the colon after it. -/
def readName : List Char → Option (String × List Char)
  | '"' :: r => do
    let (s, r) ← readString r
    match r with
    | ':' :: r => some (String.ofList s, r)
    | _ => none
  | _ => none

mutual

/-- Read a value in compact form. -/
def readValue : Nat → List Char → Option (Value × List Char)
  | 0, _ => none
  | _ + 1, 'n' :: 'u' :: 'l' :: 'l' :: r => some (.null, r)
  | _ + 1, 't' :: 'r' :: 'u' :: 'e' :: r => some (.bool true, r)
  | _ + 1, 'f' :: 'a' :: 'l' :: 's' :: 'e' :: r => some (.bool false, r)
  | _ + 1, '"' :: r => do
    let (s, r) ← readString r
    some (.str (String.ofList s), r)
  | _ + 1, '[' :: ']' :: r => some (.arr [], r)
  | n + 1, '[' :: r => do
    let (v, r) ← readValue n r
    let (vs, r) ← readItems n r
    some (.arr (v :: vs), r)
  | _ + 1, '\x7b' :: '\x7d' :: r => some (.obj [], r)
  | n + 1, '\x7b' :: r => do
    let (k, r) ← readName r
    let (v, r) ← readValue n r
    let (fs, r) ← readFields n r
    some (.obj ((k, v) :: fs), r)
  | _ + 1, r => readNumber r

def readItems : Nat → List Char → Option (List Value × List Char)
  | _ + 1, ']' :: r => some ([], r)
  | n + 1, ',' :: r => do
    let (v, r) ← readValue n r
    let (vs, r) ← readItems n r
    some (v :: vs, r)
  | _, _ => none

def readFields : Nat → List Char → Option (List (String × Value) × List Char)
  | _ + 1, '\x7d' :: r => some ([], r)
  | n + 1, ',' :: r => do
    let (k, r) ← readName r
    let (v, r) ← readValue n r
    let (fs, r) ← readFields n r
    some ((k, v) :: fs, r)
  | _, _ => none

end

/-- Text that does not go on with a digit. -/
def Ends (r : List Char) : Prop := ∀ c ∈ r.head?, c.isDigit = false

theorem readName_print (k : String) (r : List Char) :
    readName (printString k ++ ':' :: r) = some (k, r) := by
  simp only [readName, printString, List.cons_append, List.append_assoc, List.nil_append,
    readString_printString, Option.bind_eq_bind, Option.bind_some, String.ofList_toList]

theorem isDigit_of_mem_toDigits {n : Nat} {c : Char} (hc : c ∈ Nat.toDigits 10 n) :
    c.isDigit = true := Nat.isDigit_of_mem_toDigits (by decide) (by decide) hc

theorem readNumber_toDigits (n : Nat) {r : List Char} (hr : Ends r) :
    readNumber (Nat.toDigits 10 n ++ r) = some (.num n, r) := by
  have hstop : r.takeWhile Char.isDigit = [] ∧ r.dropWhile Char.isDigit = r := by
    cases r with
    | nil => exact ⟨rfl, rfl⟩
    | cons c r =>
      have hc := hr c rfl
      simp [hc]
  rw [readNumber, List.takeWhile_append_of_pos fun c => isDigit_of_mem_toDigits,
    List.dropWhile_append_of_pos fun c => isDigit_of_mem_toDigits, hstop.1, hstop.2,
    List.append_nil, Nat.ofDigitChars_ten_toDigits]
  simp [Nat.toDigits_ne_nil]

theorem readValue_of_digit {c : Char} (hc : c.isDigit = true) (n : Nat) (r : List Char) :
    readValue (n + 1) (c :: r) = readNumber (c :: r) := by
  unfold readValue
  split <;> simp_all

theorem ends_printItems (vs : List Value) (r : List Char) : Ends (printItems vs ++ r) := by
  cases vs <;> simp [printItems, Ends]

theorem ends_printFields (fs : List (String × Value)) (r : List Char) :
    Ends (printFields fs ++ r) := by
  cases fs <;> simp [printFields, Ends]

/-- A value does not begin as the end of a list. -/
theorem print_head {d : Nat} {v : Value} (h : v.Fits d) : ∃ c cs, print v = c :: cs ∧ c ≠ ']' := by
  cases h with
  | null => exact ⟨_, _, rfl, by decide⟩
  | bool b => cases b <;> exact ⟨_, _, rfl, by decide⟩
  | @num _ n =>
    cases hds : Nat.toDigits 10 n with
    | nil => exact absurd hds Nat.toDigits_ne_nil
    | cons d ds =>
      refine ⟨d, ds, hds, ?_⟩
      rintro rfl
      have hd : (']').isDigit = true := isDigit_of_mem_toDigits (n := n) (by simp [hds])
      cases hd
  | str s => exact ⟨_, _, rfl, by decide⟩
  | @arr _ vs => cases vs <;> exact ⟨_, _, rfl, by decide⟩
  | @obj _ fs => cases fs <;> exact ⟨_, _, rfl, by decide⟩

theorem readItems_print {vs : List Value} (h : ∀ v ∈ vs, ∀ n r, (print v).length ≤ n → Ends r →
      readValue n (print v ++ r) = some (v, r)) :
    ∀ n r, (printItems vs).length ≤ n → readItems n (printItems vs ++ r) = some (vs, r) := by
  induction vs with
  | nil =>
    intro n r hn
    obtain ⟨n, rfl⟩ := Nat.exists_eq_add_of_le' hn
    rfl
  | cons v vs ih =>
    intro n r hn
    rw [printItems, List.length_cons, List.length_append] at hn
    obtain ⟨n, rfl⟩ : ∃ m, n = m + 1 := ⟨n - 1, by omega⟩
    have hv := h v List.mem_cons_self n (printItems vs ++ r) (by omega) (ends_printItems vs r)
    have hvs := ih (fun u hu => h u (List.mem_cons_of_mem v hu)) n r (by omega)
    rw [printItems, List.cons_append, List.append_assoc, readItems]
    simp only [hv, hvs, Option.bind_eq_bind, Option.bind_some]

theorem readFields_print {fs : List (String × Value)}
    (h : ∀ f ∈ fs, ∀ n r, (print f.2).length ≤ n → Ends r →
      readValue n (print f.2 ++ r) = some (f.2, r)) :
    ∀ n r, (printFields fs).length ≤ n → readFields n (printFields fs ++ r) = some (fs, r) := by
  induction fs with
  | nil =>
    intro n r hn
    obtain ⟨n, rfl⟩ := Nat.exists_eq_add_of_le' hn
    rfl
  | cons f fs ih =>
    obtain ⟨k, v⟩ := f
    intro n r hn
    simp only [printFields, List.length_cons, List.length_append] at hn
    obtain ⟨n, rfl⟩ : ∃ m, n = m + 1 := ⟨n - 1, by omega⟩
    have hlen : (print v).length ≤ n := by omega
    have hv := h (k, v) List.mem_cons_self n (printFields fs ++ r) hlen (ends_printFields fs r)
    have hfs := ih (fun f hf => h f (List.mem_cons_of_mem _ hf)) n r (by omega)
    rw [printFields, List.cons_append, List.append_assoc, List.cons_append, List.append_assoc,
      readFields]
    simp only [readName_print, hv, hfs, Option.bind_eq_bind, Option.bind_some]

theorem exists_succ {d : Nat} {v : Value} (h : v.Fits d) {n : Nat} (hn : (print v).length ≤ n) :
    ∃ m, n = m + 1 := by
  obtain ⟨c, cs, hc, -⟩ := print_head h
  rw [hc, List.length_cons] at hn
  exact ⟨n - 1, by omega⟩

theorem readValue_print {d : Nat} {v : Value} (h : v.Fits d) :
    ∀ n r, (print v).length ≤ n → Ends r → readValue n (print v ++ r) = some (v, r) := by
  induction h with
  | null =>
    intro n r hn _
    obtain ⟨n, rfl⟩ := exists_succ (.null (d := 0)) hn
    rfl
  | bool b =>
    intro n r hn _
    obtain ⟨n, rfl⟩ := exists_succ (.bool (d := 0) b) hn
    cases b <;> rfl
  | @num _ k hk =>
    intro n r hn hr
    obtain ⟨n, rfl⟩ := exists_succ (.num (d := 0) hk) hn
    cases hds : Nat.toDigits 10 k with
    | nil => exact absurd hds Nat.toDigits_ne_nil
    | cons d ds =>
      have hd : d.isDigit = true := isDigit_of_mem_toDigits (n := k) (by simp [hds])
      rw [print, hds, List.cons_append, readValue_of_digit hd, ← List.cons_append, ← hds,
        readNumber_toDigits k hr]
  | str s =>
    intro n r hn _
    obtain ⟨n, rfl⟩ := exists_succ (.str (d := 0) s) hn
    rw [print, printString, List.cons_append, List.append_assoc, readValue, List.singleton_append,
      readString_printString]
    simp only [Option.bind_eq_bind, Option.bind_some, String.ofList_toList]
  | @arr _ vs hvs ih =>
    intro n r hn _
    obtain ⟨n, rfl⟩ := exists_succ (.arr hvs) hn
    cases vs with
    | nil => rfl
    | cons v vs =>
      rw [print, List.length_cons, List.length_append] at hn
      have hv := ih v List.mem_cons_self n (printItems vs ++ r) (by omega) (ends_printItems vs r)
      have hitems := readItems_print (fun u hu => ih u (List.mem_cons_of_mem v hu)) n r (by omega)
      obtain ⟨c, cs, hc, hne⟩ := print_head (hvs v List.mem_cons_self)
      rw [print, List.cons_append, List.append_assoc]
      rw [hc, List.cons_append] at hv ⊢
      simp [readValue, hne, hv, hitems]
  | @obj _ fs hfs ih =>
    intro n r hn _
    obtain ⟨n, rfl⟩ := exists_succ (.obj hfs) hn
    cases fs with
    | nil => rfl
    | cons f fs =>
      obtain ⟨k, v⟩ := f
      simp only [print, List.length_cons, List.length_append] at hn
      have hlen : (print v).length ≤ n := by omega
      have hv := ih (k, v) List.mem_cons_self n (printFields fs ++ r) hlen (ends_printFields fs r)
      have hfields :=
        readFields_print (fun f hf => ih f (List.mem_cons_of_mem _ hf)) n r (by omega)
      have hname := readName_print k (print v ++ (printFields fs ++ r))
      rw [print, List.cons_append, List.append_assoc, List.cons_append, List.append_assoc]
      rw [printString, List.cons_append] at hname ⊢
      rw [readValue, hname]
      · simp only [hv, hfields, Option.bind_eq_bind, Option.bind_some]
      · simp

def read (s : String) : Option Value :=
  match readValue s.toList.length s.toList with
  | some (v, []) => some v
  | _ => none

theorem read_print {d : Nat} {v : Value} (h : v.Fits d) : read (String.ofList (print v)) = some v := by
  have hread := readValue_print h (print v).length [] le_rfl (by simp [Ends])
  rw [List.append_nil] at hread
  rw [read, String.toList_ofList, hread]

end Values

section Printable

/-- No control character. -/
def Printable (cs : List Char) : Prop := ∀ c ∈ cs, 0x20 ≤ c.toNat

theorem printable_escape (c : Char) : Printable (escape c) := by
  rw [escape]
  cases hl : letter c with
  | some x =>
    unfold letter at hl
    split at hl <;> cases hl <;> simp [Printable]
  | none =>
    dsimp only
    split
    · next hc =>
      have hdigit : ∀ n < 16, 0x20 ≤ (Hex.digit n).toNat := by decide
      have hhi := hdigit (c.toNat / 16) (by omega)
      have hlo := hdigit (c.toNat % 16) (by omega)
      simp [Printable, hhi, hlo]
    · next hc => simpa [Printable] using Nat.le_of_not_lt hc

theorem printable_printString (s : String) : Printable (printString s) := by
  simp only [printString, Printable, List.mem_cons, List.mem_append, List.mem_flatMap,
    List.not_mem_nil, or_false]
  rintro c (rfl | ⟨x, _, hc⟩ | rfl)
  · decide
  · exact printable_escape x c hc
  · decide

theorem printable_printItems {vs : List Value} (h : ∀ v ∈ vs, Printable (print v)) :
    Printable (printItems vs) := by
  induction vs with
  | nil => simp [printItems, Printable]
  | cons v vs ih =>
    have hvs := ih fun u hu => h u (List.mem_cons_of_mem v hu)
    simp only [printItems, Printable, List.mem_cons, List.mem_append]
    rintro c (rfl | hc | hc)
    · decide
    · exact h v List.mem_cons_self c hc
    · exact hvs c hc

theorem printable_printFields {fs : List (String × Value)} (h : ∀ f ∈ fs, Printable (print f.2)) :
    Printable (printFields fs) := by
  induction fs with
  | nil => simp [printFields, Printable]
  | cons f fs ih =>
    have hfs := ih fun f' hf => h f' (List.mem_cons_of_mem f hf)
    simp only [printFields, Printable, List.mem_cons, List.mem_append]
    rintro c (rfl | hc | rfl | hc | hc)
    · decide
    · exact printable_printString f.1 c hc
    · decide
    · exact h f List.mem_cons_self c hc
    · exact hfs c hc

theorem printable_print {d : Nat} {v : Value} (h : v.Fits d) : Printable (print v) := by
  induction h with
  | null => simp [print, Printable]
  | bool b => cases b <;> simp [print, Printable]
  | @num _ n =>
    intro c hc
    have hd := isDigit_of_mem_toDigits hc
    simp only [Char.isDigit, Bool.and_eq_true, decide_eq_true_eq, ge_iff_le,
      UInt32.le_iff_toNat_le] at hd
    exact le_trans (by decide) hd.1
  | str s => exact printable_printString s
  | @arr _ vs _ ih =>
    cases vs with
    | nil => simp [print, Printable]
    | cons v vs =>
      have hrest := printable_printItems ih
      rw [printItems] at hrest
      intro c hc
      obtain rfl | hc := List.mem_cons.mp hc
      · decide
      · exact hrest c (List.mem_cons_of_mem _ hc)
  | @obj _ fs _ ih =>
    cases fs with
    | nil => simp [print, Printable]
    | cons f fs =>
      have hrest := printable_printFields ih
      rw [printFields] at hrest
      intro c hc
      obtain rfl | hc := List.mem_cons.mp hc
      · decide
      · exact hrest c (List.mem_cons_of_mem _ hc)

end Printable

/-- Compact JSON. -/
def compact : Codec where
  print v := String.ofList (print v)
  read := read
  explain _ := "not a value of this format"
  read_print := read_print
  printable h c hc := printable_print h c (by rwa [String.toList_ofList] at hc)

end CitrateCluster.JsonText
