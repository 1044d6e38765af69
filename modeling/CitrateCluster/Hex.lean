import Mathlib.Algebra.Group.Nat.Defs
import Mathlib.Data.Char
import Mathlib.Data.List.Basic

namespace CitrateCluster.Hex

def digit (n : Nat) : Char := if n < 10 then Char.ofNat (48 + n) else Char.ofNat (87 + n)

/-- Both cases of a digit are read. -/
def value (c : Char) : Option Nat :=
  let n := c.toNat
  if 0x30 ≤ n && n ≤ 0x39 then some (n - 0x30)
  else if 0x61 ≤ n && n ≤ 0x66 then some (n - 0x57)
  else if 0x41 ≤ n && n ≤ 0x46 then some (n - 0x37)
  else none

/-- Two lowercase digits for each byte. -/
def encode (bs : List UInt8) : List Char :=
  bs.flatMap fun b => [digit (b.toNat / 16), digit (b.toNat % 16)]

/-- Pairs of digits and nothing else. -/
def decode : List Char → Option (List UInt8)
  | [] => some []
  | [_] => none
  | x :: y :: rest => do
    let hi ← value x
    let lo ← value y
    let bs ← decode rest
    some (UInt8.ofNat (16 * hi + lo) :: bs)

/-- The number that some bytes spell, the most significant first. -/
def fromBytes (bs : List UInt8) : Nat := bs.foldl (fun n b => 256 * n + b.toNat) 0

/-- The last `k` bytes of a number, the most significant first. -/
def toBytes : Nat → Nat → List UInt8
  | 0, _ => []
  | k + 1, n => toBytes k (n / 256) ++ [UInt8.ofNat (n % 256)]

theorem forall_digit {P : Nat → Prop} (h : ∀ n < 16, P n) (b : UInt8) :
    P (b.toNat / 16) ∧ P (b.toNat % 16) := by
  have hb : b.toNat < 256 := b.toNat_lt
  exact ⟨h _ (by omega), h _ (by omega)⟩

theorem value_digit : ∀ n < 16, value (digit n) = some n := by decide

theorem digit_lower : ∀ n < 16, (0x30 ≤ (digit n).toNat ∧ (digit n).toNat ≤ 0x39) ∨
    (0x61 ≤ (digit n).toNat ∧ (digit n).toNat ≤ 0x66) := by decide

theorem decode_encode (bs : List UInt8) : decode (encode bs) = some bs := by
  induction bs with
  | nil => rfl
  | cons b bs ih =>
    obtain ⟨hhi, hlo⟩ := forall_digit value_digit b
    have hb : UInt8.ofNat (16 * (b.toNat / 16) + b.toNat % 16) = b := by
      rw [Nat.div_add_mod, UInt8.ofNat_toNat]
    rw [encode] at ih
    simp only [encode, List.flatMap_cons, List.cons_append, List.nil_append, decode, hhi, hlo, ih,
      Option.bind_eq_bind, Option.bind_some, hb]

theorem length_encode (bs : List UInt8) : (encode bs).length = 2 * bs.length := by
  induction bs with
  | nil => rfl
  | cons b bs ih =>
    rw [encode] at ih
    rw [encode, List.flatMap_cons, List.length_append, ih, List.length_cons]
    simp only [List.length_cons, List.length_nil]
    omega

theorem lower_of_mem_encode {bs : List UInt8} {c : Char} (hc : c ∈ encode bs) :
    (0x30 ≤ c.toNat ∧ c.toNat ≤ 0x39) ∨ (0x61 ≤ c.toNat ∧ c.toNat ≤ 0x66) := by
  obtain ⟨b, _, hc⟩ := List.mem_flatMap.mp hc
  obtain ⟨hhi, hlo⟩ := forall_digit digit_lower b
  rw [List.mem_cons, List.mem_singleton] at hc
  obtain rfl | rfl := hc
  · exact hhi
  · exact hlo

theorem length_toBytes (k n : Nat) : (toBytes k n).length = k := by
  induction k generalizing n with
  | zero => rfl
  | succ k ih => rw [toBytes, List.length_append, ih, List.length_singleton]

theorem fromBytes_toBytes {k n : Nat} (h : n < 256 ^ k) : fromBytes (toBytes k n) = n := by
  induction k generalizing n with
  | zero =>
    rw [Nat.pow_zero] at h
    rw [toBytes, fromBytes, List.foldl_nil]
    omega
  | succ k ih =>
    have hdiv : n / 256 < 256 ^ k := by
      apply Nat.div_lt_of_lt_mul
      rwa [Nat.pow_succ, Nat.mul_comm] at h
    have hmod : (UInt8.ofNat (n % 256)).toNat = n % 256 := by
      rw [UInt8.toNat_ofNat']
      omega
    have hhead := ih hdiv
    rw [fromBytes] at hhead
    rw [toBytes, fromBytes, List.foldl_append, hhead, List.foldl_cons, List.foldl_nil, hmod]
    omega

end CitrateCluster.Hex
