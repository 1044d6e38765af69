import CitrateCluster.Text
import CitrateCluster.Collections

namespace CitrateCluster.Roster

open Std (ExtTreeSet)
open Text Collections

/-- A `BTreeSet<String>` of addresses. -/
abbrev AddressSet := ExtTreeSet String

/-- A group roster, `(address, role)` entries as the client sends them. -/
abbrev Entries := List (String × String)

def minClusterRank : Nat := 2

def roleRank (role : String) : Nat :=
  match role with
  | "owner" => 5
  | "admin" => 4
  | "partner" => 3
  | "member" => 2
  | "agent" => 1
  | "guest" => 0
  | _ => 0

/-- Lowercase, no `0x`, exactly 40 hex digits; `none` for anything else. The source tests the
bytes for hex digits, which on a 40 byte text is the same as testing the characters. -/
@[irreducible] def canonicalAddress (raw : String) : Option String :=
  let h := String.ofList ((trimStart0x (trim raw).toList).map toAsciiLowercase)
  if len h == 40 && h.toList.all isAsciiHexdigit then some h else none

def maxCidLen : Nat := 128

def b58 : String := "123456789ABCDEFGHJKLMNPQRSTUVWXYZabcdefghijkmnopqrstuvwxyz"

/-- A CIDv0 (`Qm` and 44 base58btc characters) or a base32 CIDv1. -/
def isValidCid (s : String) : Bool :=
  let b := s.toList
  if len s == 46 && b.take 2 == ['Q', 'm'] then (b.drop 2).all b58.toList.contains
  else if len s < 8 || len s > maxCidLen || b.head? != some 'b' then false
  else
    let body := b.drop 1
    body.all (fun c => inRange 'a' 'z' c || inRange '2' '7' c) && body[0]? == some 'a' &&
      body[1]?.any (inRange 'e' 'h')

/-- The addresses of a roster that are listed as Member or above. -/
def allowedSet (roster : Entries) : AddressSet :=
  roster.foldl (fun set (addr, role) =>
    if roleRank role ≥ minClusterRank then
      match canonicalAddress addr with
      | some a => set.insert a
      | none => set
    else set) ∅

def admits (address : String) (allowed : AddressSet) : Bool :=
  ((canonicalAddress address).map allowed.contains).getD false

/-- The form every address of a peer set has: 40 lowercase hex digits. -/
def Canonical (a : String) : Prop :=
  a.toList.length = 40 ∧ ∀ c ∈ a.toList, inRange '0' '9' c ∨ inRange 'a' 'f' c

theorem Canonical.canonicalAddress {a : String} (h : Canonical a) :
    canonicalAddress a = some a := by
  have hc : ∀ c ∈ a.toList, (0x30 ≤ c.toNat ∧ c.toNat ≤ 0x39) ∨
      (0x61 ≤ c.toNat ∧ c.toNat ≤ 0x66) := by
    intro c hm
    simpa [inRange_iff] using h.2 c hm
  have ht : trim a = a := trim_of_forall_not fun c hm => by
    have := hc c hm
    simp [isWhitespace]
    omega
  have h0 : trimStart0x a.toList = a.toList := trimStart0x_of_forall_ne fun c hm he => by
    have := hc c hm
    simp [he] at this
  have hl : a.toList.map toAsciiLowercase = a.toList := by
    refine (List.map_congr_left fun c hm => ?_).trans (List.map_id _)
    have := hc c hm
    rw [toAsciiLowercase, if_neg, id_eq]
    simp [inRange_iff]
    omega
  have hlen : len a = 40 := by
    rw [len_of_ascii a fun c hm => by have := hc c hm; omega, h.1]
  have hx : a.toList.all isAsciiHexdigit = true := by
    rw [List.all_eq_true]
    intro c hm
    have := hc c hm
    simp [isAsciiHexdigit, inRange_iff]
    omega
  simp only [Roster.canonicalAddress, ht, h0, hl, String.ofList_toList, hlen, hx]
  rfl

theorem canonical_of_canonicalAddress {raw a : String} (h : canonicalAddress raw = some a) :
    Canonical a := by
  obtain ⟨cs, hcs⟩ : ∃ cs : List Char, cs = (trimStart0x (trim raw).toList).map toAsciiLowercase :=
    ⟨_, rfl⟩
  simp only [canonicalAddress, ← hcs, Option.ite_none_right_eq_some, Bool.and_eq_true, beq_iff_eq,
    List.all_eq_true, Option.some.injEq] at h
  obtain ⟨⟨hlen, hall⟩, rfl⟩ := h
  have hlow : ∀ c ∈ (String.ofList cs).toList, inRange '0' '9' c ∨ inRange 'a' 'f' c := by
    intro c hm
    have hx := hall c hm
    rw [String.toList_ofList, hcs] at hm
    obtain ⟨c', _, rfl⟩ := List.mem_map.mp hm
    have hup := toAsciiLowercase_not_upper c'
    simp only [isAsciiHexdigit, Bool.or_eq_true, inRange, Bool.and_eq_true,
      Bool.and_eq_false_iff, decide_eq_true_eq, decide_eq_false_iff_not] at hx hup ⊢
    have : 'F'.toNat ≤ 'Z'.toNat := by decide
    omega
  refine ⟨?_, hlow⟩
  rw [← hlen, len_of_ascii]
  intro c hm
  have := hlow c hm
  simp [inRange_iff] at this
  omega

theorem mem_allowedSet {roster : Entries} {a : String} :
    a ∈ allowedSet roster ↔
      ∃ e ∈ roster, minClusterRank ≤ roleRank e.2 ∧ canonicalAddress e.1 = some a := by
  rw [allowedSet, foldl_iff (fun set : AddressSet => a ∈ set)
    (fun e => minClusterRank ≤ roleRank e.2 ∧ canonicalAddress e.1 = some a)]
  · simp
  · rintro set ⟨addr, role⟩
    by_cases hr : roleRank role ≥ minClusterRank
    · cases hc : canonicalAddress addr with
      | none => simp [hr, hc]
      | some b => simp [hr, hc, or_comm]
    · simp [hr]

theorem canonical_of_mem_allowedSet {roster : Entries} {a : String} (h : a ∈ allowedSet roster) :
    Canonical a := by
  obtain ⟨e, _, _, hc⟩ := mem_allowedSet.mp h
  exact canonical_of_canonicalAddress hc

section Samples

/-- A canonical address that ends in a given digit pair. -/
def address (kind number : Char) : String := String.ofList (List.replicate 38 '0' ++ [kind, number])

theorem canonical_address {kind number : Char} (hk : inRange 'a' 'f' kind = true)
    (hn : inRange '0' '9' number = true) : Canonical (address kind number) := by
  refine ⟨by simp [address], fun c hc => ?_⟩
  simp only [address, String.toList_ofList, List.mem_append, List.mem_replicate, List.mem_cons,
    List.not_mem_nil, or_false] at hc
  rcases hc with ⟨_, rfl⟩ | rfl | rfl
  · exact .inl (by decide)
  · exact .inr hk
  · exact .inl hn

theorem address_inj {k n k' n' : Char} : address k n = address k' n' ↔ k = k' ∧ n = n' := by
  simp [address]

def m1 : String := address 'a' '1'
def m2 : String := address 'a' '2'
def d1 : String := address 'd' '1'
def d2 : String := address 'd' '2'

/-- A well-formed CID that ends in a given character. -/
def cidOf (last : Char) : String := String.ofList ('Q' :: 'm' :: List.replicate 43 '1' ++ [last])

end Samples

end CitrateCluster.Roster
