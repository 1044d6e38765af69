import CitrateCluster.Text

namespace CitrateCluster.Seed

open Text

def seedPrefix : String := "citrate-cluster://seed?"

def seedVersion : String := "1"

def maxSeedAddrs : Nat := 8

def maxSeedLen : Nat := 2048

def maxGroupLen : Nat := 256

def maxAddrLen : Nat := 256

structure GroupSeed where
  group : String
  addrs : List String
  deriving DecidableEq, Repr

inductive SeedError where
  | notASeed
  | tooLong
  | version
  | encoding
  | group
  | addrCount
  | addr
  deriving DecidableEq, Repr

/-- The `Display` text of an error. -/
def SeedError.text : SeedError → String
  | .notASeed => "not a cluster seed"
  | .tooLong => "seed is too long"
  | .version => "unsupported seed version"
  | .encoding => "seed has a bad escape or is not UTF-8"
  | .group => "seed has a missing or malformed group id"
  | .addrCount => "seed must carry between 1 and 8 addresses"
  | .addr => "seed has a malformed peer address"

def isControl (c : Char) : Bool := c.toNat < 0x20 || (0x7F ≤ c.toNat && c.toNat < 0xA0)

def isAsciiGraphic (b : UInt8) : Bool := 0x21 ≤ b.toNat && b.toNat ≤ 0x7E

def validGroup (g : String) : Bool :=
  !(trim g).isEmpty && len g ≤ maxGroupLen && !g.toList.any isControl

/-- Two neighbours in a list with a given property, as `windows(2).any` looks for them. -/
def anyPair {α : Type} (p : α → α → Bool) : List α → Bool
  | x :: y :: rest => p x y || anyPair p (y :: rest)
  | _ => false

/-- Printable ASCII that starts with `/`, has no empty segment and names a `/p2p/` peer. -/
def validAddr (a : String) : Bool :=
  if len a > maxAddrLen || a.toList.head? != some '/' then false
  else if !(bytes a).all isAsciiGraphic then false
  else
    let parts := a.toList.tail.splitOn '/'
    if parts.any List.isEmpty then false
    else anyPair (fun w v => w == ['p', '2', 'p'] && v.all isAsciiAlphanumeric) parts

def hexDigit (n : Nat) : Char := if n < 10 then Char.ofNat (48 + n) else Char.ofNat (55 + n)

def pctEncodeByte (b : UInt8) : List Char :=
  let c := Char.ofNat b.toNat
  if isAsciiGraphic b && !(c == '%' || c == '&' || c == '=' || c == '#' || c == '+') then [c]
  else ['%', hexDigit (b.toNat / 16), hexDigit (b.toNat % 16)]

def pctEncode (s : String) : String := String.ofList ((bytes s).flatMap pctEncodeByte)

def hexValue (b : UInt8) : Option Nat :=
  let n := b.toNat
  if 0x30 ≤ n && n ≤ 0x39 then some (n - 0x30)
  else if 0x61 ≤ n && n ≤ 0x66 then some (n - 0x57)
  else if 0x41 ≤ n && n ≤ 0x46 then some (n - 0x37)
  else none

/-- `u8::from_str_radix` on two bytes, which takes a leading plus sign. A pair that is not UTF-8
holds no digits, so the `from_utf8` before it refuses nothing more. -/
def fromStrRadix16 (x y : UInt8) : Option UInt8 :=
  if x.toNat = 0x2B then (hexValue y).map UInt8.ofNat
  else do
    let hi ← hexValue x
    let lo ← hexValue y
    some (UInt8.ofNat (16 * hi + lo))

def pctDecodeBytes : List UInt8 → Except SeedError (List UInt8)
  | [] => .ok []
  | b :: rest =>
    if b.toNat = 0x25 then
      match rest with
      | x :: y :: rest =>
        match fromStrRadix16 x y with
        | some v => (pctDecodeBytes rest).map (v :: ·)
        | none => .error .encoding
      | _ => .error .encoding
    else (pctDecodeBytes rest).map (b :: ·)

def pctDecode (s : String) : Except SeedError String :=
  match pctDecodeBytes (bytes s) with
  | .error e => .error e
  | .ok out =>
    match fromUtf8 out with
    | some s => .ok s
    | none => .error .encoding

namespace GroupSeed

def validate (seed : GroupSeed) : Except SeedError Unit :=
  if !validGroup seed.group then .error .group
  else if seed.addrs.isEmpty || seed.addrs.length > maxSeedAddrs then .error .addrCount
  else if !seed.addrs.all validAddr then .error .addr
  else .ok ()

def new (group : String) (addrs : List String) : Except SeedError GroupSeed := do
  let seed : GroupSeed := ⟨group, addrs⟩
  seed.validate
  pure seed

def encode (seed : GroupSeed) : String :=
  seedPrefix ++ "v=" ++ seedVersion ++ "&g=" ++ pctEncode seed.group ++
    String.join (seed.addrs.map fun a => "&a=" ++ pctEncode a)

end GroupSeed

/-- What the loop of `decode` has read so far. -/
structure Fields where
  version : Option String
  group : Option String
  addrs : List String

/-- `split_once('=')`, with an empty value where there is no `=`. -/
def splitOnce (pair : List Char) : List Char × List Char :=
  let (k, v) := pair.span (· != '=')
  (k, v.tail)

def decodePair (acc : Fields) (pair : List Char) : Except SeedError Fields :=
  let (k, v) := splitOnce pair
  if k = ['v'] then do
    let version ← pctDecode (String.ofList v)
    pure { acc with version := some version }
  else if k = ['g'] then
    if acc.group.isSome then .error .group
    else do
      let group ← pctDecode (String.ofList v)
      pure { acc with group := some group }
  else if k = ['a'] then
    if acc.addrs.length ≥ maxSeedAddrs then .error .addrCount
    else do
      let addr ← pctDecode (String.ofList v)
      pure { acc with addrs := acc.addrs ++ [addr] }
  else .ok acc

def GroupSeed.decode (text : String) : Except SeedError GroupSeed :=
  let text := trim text
  if len text > maxSeedLen then .error .tooLong
  else
    match text.toList.dropPrefix? seedPrefix.toList with
    | none => .error .notASeed
    | some query => do
      let pairs := (query.splitOn '&').filter fun p => !p.isEmpty
      let fields ← pairs.foldlM decodePair ⟨none, none, []⟩
      if fields.version ≠ some seedVersion then .error .version
      else
        match fields.group with
        | none => .error .group
        | some group => GroupSeed.new group fields.addrs

end CitrateCluster.Seed
