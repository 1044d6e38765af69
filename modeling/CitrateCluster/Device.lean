import CitrateCluster.Roster
import Mathlib.Data.Prod.Lex

namespace CitrateCluster.Device

open Std (ExtTreeMap ExtTreeSet)
open Text Roster Collections

def deviceLinkVersion : Nat := 1

def maxLabelLen : Nat := 48

def maxLinksPerUpdate : Nat := 64

def maxDeviceIndex : Nat := 1023

/-- Which device key belongs to which member. The index is a `u32` and the time of issue a
`u64` in the source; neither takes part in arithmetic. -/
@[ext]
structure DeviceLink where
  member : String
  device : String
  wallet : String
  index : Nat
  label : String
  issuedAt : Nat
  deriving DecidableEq, Repr

def labelIsValid (label : String) : Bool :=
  !label.isEmpty && len label ≤ maxLabelLen && trim label == label &&
    label.toList.all fun c =>
      isAsciiAlphanumeric c || c == ' ' || c == '.' || c == '_' || c == '-' || c == '\''

namespace DeviceLink

def new (member device wallet : String) (index : Nat) (label : String) (issuedAt : Nat) :
    Option DeviceLink := do
  let member ← canonicalAddress member
  let device ← canonicalAddress device
  let wallet ← canonicalAddress wallet
  if device = member ∨ device = wallet then none
  else if index > maxDeviceIndex ∨ labelIsValid label = false then none
  else some ⟨member, device, wallet, index, label, issuedAt⟩

/-- What the constructor checks. -/
structure Valid (l : DeviceLink) : Prop where
  member : Canonical l.member
  device : Canonical l.device
  wallet : Canonical l.wallet
  device_ne_member : l.device ≠ l.member
  device_ne_wallet : l.device ≠ l.wallet
  index : l.index ≤ maxDeviceIndex
  label : labelIsValid l.label = true

theorem valid_of_new {member device wallet label : String} {index issuedAt : Nat} {l : DeviceLink}
    (h : new member device wallet index label issuedAt = some l) : l.Valid := by
  simp only [new, Option.bind_eq_bind, Option.bind_eq_some_iff, Option.ite_none_left_eq_some,
    not_or, Option.some.injEq, Bool.not_eq_false] at h
  obtain ⟨m, hm, d, hd, w, hw, ⟨hdm, hdw⟩, ⟨hi, hl⟩, rfl⟩ := h
  exact ⟨canonical_of_canonicalAddress hm, canonical_of_canonicalAddress hd,
    canonical_of_canonicalAddress hw, hdm, hdw, not_lt.mp hi, hl⟩

theorem Valid.new {l : DeviceLink} (h : l.Valid) :
    new l.member l.device l.wallet l.index l.label l.issuedAt = some l := by
  simp [DeviceLink.new, h.member.canonicalAddress, h.device.canonicalAddress,
    h.wallet.canonicalAddress, h.device_ne_member, h.device_ne_wallet, h.index, h.label]

/-- The exact text that every signer of a link signs. -/
def signingMessage (l : DeviceLink) : String :=
  "Citrate DeviceLink v" ++ toString deviceLinkVersion ++
    "\nLink this device to my Citrate member identity." ++
    "\nmember: 0x" ++ l.member ++ "\ndevice: 0x" ++ l.device ++ "\nwallet: 0x" ++ l.wallet ++
    "\nindex: " ++ toString l.index ++ "\nlabel: " ++ l.label ++
    "\nissued_at: " ++ toString l.issuedAt

end DeviceLink

structure SignedDeviceLink where
  link : DeviceLink
  memberSig : String
  deviceSig : String
  walletSig : String
  deriving DecidableEq, Repr

structure DeviceRevocation where
  member : String
  device : String
  revokedAt : Nat
  deriving DecidableEq, Repr

namespace DeviceRevocation

def new (member device : String) (revokedAt : Nat) : Option DeviceRevocation := do
  let member ← canonicalAddress member
  let device ← canonicalAddress device
  some ⟨member, device, revokedAt⟩

def signingMessage (r : DeviceRevocation) : String :=
  "Citrate DeviceRevocation v" ++ toString deviceLinkVersion ++
    "\nRemove this device from my Citrate member identity." ++
    "\nmember: 0x" ++ r.member ++ "\ndevice: 0x" ++ r.device ++
    "\nrevoked_at: " ++ toString r.revokedAt

end DeviceRevocation

structure SignedRevocation where
  revocation : DeviceRevocation
  memberSig : String
  deriving DecidableEq, Repr

/-- Recovers the signer of a signature over a message; `cluster-daemon` injects secp256k1. -/
structure LinkVerifier where
  recover : String → String → Option String

inductive LinkRejection where
  | malformed (device : String)
  | badSignature (device which : String)
  | conflict (device : String)
  | revoked (device : String)
  | badRevocation (device : String)
  | tooMany
  deriving DecidableEq, Repr

/-- The constructor validation that a received body has to pass again. -/
def SignedDeviceLink.canon (signed : SignedDeviceLink) : Option DeviceLink :=
  DeviceLink.new signed.link.member signed.link.device signed.link.wallet signed.link.index
    signed.link.label signed.link.issuedAt

@[irreducible] def verifyLink (signed : SignedDeviceLink) (verifier : LinkVerifier) :
    Except LinkRejection Unit :=
  match signed.canon with
  | none => .error (.malformed signed.link.device)
  | some canon =>
    let msg := canon.signingMessage
    [("member", signed.memberSig, canon.member), ("device", signed.deviceSig, canon.device),
      ("wallet", signed.walletSig, canon.wallet)].forM fun (which, sig, want) =>
        if verifier.recover msg sig ≠ some want then
          .error (.badSignature canon.device which)
        else .ok ()

instance transCmp_pairs : Std.TransCmp (lexCmp : String × String → String × String → Ordering) :=
  inferInstance

/-- The verified links of one group and its revocations, as `(member, device)` pairs. -/
@[ext]
structure DeviceRegistry where
  links : ExtTreeMap String DeviceLink
  revoked : ExtTreeSet (String × String) lexCmp
  deriving Inhabited

namespace DeviceRegistry

def new : DeviceRegistry := ⟨∅, ∅⟩

/-- One round of the first loop of `update`: record a revocation that verifies. -/
def recordRevocation (verifier : LinkVerifier)
    (acc : ExtTreeSet (String × String) lexCmp × List LinkRejection) (r : SignedRevocation) :
    ExtTreeSet (String × String) lexCmp × List LinkRejection :=
  match DeviceRevocation.new r.revocation.member r.revocation.device r.revocation.revokedAt with
  | none => (acc.1, acc.2 ++ [.badRevocation r.revocation.device])
  | some rev =>
    if verifier.recover rev.signingMessage r.memberSig = some rev.member then
      (acc.1.insert (rev.member, rev.device), acc.2)
    else (acc.1, acc.2 ++ [.badRevocation rev.device])

/-- One round of the second loop: keep a verified link under its device. -/
def collectLink (verifier : LinkVerifier)
    (acc : ExtTreeMap String (List DeviceLink) × List LinkRejection) (s : SignedDeviceLink) :
    ExtTreeMap String (List DeviceLink) × List LinkRejection :=
  match verifyLink s verifier with
  | .ok () =>
    match s.canon with
    | some c => (acc.1.insert c.device (acc.1[c.device]?.getD [] ++ [c]), acc.2)
    | none => acc
  | .error e => (acc.1, acc.2 ++ [e])

/-- The sort key of re-issued links: the newest wins, ties by label. -/
def issueKey (l : DeviceLink) : Nat ×ₗ String := toLex (l.issuedAt, l.label)

/-- One round of the third loop: refuse a contested device, take the newest link of any other,
and drop it if its member has revoked it. -/
def resolveDevice (revoked : ExtTreeSet (String × String) lexCmp)
    (acc : ExtTreeMap String DeviceLink × List LinkRejection) (entry : String × List DeviceLink) :
    ExtTreeMap String DeviceLink × List LinkRejection :=
  let (device, ls) := entry
  let members := ExtTreeSet.ofList (ls.map (·.member))
  if members.size > 1 then (acc.1, acc.2 ++ [.conflict device])
  else
    match latest issueKey ls with
    | none => acc
    | some newest =>
      if revoked.contains (newest.member, newest.device) then
        (acc.1, acc.2 ++ [.revoked device])
      else (acc.1.insert device newest, acc.2)

def update (reg : DeviceRegistry) (links : List SignedDeviceLink)
    (revocations : List SignedRevocation) (verifier : LinkVerifier) :
    List LinkRejection × DeviceRegistry :=
  if links.length > maxLinksPerUpdate ∨ revocations.length > maxLinksPerUpdate then
    ([.tooMany], reg)
  else
    let (revoked, rejected) := revocations.foldl (recordRevocation verifier) (reg.revoked, [])
    let (verified, rejected) := links.foldl (collectLink verifier) (∅, rejected)
    let (candidates, rejected) := verified.toList.foldl (resolveDevice revoked) (∅, rejected)
    (rejected, ⟨candidates, revoked⟩)

def memberOf (reg : DeviceRegistry) (device : String) : Option String := do
  let d ← canonicalAddress device
  let l ← reg.links[d]?
  some l.member

/-- All active links, sorted by device (`links()` in the source). -/
def listLinks (reg : DeviceRegistry) : List DeviceLink := reg.links.toList.map (·.2)

def devicesOf (reg : DeviceRegistry) (member : String) : List DeviceLink :=
  match canonicalAddress member with
  | none => []
  | some m => (reg.listLinks.filter (·.member == m)).insertionSort fun a b => a.index ≤ b.index

def revocations (reg : DeviceRegistry) : List (String × String) := reg.revoked.toList

end DeviceRegistry

structure DeviceView where
  device : String
  index : Nat
  label : String
  issuedAt : Nat
  deriving DecidableEq, Repr

/-- A roster entry with the devices of the member under it. -/
structure MemberDevices where
  member : String
  role : String
  devices : List DeviceView
  deriving DecidableEq, Repr

/-- One round of the first loop of `device_roster`: the highest role wins, ties to the first. -/
def listMember (out : ExtTreeMap String MemberDevices) (entry : String × String) :
    ExtTreeMap String MemberDevices :=
  let (addr, role) := entry
  match canonicalAddress addr with
  | none => out
  | some a =>
    if roleRank role < minClusterRank then out
    else
      let listed := out[a]?.getD ⟨a, role, []⟩
      out.insert a (if roleRank role > roleRank listed.role then { listed with role } else listed)

def deviceRoster (roster : Entries) (registry : DeviceRegistry) : List MemberDevices :=
  (roster.foldl listMember ∅).toList.map fun (_, m) =>
    { m with devices := (registry.devicesOf m.member).map fun l =>
        ⟨l.device, l.index, l.label, l.issuedAt⟩ }

end CitrateCluster.Device
