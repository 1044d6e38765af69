import CitrateCluster.Ipc
import CitrateCluster.JsonText

namespace CitrateCluster.Serde

open Roster Transport Daemon Ipc JsonText

section Readers

class Serialize (α : Type) where
  serialize : α → Value

class Deserialize (α : Type) where
  deserialize : Value → Option α

export Serialize (serialize)
export Deserialize (deserialize)

variable {α β : Type}

instance : Serialize String := ⟨.str⟩

instance : Serialize Bool := ⟨.bool⟩

instance [Serialize α] : Serialize (List α) := ⟨fun l => .arr (l.map serialize)⟩

instance : Deserialize String where
  deserialize
    | .str s => some s
    | _ => none

instance : Deserialize Bool where
  deserialize
    | .bool b => some b
    | _ => none

instance [Deserialize α] : Deserialize (List α) where
  deserialize
    | .arr vs => vs.mapM deserialize
    | _ => none

instance [Deserialize α] : Deserialize (Option α) where
  deserialize
    | .null => some none
    | v => (deserialize v).map some

instance [Deserialize α] [Deserialize β] : Deserialize (α × β) where
  deserialize
    | .arr [v, w] => do some (← deserialize v, ← deserialize w)
    | _ => none

/-- A number of the given width. -/
def uint (width : Nat) : Value → Option Nat
  | .num n => if n < 2 ^ width then some n else none
  | _ => none

/-- What is left to read of a struct: its fields by name, or values in the order of its fields. -/
inductive Fields where
  | named (fs : List (String × Value))
  | listed (vs : List Value)

abbrev Reader := StateT Fields Option

@[simp] theorem pure_apply (a : α) (fs : Fields) : (pure a : Reader α) fs = some (a, fs) := rfl

@[simp] theorem bind_apply (p : Reader α) (q : α → Reader β) (fs : Fields) :
    (p >>= q) fs = (p fs).bind fun r => q r.1 r.2 := rfl

@[simp] theorem map_apply (f : α → β) (p : Reader α) (fs : Fields) :
    (f <$> p) fs = (p fs).map fun r => (f r.1, r.2) := by
  change StateT.map f p fs = _
  rw [StateT.map]
  cases p fs <;> rfl

def under (name : String) (fs : List (String × Value)) : List Value :=
  (fs.filter fun f => f.1 == name).map (·.2)

/-- A value that may be missing if there is a default, but does not occur twice. -/
def pick (read : Value → Option α) (default : Option α) : List Value → Option α
  | [] => default
  | [v] => read v
  | _ => none

def field (read : Value → Option α) (default : Option α) (name : String) : Reader α
  | .named fs => (pick read default (under name fs)).map fun a => (a, .named fs)
  | .listed [] => default.map fun a => (a, .listed [])
  | .listed (v :: vs) => (read v).map fun a => (a, .listed vs)

def required [Deserialize α] (name : String) : Reader α := field deserialize none name

def defaulted [Deserialize α] (default : α) (name : String) : Reader α :=
  field deserialize (some default) name

/-- A struct, in either of its forms and as a whole. Names that it does not know are passed over. -/
def record (p : Reader α) : Value → Option α
  | .obj fs => (p (.named fs)).map (·.1)
  | .arr vs =>
    match p (.listed vs) with
    | some (a, .listed []) => some a
    | _ => none
  | _ => none

end Readers

section Types

instance : Serialize DeviceViewWire where
  serialize d := .obj [("device", .str d.device), ("index", .num d.index), ("label", .str d.label),
    ("issuedAt", .num d.issuedAt), ("online", .bool d.online)]

def deviceViewFields : Reader DeviceViewWire := do
  let device ← required "device"
  let index ← field (uint 32) none "index"
  let label ← required "label"
  let issuedAt ← field (uint 64) none "issuedAt"
  let online ← required "online"
  return ⟨device, index, label, issuedAt, online⟩

instance : Deserialize DeviceViewWire := ⟨record deviceViewFields⟩

instance : Serialize MemberDevicesWire where
  serialize m := .obj [("member", .str m.member), ("role", .str m.role), ("online", .bool m.online),
    ("devices", serialize m.devices)]

def memberDevicesFields : Reader MemberDevicesWire := do
  let member ← required "member"
  let role ← required "role"
  let online ← required "online"
  let devices ← required "devices"
  return ⟨member, role, online, devices⟩

instance : Deserialize MemberDevicesWire := ⟨record memberDevicesFields⟩

instance : Serialize PeerView where
  serialize p := .obj ([("address", .str p.address), ("online", .bool p.online)] ++
    p.member.toList.map fun m => ("member", .str m))

def peerFields : Reader PeerView := do
  let address ← required "address"
  let online ← required "online"
  let member ← defaulted none "member"
  return ⟨address, online, member⟩

instance : Deserialize PeerView := ⟨record peerFields⟩

instance : Serialize MeshMessage where
  serialize m := .obj [("from", .str m.sender), ("data", .str m.data)]

def messageFields : Reader MeshMessage := do
  let sender ← required "from"
  let data ← required "data"
  return ⟨sender, data⟩

instance : Deserialize MeshMessage := ⟨record messageFields⟩

instance : Serialize DeviceLinkWire where
  serialize l := .obj [("member", .str l.member), ("device", .str l.device),
    ("wallet", .str l.wallet), ("index", .num l.index), ("label", .str l.label),
    ("issuedAt", .num l.issuedAt), ("memberSig", .str l.memberSig), ("deviceSig", .str l.deviceSig),
    ("walletSig", .str l.walletSig)]

def deviceLinkFields : Reader DeviceLinkWire := do
  let member ← required "member"
  let device ← required "device"
  let wallet ← required "wallet"
  let index ← field (uint 32) none "index"
  let label ← required "label"
  let issuedAt ← field (uint 64) none "issuedAt"
  let memberSig ← required "memberSig"
  let deviceSig ← required "deviceSig"
  let walletSig ← required "walletSig"
  return ⟨member, device, wallet, index, label, issuedAt, memberSig, deviceSig, walletSig⟩

instance : Deserialize DeviceLinkWire := ⟨record deviceLinkFields⟩

instance : Serialize RevocationWire where
  serialize r := .obj [("member", .str r.member), ("device", .str r.device),
    ("revokedAt", .num r.revokedAt), ("memberSig", .str r.memberSig)]

def revocationFields : Reader RevocationWire := do
  let member ← required "member"
  let device ← required "device"
  let revokedAt ← field (uint 64) none "revokedAt"
  let memberSig ← required "memberSig"
  return ⟨member, device, revokedAt, memberSig⟩

instance : Deserialize RevocationWire := ⟨record revocationFields⟩

end Types

section Messages

/-- The token of a handshake. -/
structure Auth where
  token : String

def authFields : Reader Auth := do
  let token ← required "token"
  return ⟨token⟩

instance : Deserialize Auth := ⟨record authFields⟩

/-- A request, by its tag. -/
def requestFields : String → Reader Request
  | "setRoster" => do
    let group ← required "group"
    let roster ← required "roster"
    let devices ← defaulted [] "devices"
    let revocations ← defaulted [] "revocations"
    return .setRoster group roster devices revocations
  | "devices" => .devices <$> required "group"
  | "join" => .join <$> required "group"
  | "leave" => .leave <$> required "group"
  | "status" => .status <$> required "group"
  | "peers" => .peers <$> required "group"
  | "shareFile" => do
    let group ← required "group"
    let cid ← required "cid"
    return .shareFile group cid
  | "poll" => .poll <$> required "group"
  | "sharedFiles" => do
    let group ← required "group"
    let offset ← field (uint 64) (some 0) "offset"
    let limit ← field optionalLimit (some none) "limit"
    return .sharedFiles group offset limit
  | "seed" => .seed <$> required "group"
  | "addSeed" => do
    let group ← required "group"
    let seed ← required "seed"
    return .addSeed group seed
  | _ => fun _ => none
where
  optionalLimit : Value → Option (Option Nat)
    | .null => some none
    | v => (uint 64 v).map some

instance : Deserialize Request := ⟨record (required "op" >>= requestFields)⟩

/-- An object of a tagged variant. -/
def tagged (tag : String) (fs : List (String × Value)) : Value := .obj (("type", .str tag) :: fs)

instance : Serialize Response where
  serialize
    | .ok => tagged "ok" []
    | .reconciled evicted rejected => tagged "reconciled" (("evicted", serialize evicted) ::
        if rejected.isEmpty then [] else [("rejected", serialize rejected)])
    | .devices members => tagged "devices" [("members", serialize members)]
    | .status online total sharedFiles => tagged "status" [("online", .num online),
        ("total", .num total), ("sharedFiles", serialize sharedFiles)]
    | .peers peers => tagged "peers" [("peers", serialize peers)]
    | .messages messages => tagged "messages" [("messages", serialize messages)]
    | .sharedFiles files offset total => tagged "sharedFiles" [("files", serialize files),
        ("offset", .num offset), ("total", .num total)]
    | .seed seed addrs => tagged "seed" [("seed", .str seed), ("addrs", serialize addrs)]
    | .seeded dialing => tagged "seeded" [("dialing", .num dialing)]
    | .error message => tagged "error" [("message", .str message)]

/-- A response, by its tag. -/
def responseFields : String → Reader Response
  | "ok" => return .ok
  | "reconciled" => do
    let evicted ← required "evicted"
    let rejected ← defaulted [] "rejected"
    return .reconciled evicted rejected
  | "devices" => .devices <$> required "members"
  | "status" => do
    let online ← field (uint 64) none "online"
    let total ← field (uint 64) none "total"
    let sharedFiles ← required "sharedFiles"
    return .status online total sharedFiles
  | "peers" => .peers <$> required "peers"
  | "messages" => .messages <$> required "messages"
  | "sharedFiles" => do
    let files ← required "files"
    let offset ← field (uint 64) none "offset"
    let total ← field (uint 64) none "total"
    return .sharedFiles files offset total
  | "seed" => do
    let seed ← required "seed"
    let addrs ← required "addrs"
    return .seed seed addrs
  | "seeded" => .seeded <$> field (uint 64) none "dialing"
  | "error" => .error <$> required "message"
  | _ => fun _ => none

instance : Deserialize Response := ⟨record (required "type" >>= responseFields)⟩

end Messages

end CitrateCluster.Serde
