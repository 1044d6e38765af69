import CitrateCluster.Admission
import CitrateCluster.Hex
import CitrateCluster.UpdateSpec

namespace CitrateCluster.Eip191

open Text Roster Collections Device DeviceRegistry Registry Transport Session Daemon ClusterDaemon
  Ipc DaemonStep UpdateSpec Admission

/-- What `k256` and `sha3` compute: the hash, the recovery of a key from a signature over a digest,
and the uncompressed point of a key. -/
structure Secp256k1 (Key : Type) where
  keccak256 : List UInt8 → Vector UInt8 32
  recoverFromPrehash : Vector UInt8 32 → Nat → Nat → Nat → Option Key
  toEncodedPoint : Key → Vector UInt8 65

/-- The order of the group. -/
def order : Nat := 0xFFFFFFFFFFFFFFFFFFFFFFFFFFFFFFFEBAAEDCE6AF48A03BBFD25E8CD0364141

variable {Key : Type} (C : Secp256k1 Key)

def eip191Digest (message : List UInt8) : Vector UInt8 32 :=
  C.keccak256 (bytes ("\x19Ethereum Signed Message:\n" ++ toString message.length) ++ message)

def addressOf (key : Key) : String :=
  String.ofList (Hex.encode ((C.keccak256 ((C.toEncodedPoint key).toList.drop 1)).toList.drop 12))

/-- Two numbers of 32 bytes, neither zero nor beyond the order. -/
def fromSlice (raw : List UInt8) : Option (Nat × Nat) :=
  let r := Hex.fromBytes (raw.take 32)
  let s := Hex.fromBytes (raw.drop 32)
  if 0 < r ∧ r < order ∧ 0 < s ∧ s < order then some (r, s) else none

def isHigh (s : Nat) : Bool := order / 2 < s

/-- The last byte of a signature, in either convention. -/
def recoveryByte (b : UInt8) : Option Nat :=
  if b = 0 ∨ b = 27 then some 0 else if b = 1 ∨ b = 28 then some 1 else none

/-- The signer of a message, from the text of a signature. High-s signatures are refused. -/
def recover (message sigHex : String) : Option String := do
  let raw ← Hex.decode (trimStart0x (trim sigHex).toList)
  if raw.length ≠ 65 then none
  else
    let (r, s) ← fromSlice (raw.take 64)
    if isHigh s then none
    else
      let v ← recoveryByte (raw.getD 64 0)
      let key ← C.recoverFromPrehash (eip191Digest C (bytes message)) r s v
      some (addressOf C key)

def eip191Verifier : LinkVerifier := ⟨recover C⟩

/-- The signature that a text spells: two numbers, the second in the lower half, and a bit. -/
def readSignature (sigHex : String) : Option (Nat × Nat × Nat) := do
  let raw ← Hex.decode (trimStart0x (trim sigHex).toList)
  if raw.length ≠ 65 then none
  else
    let (r, s) ← fromSlice (raw.take 64)
    if isHigh s then none
    else
      let v ← recoveryByte (raw.getD 64 0)
      some (r, s, v)

variable {C} {message sig sig' : String} {r s v : Nat}

/-- The verifier sees a text only as the signature that it spells. -/
theorem recover_eq (message sig : String) : recover C message sig =
    (readSignature sig).bind fun rsv =>
      (C.recoverFromPrehash (eip191Digest C (bytes message)) rsv.1 rsv.2.1 rsv.2.2).map
        (addressOf C) := by
  simp only [recover, readSignature, Option.bind_eq_bind]
  cases Hex.decode (trimStart0x (trim sig).toList) with
  | none => rfl
  | some raw =>
    simp only [Option.bind_some]
    split
    · rfl
    · cases fromSlice (raw.take 64) with
      | none => rfl
      | some rs =>
        simp only [Option.bind_some]
        split
        · rfl
        · cases recoveryByte (raw.getD 64 0) with
          | none => rfl
          | some v =>
            simp only [Option.bind_some]
            cases C.recoverFromPrehash (eip191Digest C (bytes message)) rs.1 rs.2 v <;> rfl

theorem fromSlice_eq_some_iff {raw : List UInt8} : fromSlice raw = some (r, s) ↔
    Hex.fromBytes (raw.take 32) = r ∧ Hex.fromBytes (raw.drop 32) = s ∧
      0 < r ∧ r < order ∧ 0 < s ∧ s < order := by
  simp only [fromSlice, Option.ite_none_right_eq_some, Option.some.injEq, Prod.mk.injEq]
  constructor
  · rintro ⟨h, rfl, rfl⟩
    exact ⟨rfl, rfl, h⟩
  · rintro ⟨rfl, rfl, h⟩
    exact ⟨h, rfl, rfl⟩

/-- What the text of a signature has to be. -/
theorem readSignature_eq_some_iff : readSignature sig = some (r, s, v) ↔
    ∃ raw, Hex.decode (trimStart0x (trim sig).toList) = some raw ∧ raw.length = 65 ∧
      fromSlice (raw.take 64) = some (r, s) ∧ s ≤ order / 2 ∧
      recoveryByte (raw.getD 64 0) = some v := by
  simp only [readSignature, Option.bind_eq_bind, Option.bind_eq_some_iff,
    Option.ite_none_left_eq_some, not_not, isHigh, decide_eq_true_eq, not_lt, Option.some.injEq,
    Prod.mk.injEq]
  constructor
  · rintro ⟨raw, hraw, hlen, ⟨r', s'⟩, hslice, hlow, v', hv, rfl, rfl, rfl⟩
    exact ⟨raw, hraw, hlen, hslice, hlow, hv⟩
  · rintro ⟨raw, hraw, hlen, hslice, hlow, hv⟩
    exact ⟨raw, hraw, hlen, (r, s), hslice, hlow, v, hv, rfl, rfl, rfl⟩

theorem canonical_addressOf (key : Key) : Canonical (addressOf C key) := by
  refine ⟨?_, fun c hc => ?_⟩
  · simp [addressOf, Hex.length_encode]
  · rw [addressOf, String.toList_ofList] at hc
    have hrange := Hex.lower_of_mem_encode hc
    simpa [inRange_iff] using hrange

/-- A signature as a wallet writes it. -/
def spell (r s v : Nat) : String :=
  String.ofList ('0' :: 'x' ::
    Hex.encode (Hex.toBytes 32 r ++ Hex.toBytes 32 s ++ [UInt8.ofNat (27 + v)]))

theorem trimStart0x_spell (bs : List UInt8) :
    trimStart0x (trim (String.ofList ('0' :: 'x' :: Hex.encode bs))).toList = Hex.encode bs := by
  have hdigit : ∀ c ∈ Hex.encode bs, c ≠ 'x' ∧ isWhitespace c = false := by
    intro c hc
    have hrange := Hex.lower_of_mem_encode hc
    refine ⟨?_, ?_⟩
    · rintro rfl
      simp at hrange
    · simp [isWhitespace]
      omega
  have htrim : trim (String.ofList ('0' :: 'x' :: Hex.encode bs)) =
      String.ofList ('0' :: 'x' :: Hex.encode bs) := by
    apply trim_of_forall_not
    rw [String.toList_ofList]
    intro c hc
    obtain rfl | hc := List.mem_cons.mp hc
    · rfl
    · obtain rfl | hc := List.mem_cons.mp hc
      · rfl
      · exact (hdigit c hc).2
  rw [htrim, String.toList_ofList, trimStart0x]
  exact trimStart0x_of_forall_ne fun c hc => (hdigit c hc).1

/-- A signature in the lower half reads back. -/
theorem readSignature_spell (hr : 0 < r) (hr' : r < order) (hs : 0 < s) (hs' : s ≤ order / 2)
    (hv : v = 0 ∨ v = 1) : readSignature (spell r s v) = some (r, s, v) := by
  have horder : order < 256 ^ 32 := by decide
  have hlen : (Hex.toBytes 32 r ++ Hex.toBytes 32 s).length = 64 := by
    rw [List.length_append, Hex.length_toBytes, Hex.length_toBytes]
  have hdecode : Hex.decode (trimStart0x (trim (spell r s v)).toList) =
      some (Hex.toBytes 32 r ++ Hex.toBytes 32 s ++ [UInt8.ofNat (27 + v)]) := by
    rw [spell, trimStart0x_spell, Hex.decode_encode]
  refine readSignature_eq_some_iff.mpr
    ⟨_, hdecode, ?_, fromSlice_eq_some_iff.mpr ?_, hs', ?_⟩
  · rw [List.length_append, hlen, List.length_singleton]
  · rw [List.take_left' hlen, List.take_left' (Hex.length_toBytes 32 r),
      List.drop_left' (Hex.length_toBytes 32 r), Hex.fromBytes_toBytes (hr'.trans horder),
      Hex.fromBytes_toBytes]
    · exact ⟨rfl, rfl, hr, hr', hs, by omega⟩
    · omega
  · rw [List.getD_eq_getElem?_getD, List.getElem?_append_right hlen.le, hlen]
    obtain rfl | rfl := hv <;> rfl

/-- An accepted signature is a pair of numbers in range, the second in the lower half, and a bit,
and every text of it is accepted alike. Its twin, which the curve would accept as well, is the
signature of no text. -/
theorem accepted_signature_has_one_form {a : String} (h : recover C message sig = some a) :
    Canonical a ∧ ∃ r s v, readSignature sig = some (r, s, v) ∧ 0 < r ∧ r < order ∧ 0 < s ∧
      s ≤ order / 2 ∧ (v = 0 ∨ v = 1) ∧ recover C message (spell r s v) = some a ∧
      (∀ sig', readSignature sig' = some (r, s, v) → recover C message sig' = some a) ∧
      ∀ sig' r' v', readSignature sig' ≠ some (r', order - s, v') := by
  rw [recover_eq] at h
  obtain ⟨⟨r, s, v⟩, hread, hkey⟩ := Option.bind_eq_some_iff.mp h
  obtain ⟨raw, _, _, hslice, hlow, hv⟩ := readSignature_eq_some_iff.mp hread
  obtain ⟨_, _, hr, hr', hs, hs'⟩ := fromSlice_eq_some_iff.mp hslice
  have hbit : v = 0 ∨ v = 1 := by
    rw [recoveryByte] at hv
    split at hv
    · exact .inl (Option.some.inj hv).symm
    · simp only [Option.ite_none_right_eq_some, Option.some.injEq] at hv
      exact .inr hv.2.symm
  have hall : ∀ sig', readSignature sig' = some (r, s, v) → recover C message sig' = some a := by
    intro sig' hsig'
    rw [recover_eq, hsig']
    exact hkey
  refine ⟨?_, r, s, v, hread, hr, hr', hs, hlow, hbit,
    hall _ (readSignature_spell hr hr' hs hlow hbit), hall, fun sig' r' v' hsig' => ?_⟩
  · obtain ⟨key, _, rfl⟩ := Option.map_eq_some_iff.mp hkey
    exact canonical_addressOf key
  · obtain ⟨_, _, _, _, hlow', _⟩ := readSignature_eq_some_iff.mp hsig'
    rw [order] at hlow hlow'
    omega

/-- A 32 byte number as a hash value. -/
def hashValue (n : Nat) : Vector UInt8 32 :=
  ⟨(Hex.toBytes 32 n).toArray, by rw [List.size_toArray, Hex.length_toBytes]⟩

/-- A key of the sample curve: the coordinates of its point and the hash of them. -/
structure SampleKey where
  x : Nat
  y : Nat
  hash : Nat

/-- The keys of a member, of its device and of its wallet, and the key to which the member's
signature of a link leads over a revocation. -/
def sampleKeys : Fin 4 → SampleKey
  | 0 =>
    { x := 0x4e3b81af9c2234cad09d679ce6035ed1392347ce64ce405f5dcd36228a25de6e
      y := 0x47fd35c4215d1edf53e6f83de344615ce719bdb0fd878f6ed76f06dd277956de
      hash := 0x2d0711265872909a648495892c7536e3605d9c16a7a3d7b1898e529396a65c23 }
  | 1 =>
    { x := 0x09b02f8a5fddd222ade4ea4528faefc399623af3f736be3c44f03e2df22fb792
      y := 0xf3931a4d9573d333ca74343305762a753388c3422a86d98b713fc91c1ea04842
      hash := 0xa7ff071f0b9ddabfa383e426fe3b557e8fb62b89f4916b721be55ceb828dbd73 }
  | 2 =>
    { x := 0xca634cae0d49acb401d8a4c6b6fe8c55b70d115bf400769cc1400f3258cd3138
      y := 0x7574077f301b421bc84df7266c44e9e6d569fc56be00812904767bf5ccd1fc7f
      hash := 0xa448f24c6d18e575453db13171562b71999873db5b286df957af199ec94617f7 }
  | 3 =>
    { x := 0x42c5dbf0c160a02888d27e087816a77bf5f99100f49981209f82e0cf522ff45b
      y := 0xb9f506497831b10a1728fa6112e5214d6799888daefabe9f4af6267999ca1751
      hash := 0x5de4152730c7644e247c0f17f08fb9f775261fc4ad69414a88ecdb4137c79560 }

def sampleMember : String := "2c7536e3605d9c16a7a3d7b1898e529396a65c23"

def sampleDevice : String := "fe3b557e8fb62b89f4916b721be55ceb828dbd73"

def sampleWallet : String := "71562b71999873db5b286df957af199ec94617f7"

/-- The addresses of the keys. -/
def sampleAddresses : Fin 4 → String
  | 0 => sampleMember
  | 1 => sampleDevice
  | 2 => sampleWallet
  | 3 => "f08fb9f775261fc4ad69414a88ecdb4137c79560"

def sampleLink : DeviceLink :=
  ⟨sampleMember, sampleDevice, sampleWallet, 0, "laptop", 1790000000⟩

def sampleRevocation : DeviceRevocation := ⟨sampleMember, sampleDevice, 1790000100⟩

/-- The signatures of the link by the member, the device and the wallet. -/
def sampleSignatures : Fin 3 → Nat × Nat × Nat
  | 0 =>
    (0x9377c312145a5afb911bf9e8c067bcf6094c533603687850df502b61290bbf5e,
      0x2ce23b0d0bad8a57fa27b112cfe69fe36bfb0bed8682148287633f361bd891a9, 1)
  | 1 =>
    (0xc2771310eb9075306d0b22ee7462c2b85a107ce9deaffd2eeaf5317a69a41e6f,
      0x77d831a115e3355949650f02605f8748c35b87a82d63a931437eb7cfcffe1005, 1)
  | 2 =>
    (0xdf052be7282991d364e96f2772ea7e52c5bce6b69f088957007a05fd5aa73aea,
      0x6ab2822e156f7396c379b2d2314fd52bd7f84664f1aafd6c1ede2f369d2ce450, 1)

def sampleLinkDigest : Nat := 0x86fd39ff8d8a7195c03a6d2f6b7c8d96dc5d7c547116ecdb38734dee5a2712c4

def sampleRevocationDigest : Nat :=
  0x3bb07611bdb339c89bb428510766bbcf9d15b8ffaf461bf8c0a9dd9debb27742

/-- The curve and the hash on the keys of the sample, on its link and on its revocation. A point has
64 bytes and the link, as it is hashed, has 296. -/
def sampleCurve : Secp256k1 (Fin 4) where
  keccak256 bs :=
    hashValue (
      if bs.length = 64 then
        ((List.finRange 4).find? fun key =>
          (sampleKeys key).x = Hex.fromBytes (bs.take 32)).elim 0 fun key => (sampleKeys key).hash
      else if bs.length = 296 then sampleLinkDigest
      else sampleRevocationDigest)
  recoverFromPrehash z r s v :=
    if z = hashValue sampleLinkDigest then
      if (r, s, v) = sampleSignatures 0 then some 0
      else if (r, s, v) = sampleSignatures 1 then some 1
      else if (r, s, v) = sampleSignatures 2 then some 2
      else none
    else if z = hashValue sampleRevocationDigest ∧ (r, s, v) = sampleSignatures 0 then some 3
    else none
  toEncodedPoint key :=
    ⟨(4 :: (Hex.toBytes 32 (sampleKeys key).x ++ Hex.toBytes 32 (sampleKeys key).y)).toArray,
      by simp [Hex.length_toBytes]⟩

def sampleSig (i : Fin 3) : String :=
  spell (sampleSignatures i).1 (sampleSignatures i).2.1 (sampleSignatures i).2.2

/-- The member's signature in upper case, without its prefix and with the other last byte. -/
def sampleSigUpper : String :=
  "9377C312145A5AFB911BF9E8C067BCF6094C533603687850DF502B61290BBF5E" ++
    "2CE23B0D0BAD8A57FA27B112CFE69FE36BFB0BED8682148287633F361BD891A9" ++ "01"

theorem readSignature_sample (i : Fin 3) :
    readSignature (sampleSig i) = some (sampleSignatures i) := by
  apply readSignature_spell <;> revert i <;> decide

theorem readSignature_sampleUpper : readSignature sampleSigUpper = some (sampleSignatures 0) := by
  decide +kernel

theorem addressOf_sample : ∀ key, addressOf sampleCurve key = sampleAddresses key := by
  decide +kernel

theorem eip191Digest_sampleLink :
    eip191Digest sampleCurve (bytes sampleLink.signingMessage) = hashValue sampleLinkDigest := by
  decide +kernel

theorem recover_sample (i : Fin 3) (h : readSignature sig = some (sampleSignatures i)) :
    recover sampleCurve sampleLink.signingMessage sig = some (sampleAddresses i.castSucc) := by
  have hkey : ∀ i : Fin 3, sampleCurve.recoverFromPrehash (hashValue sampleLinkDigest)
      (sampleSignatures i).1 (sampleSignatures i).2.1 (sampleSignatures i).2.2 =
        some i.castSucc := by
    decide +kernel
  rw [recover_eq, h, Option.bind_some, eip191Digest_sampleLink, hkey, Option.map_some,
    addressOf_sample]

theorem accepted_signature_has_one_form_sample :
    recover sampleCurve sampleLink.signingMessage sampleSigUpper = some sampleMember ∧
      ∃ r s v, readSignature sampleSigUpper = some (r, s, v) ∧
        recover sampleCurve sampleLink.signingMessage (spell r s v) = some sampleMember ∧
        ∀ sig r' v', readSignature sig ≠ some (r', order - s, v') := by
  have hrecover := recover_sample 0 readSignature_sampleUpper
  obtain ⟨_, r, s, v, hread, _, _, _, _, _, hspell, _, htwin⟩ :=
    accepted_signature_has_one_form hrecover
  exact ⟨hrecover, r, s, v, hread, hspell, htwin⟩

section Respelling

variable {V : LinkVerifier}

/-- Two texts that a verifier answers alike on every message. -/
def Alike (V : LinkVerifier) (sig sig' : String) : Prop :=
  ∀ message, V.recover message sig = V.recover message sig'

theorem alike_of_readSignature (h : readSignature sig = readSignature sig') :
    Alike (eip191Verifier C) sig sig' := by
  intro message
  change recover C message sig = recover C message sig'
  rw [recover_eq, recover_eq, h]

/-- A link with its three signatures written differently. -/
structure RespelledLink (V : LinkVerifier) (l l' : DeviceLinkWire) : Prop where
  link : l.toSigned.link = l'.toSigned.link
  member : Alike V l.memberSig l'.memberSig
  device : Alike V l.deviceSig l'.deviceSig
  wallet : Alike V l.walletSig l'.walletSig

structure RespelledRevocation (V : LinkVerifier) (r r' : RevocationWire) : Prop where
  revocation : r.toSigned.revocation = r'.toSigned.revocation
  member : Alike V r.memberSig r'.memberSig

inductive RespelledRequest (V : LinkVerifier) : Request → Request → Prop where
  | same (r : Request) : RespelledRequest V r r
  | setRoster {group : String} {roster : Entries} {links links' : List DeviceLinkWire}
      {revocations revocations' : List RevocationWire}
      (hl : List.Forall₂ (RespelledLink V) links links')
      (hr : List.Forall₂ (RespelledRevocation V) revocations revocations') :
      RespelledRequest V (.setRoster group roster links revocations)
        (.setRoster group roster links' revocations')

inductive RespelledEvent {T : Type} (V : LinkVerifier) : Event T → Event T → Prop where
  | same (e : Event T) : RespelledEvent V e e
  | request {r r' : Request} (h : RespelledRequest V r r') :
      RespelledEvent V (.request r) (.request r')

theorem collectLink_congr {l l' : DeviceLinkWire} (h : RespelledLink V l l') :
    (fun acc => collectLink V acc l.toSigned) = fun acc => collectLink V acc l'.toSigned := by
  have hcanon : l.toSigned.canon = l'.toSigned.canon := by
    rw [SignedDeviceLink.canon, h.link]
    rfl
  have hrefusal : linkRefusal V l.toSigned = linkRefusal V l'.toSigned := by
    rw [linkRefusal, linkRefusal, hcanon, h.link]
    cases l'.toSigned.canon with
    | none => rfl
    | some canon =>
      have hm : V.recover canon.signingMessage l.toSigned.memberSig =
          V.recover canon.signingMessage l'.toSigned.memberSig := h.member _
      have hd : V.recover canon.signingMessage l.toSigned.deviceSig =
          V.recover canon.signingMessage l'.toSigned.deviceSig := h.device _
      have hw : V.recover canon.signingMessage l.toSigned.walletSig =
          V.recover canon.signingMessage l'.toSigned.walletSig := h.wallet _
      dsimp only
      rw [hm, hd, hw]
  funext acc
  rw [collectLink, collectLink, verifyLink_eq, verifyLink_eq, hrefusal, hcanon]

theorem recordRevocation_congr {r r' : RevocationWire} (h : RespelledRevocation V r r') :
    (fun acc => recordRevocation V acc r.toSigned) =
      fun acc => recordRevocation V acc r'.toSigned := by
  funext acc
  rw [recordRevocation, recordRevocation, h.revocation]
  cases DeviceRevocation.new r'.toSigned.revocation.member r'.toSigned.revocation.device
      r'.toSigned.revocation.revokedAt with
  | none => rfl
  | some rev =>
    have hm : V.recover rev.signingMessage r.toSigned.memberSig =
        V.recover rev.signingMessage r'.toSigned.memberSig := h.member _
    dsimp only
    rw [hm]

/-- Lists whose elements act alike fold alike. -/
theorem foldl_map_congr {σ α γ : Type} {f : σ → γ → σ} {g : α → γ} {R : α → α → Prop}
    (hR : ∀ a a', R a a' → (fun s => f s (g a)) = fun s => f s (g a')) {l l' : List α}
    (h : List.Forall₂ R l l') (s : σ) : (l.map g).foldl f s = (l'.map g).foldl f s := by
  induction h generalizing s with
  | nil => rfl
  | cons ha _ ih =>
    rw [List.map_cons, List.foldl_cons, List.map_cons, List.foldl_cons, congrFun (hR _ _ ha) s]
    exact ih _

theorem update_congr {links links' : List DeviceLinkWire}
    {revocations revocations' : List RevocationWire}
    (hl : List.Forall₂ (RespelledLink V) links links')
    (hr : List.Forall₂ (RespelledRevocation V) revocations revocations') (reg : DeviceRegistry) :
    reg.update (links.map DeviceLinkWire.toSigned) (revocations.map RevocationWire.toSigned) V =
      reg.update (links'.map DeviceLinkWire.toSigned)
        (revocations'.map RevocationWire.toSigned) V := by
  have hrecord := foldl_map_congr (R := RespelledRevocation V)
    (fun _ _ h => recordRevocation_congr h) hr
  have hcollect := foldl_map_congr (R := RespelledLink V) (fun _ _ h => collectLink_congr h) hl
  simp only [update, List.length_map, hl.length_eq, hr.length_eq, hrecord, hcollect]

variable {T : Type} [MeshTransport T] {d : ClusterDaemon T} {es es' : List (Event T)}
  {r r' : Request}

theorem handleRequest_congr (h : RespelledRequest V r r') (d : ClusterDaemon T) :
    handleRequest V d r = handleRequest V d r' := by
  cases h with
  | same => rfl
  | setRoster hl hr =>
    simp only [handleRequest, setRosterWithDevices, update_congr hl hr]

/-- Whoever carries a client's requests may write their signatures differently, in upper or lower
case, with or without `0x` and in either convention for the last byte: every response stays the
same. -/
theorem respelling_changes_nothing (h : List.Forall₂ (RespelledEvent V) es es')
    (hr : RespelledRequest V r r') :
    handleRequest V (es.foldl (step V) d) r = handleRequest V (es'.foldl (step V) d) r' := by
  have hrun : es.foldl (step V) d = es'.foldl (step V) d := by
    induction h generalizing d with
    | nil => rfl
    | cons he _ ih =>
      rw [List.foldl_cons, List.foldl_cons]
      cases he with
      | same => exact ih
      | request hreq =>
        rw [step, step, handleRequest_congr hreq]
        exact ih
  rw [hrun]
  exact handleRequest_congr hr _

/-- The sample link under its three signatures, the member's in a given spelling. -/
def signedWith (memberSig : String) : DeviceLinkWire :=
  ⟨sampleMember, sampleDevice, sampleWallet, 0, "laptop", 1790000000, memberSig, sampleSig 1,
    sampleSig 2⟩

theorem RespelledLink.signedWith {sig sig' : String} (h : Alike V sig sig') :
    RespelledLink V (signedWith sig) (signedWith sig') :=
  ⟨rfl, h, fun _ => rfl, fun _ => rfl⟩

theorem body_signedWith (h : readSignature sig = some (sampleSignatures 0)) :
    body (eip191Verifier sampleCurve) (signedWith sig).toSigned = some sampleLink := by
  have hcanon : (signedWith sig).toSigned.canon = some sampleLink :=
    (by decide +kernel : DeviceLink.new sampleMember sampleDevice sampleWallet 0 "laptop"
      1790000000 = some sampleLink)
  have hverify : linkRefusal (eip191Verifier sampleCurve) (signedWith sig).toSigned = none := by
    simp only [linkRefusal, hcanon]
    rw [if_neg, if_neg, if_neg]
    · exact not_not.mpr (recover_sample 2 (readSignature_sample 2))
    · exact not_not.mpr (recover_sample 1 (readSignature_sample 1))
    · exact not_not.mpr (recover_sample 0 h)
  rw [body, verifyLink_eq, hverify]
  exact hcanon

def linking (memberSig : String) : Event InProcessTransport :=
  .request (.setRoster "group" [(sampleMember, "member")] [signedWith memberSig] [])

theorem respelling_changes_nothing_sample :
    sampleSig 0 ≠ sampleSigUpper ∧
      handleRequest (eip191Verifier sampleCurve)
          ([linking (sampleSig 0)].foldl (step (eip191Verifier sampleCurve)) nodeDaemon)
          (.devices "group") =
        handleRequest (eip191Verifier sampleCurve)
          ([linking sampleSigUpper].foldl (step (eip191Verifier sampleCurve)) nodeDaemon)
          (.devices "group") ∧
      (registryOf ([linking (sampleSig 0)].foldl (step (eip191Verifier sampleCurve)) nodeDaemon)
        "group").listLinks = [sampleLink] := by
  have halike : Alike (eip191Verifier sampleCurve) (sampleSig 0) sampleSigUpper :=
    alike_of_readSignature ((readSignature_sample 0).trans readSignature_sampleUpper.symm)
  have hlinking : RespelledEvent (eip191Verifier sampleCurve) (linking (sampleSig 0))
      (linking sampleSigUpper) := .request (.setRoster (.cons (.signedWith halike) .nil) .nil)
  have hsame := respelling_changes_nothing (d := nodeDaemon) (.cons hlinking .nil)
    (.same (.devices "group"))
  have hne : sampleSig 0 ≠ sampleSigUpper := fun h =>
    absurd (congrArg (String.front ·) h) (by decide +kernel)
  have hnew : registryOf nodeDaemon "group" = .new := rfl
  have hupdate : registryAfter (eip191Verifier sampleCurve) nodeDaemon "group"
      [signedWith (sampleSig 0)] [] = ([], onlyLink sampleLink) := by
    rw [registryAfter, hnew]
    exact update_single (body_signedWith (readSignature_sample 0)) (Nat.zero_le _) rfl
  have hstep : [linking (sampleSig 0)].foldl (step (eip191Verifier sampleCurve)) nodeDaemon =
      rostered (eip191Verifier sampleCurve) nodeDaemon "group" (.new [] .new)
        [(sampleMember, "member")] [signedWith (sampleSig 0)] [] := by
    rw [List.foldl_cons, List.foldl_nil, linking, step,
      handleRequest_setRoster_of_ensureSession _ rfl rfl]
  refine ⟨hne, hsame, ?_⟩
  rw [hstep, registryOf, rostered, hupdate]
  simp

end Respelling

end CitrateCluster.Eip191
