import CitrateCluster.Eip191
import Std.Data.String.ToNat

namespace CitrateCluster.SigningText

open Text Roster Device Eip191

section Lines

/-- Text without a line break. -/
def SingleLine (s : String) : Prop := '\n' ∉ s.toList

/-- Lines, joined by line breaks, can be read back. -/
theorem join_lines_inj {ls ls' : List String} (h : ∀ s ∈ ls, SingleLine s)
    (h' : ∀ s ∈ ls', SingleLine s) (hne : ls ≠ []) (hne' : ls' ≠ [])
    (he : "\n".intercalate ls = "\n".intercalate ls') : ls = ls' := by
  have hsplit : ∀ ks : List String, (∀ s ∈ ks, SingleLine s) → ks ≠ [] →
      ("\n".intercalate ks).toList.splitOn '\n' = ks.map String.toList := by
    intro ks hks hne
    rw [String.toList_intercalate]
    refine List.splitOn_intercalate '\n' (fun cs hcs => ?_) (by simpa using hne)
    obtain ⟨s, hs, rfl⟩ := List.mem_map.mp hcs
    exact hks s hs
  have hmap : ls.map String.toList = ls'.map String.toList := by
    rw [← hsplit ls h hne, he, hsplit ls' h' hne']
  exact List.map_injective_iff.mpr (fun _ _ h => String.toList_injective h) hmap

theorem SingleLine.append {s t : String} (hs : SingleLine s) (ht : SingleLine t) :
    SingleLine (s ++ t) := by
  rw [SingleLine, String.toList_append, List.mem_append, not_or]
  exact ⟨hs, ht⟩

theorem singleLine_of_all {s : String} (h : s.toList.all (· != '\n') = true) : SingleLine s := by
  intro hm
  simpa using List.all_eq_true.mp h _ hm

theorem singleLine_of_canonical {a : String} (h : Canonical a) : SingleLine a := by
  intro hm
  obtain hd | hl := h.2 _ hm
  · exact absurd hd (by decide)
  · exact absurd hl (by decide)

theorem singleLine_toString (n : Nat) : SingleLine (toString n) := by
  intro hm
  rw [Nat.toString_eq_ofList_toDigits, String.toList_ofList] at hm
  exact absurd (Nat.isDigit_of_mem_toDigits (by decide) (by decide) hm) (by decide)

theorem singleLine_of_label {label : String} (h : labelIsValid label = true) :
    SingleLine label := by
  intro hm
  simp only [labelIsValid, Bool.and_eq_true, List.all_eq_true] at h
  exact absurd (h.2 _ hm) (by decide)

end Lines

/-- The lines of the text that the signers of a link sign. -/
def linkLines (l : DeviceLink) : List String :=
  ["Citrate DeviceLink v" ++ toString deviceLinkVersion,
    "Link this device to my Citrate member identity.", "member: 0x" ++ l.member,
    "device: 0x" ++ l.device, "wallet: 0x" ++ l.wallet, "index: " ++ toString l.index,
    "label: " ++ l.label, "issued_at: " ++ toString l.issuedAt]

/-- The lines of the text that a member signs to revoke a device. -/
def revocationLines (r : DeviceRevocation) : List String :=
  ["Citrate DeviceRevocation v" ++ toString deviceLinkVersion,
    "Remove this device from my Citrate member identity.", "member: 0x" ++ r.member,
    "device: 0x" ++ r.device, "revoked_at: " ++ toString r.revokedAt]

/-- A text field that starts with a line break starts a line. -/
theorem break_append (s t : String) (h : s = "\n" ++ t) (u : String) :
    s ++ u = "\n" ++ (t ++ u) := by
  rw [h, String.append_assoc]

theorem signingMessage_link (l : DeviceLink) :
    l.signingMessage = "\n".intercalate (linkLines l) := by
  unfold linkLines DeviceLink.signingMessage
  generalize toString deviceLinkVersion = version
  simp only [String.intercalate_cons_cons, String.intercalate_singleton, String.append_assoc,
    break_append "\nLink this device to my Citrate member identity."
      "Link this device to my Citrate member identity." rfl,
    break_append "\nmember: 0x" "member: 0x" rfl, break_append "\ndevice: 0x" "device: 0x" rfl,
    break_append "\nwallet: 0x" "wallet: 0x" rfl, break_append "\nindex: " "index: " rfl,
    break_append "\nlabel: " "label: " rfl, break_append "\nissued_at: " "issued_at: " rfl]

theorem signingMessage_revocation (r : DeviceRevocation) :
    r.signingMessage = "\n".intercalate (revocationLines r) := by
  unfold revocationLines DeviceRevocation.signingMessage
  generalize toString deviceLinkVersion = version
  simp only [String.intercalate_cons_cons, String.intercalate_singleton, String.append_assoc,
    break_append "\nRemove this device from my Citrate member identity."
      "Remove this device from my Citrate member identity." rfl,
    break_append "\nmember: 0x" "member: 0x" rfl, break_append "\ndevice: 0x" "device: 0x" rfl,
    break_append "\nrevoked_at: " "revoked_at: " rfl]

theorem singleLine_linkLines {l : DeviceLink} (h : l.Valid) : ∀ s ∈ linkLines l, SingleLine s := by
  unfold linkLines
  simp only [List.forall_mem_cons, List.not_mem_nil, false_imp_iff, implies_true, and_true]
  exact ⟨(singleLine_of_all (by decide)).append (singleLine_toString _), singleLine_of_all (by decide),
    (singleLine_of_all (by decide)).append (singleLine_of_canonical h.member),
    (singleLine_of_all (by decide)).append (singleLine_of_canonical h.device),
    (singleLine_of_all (by decide)).append (singleLine_of_canonical h.wallet),
    (singleLine_of_all (by decide)).append (singleLine_toString _),
    (singleLine_of_all (by decide)).append (singleLine_of_label h.label),
    (singleLine_of_all (by decide)).append (singleLine_toString _)⟩

theorem singleLine_revocationLines {r : DeviceRevocation} (hm : Canonical r.member)
    (hd : Canonical r.device) : ∀ s ∈ revocationLines r, SingleLine s := by
  unfold revocationLines
  simp only [List.forall_mem_cons, List.not_mem_nil, false_imp_iff, implies_true, and_true]
  exact ⟨(singleLine_of_all (by decide)).append (singleLine_toString _),
    singleLine_of_all (by decide),
    (singleLine_of_all (by decide)).append (singleLine_of_canonical hm),
    (singleLine_of_all (by decide)).append (singleLine_of_canonical hd),
    (singleLine_of_all (by decide)).append (singleLine_toString _)⟩

theorem linkLines_inj {l l' : DeviceLink} (h : linkLines l = linkLines l') : l = l' := by
  unfold linkLines at h
  simp only [List.cons.injEq, String.append_right_inj, Nat.toString_eq_repr, Nat.repr_inj,
    true_and, and_true] at h
  obtain ⟨hm, hd, hw, hi, hl, ht⟩ := h
  exact DeviceLink.ext hm hd hw hi hl ht

theorem revocationLines_inj {r r' : DeviceRevocation} (h : revocationLines r = revocationLines r') :
    r = r' := by
  unfold revocationLines at h
  simp only [List.cons.injEq, String.append_right_inj, Nat.toString_eq_repr, Nat.repr_inj,
    true_and, and_true] at h
  obtain ⟨hm, hd, ht⟩ := h
  cases r
  cases r'
  cases hm
  cases hd
  cases ht
  rfl

/-- What a signature can be about: a link or a revocation. -/
inductive Body where
  | link (l : DeviceLink)
  | revocation (r : DeviceRevocation)
  deriving DecidableEq

namespace Body

def signingMessage : Body → String
  | link l => l.signingMessage
  | revocation r => r.signingMessage

/-- The constructor of the body's kind has accepted it. -/
def Built : Body → Prop
  | link l => ∃ member device wallet index label issuedAt,
      DeviceLink.new member device wallet index label issuedAt = some l
  | revocation r => ∃ member device revokedAt,
      DeviceRevocation.new member device revokedAt = some r

def lines : Body → List String
  | link l => linkLines l
  | revocation r => revocationLines r

theorem signingMessage_eq (b : Body) : b.signingMessage = "\n".intercalate b.lines := by
  cases b with
  | link l => exact signingMessage_link l
  | revocation r => exact signingMessage_revocation r

theorem lines_ne_nil (b : Body) : b.lines ≠ [] := by
  cases b <;> exact List.cons_ne_nil _ _

theorem Built.singleLine {b : Body} (h : b.Built) : ∀ s ∈ b.lines, SingleLine s := by
  cases b with
  | link l =>
    obtain ⟨_, _, _, _, _, _, hl⟩ := h
    exact singleLine_linkLines (DeviceLink.valid_of_new hl)
  | revocation r =>
    obtain ⟨member, device, revokedAt, hr⟩ := h
    simp only [DeviceRevocation.new, Option.bind_eq_bind, Option.bind_eq_some_iff,
      Option.some.injEq] at hr
    obtain ⟨m, hm, d, hd, rfl⟩ := hr
    exact singleLine_revocationLines (canonical_of_canonicalAddress hm)
      (canonical_of_canonicalAddress hd)

theorem lines_inj {b b' : Body} (h : b.lines = b'.lines) : b = b' := by
  have hfirst : ∀ l r, linkLines l ≠ revocationLines r := by
    intro l r h
    have hlen := congrArg List.length h
    cases hlen
  cases b with
  | link l =>
    cases b' with
    | link l' => rw [linkLines_inj h]
    | revocation r => exact absurd h (hfirst l r)
  | revocation r =>
    cases b' with
    | link l => exact absurd h.symm (hfirst l r)
    | revocation r' => rw [revocationLines_inj h]

theorem signingMessage_inj {b b' : Body} (h : b.Built) (h' : b'.Built)
    (he : b.signingMessage = b'.signingMessage) : b = b' := by
  rw [signingMessage_eq, signingMessage_eq] at he
  exact lines_inj (join_lines_inj h.singleLine h'.singleLine b.lines_ne_nil b'.lines_ne_nil he)

end Body

section Signatures

variable {Key : Type} {C : Secp256k1 Key} {sig signer message message' : String}

/-- A digest as the curve takes it. -/
def scalar (digest : Vector UInt8 32) : Nat := Hex.fromBytes digest.toList % order

/-- A signature leads to different keys over different digests: together with the key it fixes the
multiple of the generator that the digest names. -/
def SeparatesDigests (C : Secp256k1 Key) : Prop :=
  ∀ z z' r s v key, C.recoverFromPrehash z r s v = some key →
    C.recoverFromPrehash z' r s v = some key → scalar z = scalar z'

/-- The hash does not collide on two messages, nor on the keys to which a signature leads on them. -/
structure CollisionFree (C : Secp256k1 Key) (message message' sig : String) : Prop where
  digest : scalar (eip191Digest C (bytes message)) = scalar (eip191Digest C (bytes message')) →
    message = message'
  address : ∀ r s v key key', readSignature sig = some (r, s, v) →
    C.recoverFromPrehash (eip191Digest C (bytes message)) r s v = some key →
    C.recoverFromPrehash (eip191Digest C (bytes message')) r s v = some key' →
    addressOf C key = addressOf C key' → key = key'

theorem recover_eq_some_iff : recover C message sig = some signer ↔
    ∃ r s v key, readSignature sig = some (r, s, v) ∧
      C.recoverFromPrehash (eip191Digest C (bytes message)) r s v = some key ∧
      addressOf C key = signer := by
  rw [recover_eq]
  simp only [Option.bind_eq_some_iff, Option.map_eq_some_iff, Prod.exists]
  constructor
  · rintro ⟨r, s, v, hread, key, hkey, haddress⟩
    exact ⟨r, s, v, key, hread, hkey, haddress⟩
  · rintro ⟨r, s, v, key, hread, hkey, haddress⟩
    exact ⟨r, s, v, hread, key, hkey, haddress⟩

/-- A signature leads to a given signer for one message only. -/
theorem message_eq_of_recover (hC : SeparatesDigests C) (hfree : CollisionFree C message message' sig)
    (h : recover C message sig = some signer) (h' : recover C message' sig = some signer) :
    message = message' := by
  obtain ⟨r, s, v, key, hread, hkey, haddress⟩ := recover_eq_some_iff.mp h
  obtain ⟨r', s', v', key', hread', hkey', haddress'⟩ := recover_eq_some_iff.mp h'
  cases hread.symm.trans hread'
  obtain rfl : key = key' :=
    hfree.address r s v key key' hread hkey hkey' (haddress.trans haddress'.symm)
  exact hfree.digest (hC _ _ r s v key hkey hkey')

/-- Two bodies that their constructors accept have one signing message only if they are the same
link or the same revocation, so a signature for one of them verifies for no other unless the hash
collides on what is verified. -/
theorem signing_messages_unambiguous :
    (∀ b b' : Body, b.Built → b'.Built → b.signingMessage = b'.signingMessage → b = b') ∧
      ∀ (Key : Type) (C : Secp256k1 Key) (b b' : Body) (sig signer : String),
        SeparatesDigests C → CollisionFree C b.signingMessage b'.signingMessage sig →
          b.Built → b'.Built → (eip191Verifier C).recover b.signingMessage sig = some signer →
            b' ≠ b → (eip191Verifier C).recover b'.signingMessage sig ≠ some signer := by
  refine ⟨fun b b' h h' he => Body.signingMessage_inj h h' he, ?_⟩
  intro Key C b b' sig signer hC hfree h h' hb hne hb'
  have hmessage : b.signingMessage = b'.signingMessage := message_eq_of_recover hC hfree hb hb'
  exact hne (Body.signingMessage_inj h' h hmessage.symm)

section Samples

/-- The digest over which a signature of the sample leads to a key. -/
def sampleDigestOf (key : Fin 4) : Nat :=
  if key.val = 3 then sampleRevocationDigest else sampleLinkDigest

theorem digest_of_sampleCurve {z : Vector UInt8 32} {r s v : Nat} {key : Fin 4}
    (h : sampleCurve.recoverFromPrehash z r s v = some key) :
    z = hashValue (sampleDigestOf key) := by
  simp only [sampleCurve] at h
  split_ifs at h with hz _ _ _ hz' <;> cases h
  · exact hz
  · exact hz
  · exact hz
  · exact hz'.1

theorem separatesDigests_sampleCurve : SeparatesDigests sampleCurve := by
  intro z z' r s v key h h'
  rw [digest_of_sampleCurve h, digest_of_sampleCurve h']

theorem eip191Digest_sampleRevocation :
    eip191Digest sampleCurve (bytes sampleRevocation.signingMessage) =
      hashValue sampleRevocationDigest := by
  decide +kernel

theorem collisionFree_sample : CollisionFree sampleCurve sampleLink.signingMessage
    sampleRevocation.signingMessage (sampleSig 0) where
  digest := by
    rw [eip191Digest_sampleLink, eip191Digest_sampleRevocation]
    intro h
    exact absurd h (by decide +kernel)
  address := by
    intro r s v key key' _ _ _ haddress
    rw [addressOf_sample, addressOf_sample] at haddress
    have hinj : ∀ i j, sampleAddresses i = sampleAddresses j → i = j := by decide +kernel
    exact hinj key key' haddress

theorem signing_messages_unambiguous_sample :
    (eip191Verifier sampleCurve).recover (Body.link sampleLink).signingMessage (sampleSig 0) =
        some sampleMember ∧
      (eip191Verifier sampleCurve).recover (Body.revocation sampleRevocation).signingMessage
        (sampleSig 0) ≠ some sampleMember := by
  have hl : (Body.link sampleLink).Built :=
    ⟨sampleMember, sampleDevice, sampleWallet, 0, "laptop", 1790000000, by decide +kernel⟩
  have hr : (Body.revocation sampleRevocation).Built :=
    ⟨sampleMember, sampleDevice, 1790000100, by decide +kernel⟩
  have hrecover : (eip191Verifier sampleCurve).recover (Body.link sampleLink).signingMessage
      (sampleSig 0) = some sampleMember := recover_sample 0 (readSignature_sample 0)
  exact ⟨hrecover, signing_messages_unambiguous.2 (Fin 4) sampleCurve (.link sampleLink)
    (.revocation sampleRevocation) (sampleSig 0) sampleMember separatesDigests_sampleCurve
    collisionFree_sample hl hr hrecover (by simp)⟩

end Samples

end Signatures

end CitrateCluster.SigningText
