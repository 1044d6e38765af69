import CitrateCluster.DeviceViews
import CitrateCluster.Serde
import CitrateCluster.Serve

namespace CitrateCluster.WireFormat

open Text Roster Collections Device DeviceRegistry Registry EffectiveRoster Transport Daemon
  ClusterDaemon Ipc DaemonStep GroupState Lines Server Connection Runs Serve DeviceViews JsonText
  Serde

section RoundTrips

variable {α : Type} {d : Nat}

/-- What is written is in the format, nested at most so deep, and reads back. -/
def RoundTrips [Serialize α] [Deserialize α] (d : Nat) (a : α) : Prop :=
  (serialize a).Fits d ∧ deserialize (serialize a) = some a

theorem roundTrips_string (s : String) : RoundTrips d s := ⟨.str s, rfl⟩

theorem roundTrips_list [Serialize α] [Deserialize α] {l : List α}
    (h : ∀ a ∈ l, RoundTrips d a) : RoundTrips (d + 1) l := by
  constructor
  · apply Value.Fits.arr
    intro v hv
    obtain ⟨a, ha, rfl⟩ := List.mem_map.mp hv
    exact (h a ha).1
  · change (l.map serialize).mapM deserialize = some l
    induction l with
    | nil => rfl
    | cons a l ih =>
      rw [List.map_cons, List.mapM_cons, (h a List.mem_cons_self).2,
        ih fun b hb => h b (List.mem_cons_of_mem a hb)]
      rfl

theorem roundTrips_strings (l : List String) : RoundTrips (d + 1) l :=
  roundTrips_list fun s _ => roundTrips_string s

theorem uint_of_lt {width n : Nat} (h : n < 2 ^ width) : uint width (.num n) = some n := if_pos h

theorem lt_of_lt_32 {n : Nat} (h : n < 2 ^ 32) : n < 2 ^ 64 := h.trans (by decide)

@[simp] theorem deserialize_str (s : String) : deserialize (.str s) = some s := rfl

@[simp] theorem deserialize_bool (b : Bool) : deserialize (.bool b) = some b := rfl

theorem roundTrips_message (m : MeshMessage) : RoundTrips (d + 1) m := by
  constructor
  · apply Value.Fits.obj
    simp [Value.Fits.str]
  · change record messageFields (.obj _) = _
    simp [messageFields, record, required, field, pick, under]

theorem roundTrips_peer (p : PeerView) : RoundTrips (d + 1) p := by
  obtain ⟨address, online, member⟩ := p
  constructor
  · apply Value.Fits.obj
    cases member <;> simp [Value.Fits.str, Value.Fits.bool]
  · change record peerFields (.obj _) = _
    have hmember : ∀ m : String, deserialize (.str m) = some (some m) := fun _ => rfl
    cases member <;> simp [peerFields, record, required, defaulted, field, pick, under, hmember]

/-- The numbers of a device are of their types. -/
def FitsDevice (v : DeviceViewWire) : Prop := v.index < 2 ^ 32 ∧ v.issuedAt < 2 ^ 64

theorem roundTrips_device {v : DeviceViewWire} (h : FitsDevice v) : RoundTrips (d + 1) v := by
  obtain ⟨hindex, hissued⟩ := h
  constructor
  · apply Value.Fits.obj
    simp [Value.Fits.str, Value.Fits.bool, Value.Fits.num (lt_of_lt_32 hindex),
      Value.Fits.num hissued]
  · change record deviceViewFields (.obj _) = _
    simp [deviceViewFields, record, required, field, pick, under, uint_of_lt hindex,
      uint_of_lt hissued]

theorem roundTrips_member {m : MemberDevicesWire} (h : ∀ v ∈ m.devices, FitsDevice v) :
    RoundTrips (d + 3) m := by
  obtain ⟨hfits, hread⟩ := roundTrips_list (d := d + 1) fun v hv => roundTrips_device (h v hv)
  constructor
  · apply Value.Fits.obj
    simp [Value.Fits.str, Value.Fits.bool, hfits]
  · change record memberDevicesFields (.obj _) = _
    simp [memberDevicesFields, record, required, field, pick, under, hread]

/-- The numbers of a response are of their types. -/
def FitsResponse : Response → Prop
  | .devices members => ∀ m ∈ members, ∀ v ∈ m.devices, FitsDevice v
  | .status online total _ => online < 2 ^ 64 ∧ total < 2 ^ 64
  | .sharedFiles _ offset total => offset < 2 ^ 64 ∧ total < 2 ^ 64
  | .seeded dialing => dialing < 2 ^ 64
  | _ => True

theorem fits_tagged {tag : String} {fs : List (String × Value)} (h : ∀ f ∈ fs, f.2.Fits d) :
    (tagged tag fs).Fits (d + 1) := by
  apply Value.Fits.obj
  intro f hf
  obtain rfl | hf := List.mem_cons.mp hf
  · exact .str tag
  · exact h f hf

theorem deserialize_tagged {tag : String} {fs : List (String × Value)} {resp : Response}
    (htype : under "type" fs = [])
    (h : responseFields tag (.named (("type", .str tag) :: fs)) =
      some (resp, .named (("type", .str tag) :: fs))) :
    deserialize (tagged tag fs) = some resp := by
  have htag : under "type" (("type", .str tag) :: fs) = [.str tag] := by
    rw [under] at htype ⊢
    simp [htype]
  change record (required "type" >>= responseFields) (.obj _) = _
  simp only [record, bind_apply, required, field, htag, pick, deserialize_str, Option.map_some,
    Option.bind_some, h]

theorem roundTrips_response {resp : Response} (h : FitsResponse resp) :
    RoundTrips (d + 5) resp := by
  cases resp with
  | ok => exact ⟨fits_tagged (by simp), rfl⟩
  | reconciled evicted rejected =>
    obtain ⟨hfits, hread⟩ := roundTrips_strings (d := d + 3) evicted
    obtain ⟨hfits', hread'⟩ := roundTrips_strings (d := d + 3) rejected
    constructor
    · apply fits_tagged
      cases rejected <;> simp [hfits, hfits']
    · apply deserialize_tagged
      · cases rejected <;> simp [under]
      · cases rejected <;>
          simp [responseFields, required, defaulted, field, pick, under, hread, hread']
  | devices members =>
    obtain ⟨hfits, hread⟩ := roundTrips_list (d := d + 3) fun m hm => roundTrips_member (h m hm)
    refine ⟨fits_tagged (by simp [hfits]), deserialize_tagged (by simp [under]) ?_⟩
    simp [responseFields, required, field, pick, under, hread]
  | status online total sharedFiles =>
    obtain ⟨hfits, hread⟩ := roundTrips_strings (d := d + 3) sharedFiles
    obtain ⟨honline, htotal⟩ := h
    refine ⟨fits_tagged (by simp [hfits, Value.Fits.num honline, Value.Fits.num htotal]),
      deserialize_tagged (by simp [under]) ?_⟩
    simp [responseFields, required, field, pick, under, hread, uint_of_lt honline,
      uint_of_lt htotal]
  | peers peers =>
    obtain ⟨hfits, hread⟩ :=
      roundTrips_list (d := d + 3) fun p (_ : p ∈ peers) => roundTrips_peer p
    refine ⟨fits_tagged (by simp [hfits]), deserialize_tagged (by simp [under]) ?_⟩
    simp [responseFields, required, field, pick, under, hread]
  | messages messages =>
    obtain ⟨hfits, hread⟩ :=
      roundTrips_list (d := d + 3) fun m (_ : m ∈ messages) => roundTrips_message m
    refine ⟨fits_tagged (by simp [hfits]), deserialize_tagged (by simp [under]) ?_⟩
    simp [responseFields, required, field, pick, under, hread]
  | sharedFiles files offset total =>
    obtain ⟨hfits, hread⟩ := roundTrips_strings (d := d + 3) files
    obtain ⟨hoffset, htotal⟩ := h
    refine ⟨fits_tagged (by simp [hfits, Value.Fits.num hoffset, Value.Fits.num htotal]),
      deserialize_tagged (by simp [under]) ?_⟩
    simp [responseFields, required, field, pick, under, hread, uint_of_lt hoffset,
      uint_of_lt htotal]
  | seed seed addrs =>
    obtain ⟨hfits, hread⟩ := roundTrips_strings (d := d + 3) addrs
    refine ⟨fits_tagged (by simp [hfits, Value.Fits.str]), deserialize_tagged (by simp [under]) ?_⟩
    simp [responseFields, required, field, pick, under, hread]
  | seeded dialing =>
    refine ⟨fits_tagged (by simp [Value.Fits.num h]), deserialize_tagged (by simp [under]) ?_⟩
    simp [responseFields, field, pick, under, uint_of_lt h]
  | error message =>
    refine ⟨fits_tagged (by simp [Value.Fits.str]), deserialize_tagged (by simp [under]) ?_⟩
    simp [responseFields, required, field, pick, under]

end RoundTrips

section Requests

variable {α β : Type} {P : α → Prop} {Q : β → Prop} {d : Nat} {v : Value}

/-- The numbers of a link are of their types. -/
def FitsLink (l : DeviceLinkWire) : Prop := l.index < 2 ^ 32 ∧ l.issuedAt < 2 ^ 64

/-- The numbers of a request are of their types. -/
def FitsRequest : Request → Prop
  | .setRoster _ _ links revocations =>
    (∀ l ∈ links, FitsLink l) ∧ ∀ r ∈ revocations, r.revokedAt < 2 ^ 64
  | .sharedFiles _ offset limit => offset < 2 ^ 64 ∧ ∀ n ∈ limit, n < 2 ^ 64
  | _ => True

/-- What a reader reads has a property. -/
def Yields (P : α → Prop) (p : Reader α) : Prop := ∀ fs r, p fs = some r → P r.1

theorem Yields.any {p : Reader α} : Yields (fun _ => True) p := fun _ _ _ => trivial

theorem Yields.pure {a : α} (h : P a) : Yields P (pure a) := by
  intro fs r hr
  cases hr
  exact h

theorem Yields.bind {p : Reader α} (hp : Yields P p) {q : α → Reader β}
    (hq : ∀ a, P a → Yields Q (q a)) : Yields Q (p >>= q) := by
  intro fs r h
  rw [bind_apply, Option.bind_eq_some_iff] at h
  obtain ⟨⟨a, gs⟩, ha, hr⟩ := h
  exact hq a (hp fs _ ha) gs r hr

theorem Yields.map {p : Reader α} {f : α → β} (h : ∀ a, Q (f a)) : Yields Q (f <$> p) := by
  intro fs r hr
  rw [map_apply, Option.map_eq_some_iff] at hr
  obtain ⟨⟨a, gs⟩, _, rfl⟩ := hr
  exact h a

theorem Yields.field {read : Value → Option α} {default : Option α} {name : String}
    (hread : ∀ v a, read v = some a → P a) (hdefault : ∀ a, default = some a → P a) :
    Yields P (field read default name) := by
  intro fs r h
  obtain fs | _ | ⟨v, vs⟩ := fs
  · simp only [Serde.field, Option.map_eq_some_iff] at h
    obtain ⟨a, ha, rfl⟩ := h
    unfold pick at ha
    split at ha
    · exact hdefault a ha
    · exact hread _ a ha
    · cases ha
  · obtain ⟨a, ha, rfl⟩ := Option.map_eq_some_iff.mp h
    exact hdefault a ha
  · obtain ⟨a, ha, rfl⟩ := Option.map_eq_some_iff.mp h
    exact hread v a ha

theorem Yields.record {p : Reader α} (hp : Yields P p) {a : α} (h : record p v = some a) : P a := by
  unfold Serde.record at h
  split at h
  · obtain ⟨r, hr, rfl⟩ := Option.map_eq_some_iff.mp h
    exact hp _ r hr
  · split at h
    · next hr =>
      cases h
      exact hp _ _ hr
    · cases h
  · cases h

theorem lt_of_uint {width n : Nat} (h : uint width v = some n) : n < 2 ^ width := by
  unfold uint at h
  split at h
  · rw [Option.ite_none_right_eq_some, Option.some.injEq] at h
    exact h.2 ▸ h.1
  · cases h

theorem forall_of_deserialize_list [Deserialize α]
    (h : ∀ v a, (deserialize v : Option α) = some a → P a) {l : List α}
    (hl : deserialize v = some l) : ∀ a ∈ l, P a := by
  have hmap : ∀ (vs : List Value) (l : List α), vs.mapM deserialize = some l → ∀ a ∈ l, P a := by
    intro vs
    induction vs with
    | nil =>
      intro l hl
      cases hl
      exact fun a ha => absurd ha List.not_mem_nil
    | cons v vs ih =>
      intro l hl
      simp only [List.mapM_cons, Option.bind_eq_bind, Option.bind_eq_some_iff, Option.pure_def,
        Option.some.injEq] at hl
      obtain ⟨a, ha, l, hl, rfl⟩ := hl
      exact List.forall_mem_cons.mpr ⟨h v a ha, ih l hl⟩
  cases v with
  | arr vs => exact hmap vs l hl
  | _ => cases hl

theorem fitsLink_of_deserialize {l : DeviceLinkWire} (h : deserialize v = some l) : FitsLink l := by
  refine Yields.record ?_ h
  refine .bind .any fun member _ => .bind .any fun device _ => .bind .any fun wallet _ => ?_
  refine .bind (.field (fun v n => lt_of_uint) (by simp)) fun index hindex => ?_
  refine .bind .any fun label _ => ?_
  refine .bind (.field (fun v n => lt_of_uint) (by simp)) fun issuedAt hissued => ?_
  refine .bind .any fun memberSig _ => .bind .any fun deviceSig _ => ?_
  exact .bind .any fun walletSig _ => .pure ⟨hindex, hissued⟩

theorem revokedAt_lt_of_deserialize {r : RevocationWire} (h : deserialize v = some r) :
    r.revokedAt < 2 ^ 64 := by
  refine Yields.record (P := fun r : RevocationWire => r.revokedAt < 2 ^ 64) ?_ h
  refine .bind .any fun member _ => .bind .any fun device _ => ?_
  refine .bind (.field (fun v n => lt_of_uint) (by simp)) fun revokedAt hrevoked => ?_
  exact .bind .any fun memberSig _ => .pure hrevoked

theorem yields_requestFields (op : String) : Yields FitsRequest (requestFields op) := by
  unfold requestFields
  split
  case h_1 =>
    refine .bind .any fun group _ => .bind .any fun roster _ => ?_
    refine .bind (.field (fun v l => forall_of_deserialize_list fun v a =>
      fitsLink_of_deserialize) ?_) fun devices hdevices => ?_
    · rintro l hl a ha
      cases hl
      cases ha
    refine .bind (.field (fun v l => forall_of_deserialize_list fun v a =>
      revokedAt_lt_of_deserialize) ?_) fun revocations hrevocations => ?_
    · rintro l hl a ha
      cases hl
      cases ha
    exact .pure ⟨hdevices, hrevocations⟩
  case h_9 =>
    refine .bind .any fun group _ => ?_
    refine .bind (P := fun n => n < 2 ^ 64) (.field (fun v n => lt_of_uint) ?_) fun offset ho => ?_
    · rintro n hn
      cases hn
      decide
    refine .bind (P := fun limit => ∀ n ∈ limit, n < 2 ^ 64) (.field ?_ ?_) fun limit hl => ?_
    · intro v limit hv n hn
      cases hn
      unfold requestFields.optionalLimit at hv
      split at hv
      · cases hv
      · obtain ⟨n, hn, heq⟩ := Option.map_eq_some_iff.mp hv
        cases heq
        exact lt_of_uint hn
    · simp
    exact .pure ⟨ho, hl⟩
  case h_7 => exact .bind .any fun group _ => .bind .any fun cid _ => .pure trivial
  case h_11 => exact .bind .any fun group _ => .bind .any fun seed _ => .pure trivial
  case h_12 => exact nofun
  all_goals exact .map fun group => trivial

theorem fitsRequest_of_deserialize {req : Request} (h : deserialize v = some req) :
    FitsRequest req :=
  Yields.record (.bind .any fun op _ => yields_requestFields op) h

theorem roundTrips_link {l : DeviceLinkWire} (h : FitsLink l) : RoundTrips (d + 1) l := by
  obtain ⟨hindex, hissued⟩ := h
  constructor
  · apply Value.Fits.obj
    simp [Value.Fits.str, Value.Fits.num (lt_of_lt_32 hindex), Value.Fits.num hissued]
  · change record deviceLinkFields (.obj _) = _
    simp [deviceLinkFields, Serde.record, required, Serde.field, pick, under, uint_of_lt hindex,
      uint_of_lt hissued]

theorem roundTrips_revocation {r : RevocationWire} (h : r.revokedAt < 2 ^ 64) :
    RoundTrips (d + 1) r := by
  constructor
  · apply Value.Fits.obj
    simp [Value.Fits.str, Value.Fits.num h]
  · change record revocationFields (.obj _) = _
    simp [revocationFields, Serde.record, required, Serde.field, pick, under, uint_of_lt h]

/-- A roster, as a client writes it. -/
def writtenRoster (roster : Entries) : Value :=
  .arr (roster.map fun e => .arr [.str e.1, .str e.2])

theorem fits_writtenRoster (roster : Entries) : (writtenRoster roster).Fits (d + 2) := by
  apply Value.Fits.arr
  intro v hv
  obtain ⟨e, _, rfl⟩ := List.mem_map.mp hv
  apply Value.Fits.arr
  simp [Value.Fits.str]

theorem deserialize_writtenRoster (roster : Entries) :
    deserialize (writtenRoster roster) = some roster := by
  change (roster.map _).mapM deserialize = some roster
  induction roster with
  | nil => rfl
  | cons e roster ih =>
    rw [List.map_cons, List.mapM_cons, ih]
    rfl

/-- All fields of a request, as a client writes them. -/
def written : Request → List (String × Value)
  | .setRoster group roster devices revocations => [("op", .str "setRoster"),
      ("group", .str group), ("roster", writtenRoster roster), ("devices", serialize devices),
      ("revocations", serialize revocations)]
  | .devices group => [("op", .str "devices"), ("group", .str group)]
  | .join group => [("op", .str "join"), ("group", .str group)]
  | .leave group => [("op", .str "leave"), ("group", .str group)]
  | .status group => [("op", .str "status"), ("group", .str group)]
  | .peers group => [("op", .str "peers"), ("group", .str group)]
  | .shareFile group cid => [("op", .str "shareFile"), ("group", .str group), ("cid", .str cid)]
  | .poll group => [("op", .str "poll"), ("group", .str group)]
  | .sharedFiles group offset limit => [("op", .str "sharedFiles"), ("group", .str group),
      ("offset", .num offset), ("limit", limit.elim .null .num)]
  | .seed group => [("op", .str "seed"), ("group", .str group)]
  | .addSeed group seed => [("op", .str "addSeed"), ("group", .str group), ("seed", .str seed)]

theorem read_written {req : Request} (h : FitsRequest req) :
    (Value.obj (written req)).Fits (d + 4) ∧ deserialize (.obj (written req)) = some req := by
  change _ ∧ record (required "op" >>= requestFields) (.obj _) = _
  cases req with
  | setRoster group roster devices revocations =>
    obtain ⟨hdevices, hrevocations⟩ := h
    obtain ⟨hfits, hread⟩ := roundTrips_list (d := d + 2) fun l hl => roundTrips_link (hdevices l hl)
    obtain ⟨hfits', hread'⟩ :=
      roundTrips_list (d := d + 2) fun r hr => roundTrips_revocation (hrevocations r hr)
    have hroster : (writtenRoster roster).Fits (d + 3) := fits_writtenRoster roster
    constructor
    · apply Value.Fits.obj
      simp [written, Value.Fits.str, hroster, hfits, hfits']
    · simp [written, requestFields, Serde.record, required, defaulted, Serde.field, pick, under,
        deserialize_writtenRoster, hread, hread']
  | sharedFiles group offset limit =>
    obtain ⟨hoffset, hlimit⟩ := h
    constructor
    · apply Value.Fits.obj
      cases limit with
      | none => simp [written, Value.Fits.str, Value.Fits.num hoffset, Value.Fits.null]
      | some n => simp [written, Value.Fits.str, Value.Fits.num hoffset, Value.Fits.num (hlimit n rfl)]
    · cases limit with
      | none => simp [written, requestFields, requestFields.optionalLimit, Serde.record, required,
          Serde.field, pick, under, uint_of_lt hoffset]
      | some n => simp [written, requestFields, requestFields.optionalLimit, Serde.record, required,
          Serde.field, pick, under, uint_of_lt hoffset, uint_of_lt (hlimit n rfl)]
  | _ =>
    constructor
    · apply Value.Fits.obj
      simp [written, Value.Fits.str]
    · simp [written, requestFields, Serde.record, required, Serde.field, pick, under]

end Requests

section Spelling

variable {α β : Type} {names : List String} {p : Reader α}

def requestNames : List String :=
  ["op", "group", "roster", "devices", "revocations", "cid", "offset", "limit", "seed"]

/-- What a field that is left out stands for. -/
def leftOut : List (String × Value) :=
  [("devices", .arr []), ("revocations", .arr []), ("offset", .num 0), ("limit", .null)]

/-- The same values, or one that may as well be left out. -/
inductive Agree (name : String) : List Value → List Value → Prop where
  | perm {vs ws : List Value} (h : vs.Perm ws) : Agree name vs ws
  | leftOut {v : Value} (h : (name, v) ∈ leftOut) : Agree name [v] []

/-- A reader to which only these names matter. -/
def LooksAt (names : List String) (p : Reader α) : Prop :=
  ∀ fs gs, (∀ name ∈ names, Agree name (under name fs) (under name gs)) →
    ∃ o : Option α, p (.named fs) = o.map (fun a => (a, .named fs)) ∧
      p (.named gs) = o.map fun a => (a, .named gs)

theorem LooksAt.pure (a : α) : LooksAt names (pure a) := fun _ _ _ => ⟨some a, rfl, rfl⟩

theorem LooksAt.fail : LooksAt names (fun _ => none : Reader α) := fun _ _ _ => ⟨none, rfl, rfl⟩

theorem LooksAt.bind (hp : LooksAt names p) {q : α → Reader β} (hq : ∀ a, LooksAt names (q a)) :
    LooksAt names (p >>= q) := by
  intro fs gs h
  obtain ⟨o, hfs, hgs⟩ := hp fs gs h
  rw [bind_apply, bind_apply, hfs, hgs]
  cases o with
  | none => exact ⟨none, rfl, rfl⟩
  | some a => exact hq a fs gs h

theorem LooksAt.map (hp : LooksAt names p) (f : α → β) : LooksAt names (f <$> p) := by
  rw [map_eq_pure_bind]
  exact hp.bind fun a => .pure (f a)

theorem pick_agree {read : Value → Option α} {default : Option α} {name : String}
    {vs ws : List Value} (h : Agree name vs ws)
    (hdefault : ∀ v, (name, v) ∈ leftOut → read v = default) :
    pick read default vs = pick read default ws := by
  cases h with
  | leftOut hv => exact hdefault _ hv
  | perm h =>
    obtain _ | ⟨v, _ | ⟨v', vs⟩⟩ := vs
    · rw [h.nil_eq]
    · rw [List.singleton_perm.mp h]
    · obtain ⟨w, w', ws, rfl⟩ : ∃ w w' ws', ws = w :: w' :: ws' := by
        have hlen := h.length_eq
        obtain _ | ⟨w, _ | ⟨w', ws⟩⟩ := ws
        · cases hlen
        · cases hlen
        · exact ⟨w, w', ws, rfl⟩
      rfl

theorem LooksAt.field {read : Value → Option α} {default : Option α} {name : String}
    (hname : name ∈ names) (hdefault : ∀ v, (name, v) ∈ leftOut → read v = default) :
    LooksAt names (field read default name) := by
  intro fs gs h
  exact ⟨pick read default (under name fs), rfl, by
    rw [Serde.field, pick_agree (h name hname) hdefault]⟩

theorem LooksAt.required [Deserialize α] {name : String} (hname : name ∈ names)
    (hpresent : ∀ v, (name, v) ∉ leftOut) : LooksAt names (required name : Reader α) :=
  .field hname fun v hv => absurd hv (hpresent v)

theorem looksAt_requestFields (op : String) : LooksAt requestNames (requestFields op) := by
  have hstring : ∀ name ∈ ["group", "cid", "seed"],
      LooksAt requestNames (required name : Reader String) := by
    intro name hname
    apply LooksAt.required
    · revert name
      decide
    · simp only [List.mem_cons, List.not_mem_nil, or_false] at hname
      obtain rfl | rfl | rfl := hname <;> simp [leftOut]
  have hgroup := hstring "group" (by decide)
  unfold requestFields
  split
  · apply hgroup.bind
    intro group
    apply LooksAt.bind (.required (by decide) (by simp [leftOut]))
    intro roster
    apply LooksAt.bind (.field (by decide) ?_)
    · intro devices
      apply LooksAt.bind (.field (by decide) ?_)
      · exact fun revocations => .pure _
      · simp [leftOut, deserialize]
    · simp [leftOut, deserialize]
  · exact hgroup.map _
  · exact hgroup.map _
  · exact hgroup.map _
  · exact hgroup.map _
  · exact hgroup.map _
  · apply hgroup.bind
    intro group
    exact (hstring "cid" (by decide)).bind fun cid => .pure _
  · exact hgroup.map _
  · apply hgroup.bind
    intro group
    apply LooksAt.bind (.field (by decide) ?_)
    · intro offset
      apply LooksAt.bind (.field (by decide) ?_)
      · exact fun limit => .pure _
      · simp [leftOut, requestFields.optionalLimit]
    · simp [leftOut, uint]
  · exact hgroup.map _
  · apply hgroup.bind
    intro group
    exact (hstring "seed" (by decide)).bind fun seed => .pure _
  · exact .fail

/-- The server's use of a JSON library. -/
def serdeJson (C : Codec) : Json where
  parseAuth t := (C.read t).bind fun v => (deserialize v : Option Auth).map (·.token)
  parseRequest t :=
    match (C.read t).bind deserialize with
    | some req => .ok req
    | none => .error (C.explain t)
  encode resp := some (C.print (serialize resp))

/-- What a request reads as is up to the fields it knows, in whatever order they come and whatever
else there is; a list or a number that may be left out is then read as it stands for. With all its
fields a request is read as it was written, and nothing is read whose numbers are out of range. -/
theorem request_reads_its_fields :
    (∀ fs gs, (∀ name ∈ requestNames, Agree name (under name fs) (under name gs)) →
      (deserialize (.obj fs) : Option Request) = deserialize (.obj gs)) ∧
    (∀ req, FitsRequest req → deserialize (.obj (written req)) = some req ∧
      ∀ C, (serdeJson C).parseRequest (C.print (.obj (written req))) = .ok req) ∧
    ∀ v req, (deserialize v : Option Request) = some req → FitsRequest req := by
  refine ⟨fun fs gs h => ?_, fun req h => ?_, fun v req h => fitsRequest_of_deserialize h⟩
  · have hop : LooksAt requestNames (required "op" : Reader String) :=
      .required (by decide) (by simp [leftOut])
    obtain ⟨o, hfs, hgs⟩ := hop.bind looksAt_requestFields fs gs h
    change ((required "op" >>= requestFields) (.named fs)).map (·.1) =
      ((required "op" >>= requestFields) (.named gs)).map (·.1)
    rw [hfs, hgs, Option.map_map, Option.map_map]
    rfl
  · have hwritten : (Value.obj (written req)).Fits maxDepth ∧ _ := read_written h
    refine ⟨hwritten.2, fun C => ?_⟩
    simp only [serdeJson, C.read_print hwritten.1, Option.bind_some, hwritten.2]

/-- A roster request with everything in it, and one by a client that knows no devices. -/
def fullSetRoster : List (String × Value) :=
  [("note", .null), ("revocations", .arr []), ("roster", .arr []), ("devices", .arr []),
    ("group", .str "group"), ("op", .str "setRoster")]

def bareSetRoster : List (String × Value) :=
  [("op", .str "setRoster"), ("group", .str "group"), ("roster", .arr [])]

theorem request_reads_its_fields_sample :
    (deserialize (.obj fullSetRoster) : Option Request) = some (.setRoster "group" [] [] []) := by
  have hread : (deserialize (.obj fullSetRoster) : Option Request) =
      deserialize (.obj bareSetRoster) := by
    apply request_reads_its_fields.1
    intro name hname
    simp only [requestNames, List.mem_cons, List.not_mem_nil, or_false] at hname
    obtain rfl | rfl | rfl | rfl | rfl | rfl | rfl | rfl | rfl := hname
    case inr.inr.inr.inl => exact .leftOut (by simp [leftOut])
    case inr.inr.inr.inr.inl => exact .leftOut (by simp [leftOut])
    all_goals exact .perm (.of_eq rfl)
  exact hread.trans rfl

end Spelling

section Ranges

variable {T : Type} [MeshTransport T] {V : LinkVerifier} {d d₀ : ClusterDaemon T}

/-- The numbers of the links on record are of their types. -/
def InRange (d : ClusterDaemon T) : Prop :=
  ∀ g, ∀ l ∈ (registryOf d g).listLinks, l.index < 2 ^ 32 ∧ l.issuedAt < 2 ^ 64

omit [MeshTransport T] in
theorem inRange_of_initial (h : Initial d) : InRange d := by
  intro g l hl
  have hnew : registryOf d g = .new := by
    simp only [registryOf, h.deviceState]
    rfl
  rw [hnew] at hl
  simp [DeviceRegistry.listLinks, DeviceRegistry.new] at hl

theorem listLinks_update {reg : DeviceRegistry} {links : List SignedDeviceLink}
    {revocations : List SignedRevocation} {P : DeviceLink → Prop}
    (hreg : ∀ l ∈ reg.listLinks, P l) (hlinks : ∀ s ∈ links, ∀ c, body V s = some c → P c) :
    ∀ l ∈ (reg.update links revocations V).2.listLinks, P l := by
  intro l hl
  by_cases hcap : WithinCap links revocations
  · obtain ⟨device, hl⟩ := mem_listLinks_iff.mp hl
    rw [getElem?_update_links hcap, resolve_eq_some_iff] at hl
    obtain ⟨⟨s, hs, hbody⟩, _⟩ := mem_bodiesFor.mp (mem_of_latest issueKey hl.1)
    exact hlinks s hs l hbody
  · rw [update_of_not_withinCap hcap] at hl
    exact hreg l hl

/-- The body of a link has the numbers of the link. -/
theorem numbers_of_body {s : SignedDeviceLink} {c : DeviceLink} (h : body V s = some c) :
    c.index = s.link.index ∧ c.issuedAt = s.link.issuedAt := by
  rw [body] at h
  split at h
  · simp only [SignedDeviceLink.canon, DeviceLink.new, Option.bind_eq_bind,
      Option.bind_eq_some_iff, Option.ite_none_left_eq_some, Option.some.injEq] at h
    obtain ⟨_, _, _, _, _, _, _, _, rfl⟩ := h
    exact ⟨rfl, rfl⟩
  · cases h

theorem InRange.handleRequest (h : InRange d) {req : Request} (hreq : FitsRequest req) :
    InRange (handleRequest V d req).2 := by
  refine registry_effect (P := fun reg => ∀ l ∈ reg.listLinks, l.index < 2 ^ 32 ∧ l.issuedAt < 2 ^ 64)
    ?_ h (effect_step V d (.request req))
  rintro g roster links revocations reg heq hreg
  cases heq
  apply listLinks_update hreg
  intro s hs c hc
  obtain ⟨l, hl, rfl⟩ := List.mem_map.mp hs
  obtain ⟨hindex, hissued⟩ := numbers_of_body hc
  rw [hindex, hissued]
  exact hreq.1 l hl

/-- The counts of a response are of their types. -/
def CountsFit : Response → Prop
  | .status online total _ => online < 2 ^ 64 ∧ total < 2 ^ 64
  | .sharedFiles _ _ total => total < 2 ^ 64
  | .seeded dialing => dialing < 2 ^ 64
  | _ => True

theorem fitsResponse_of_counts (h : InRange d) {req : Request} (hreq : FitsRequest req)
    (hcounts : CountsFit (handleRequest V d req).1) : FitsResponse (handleRequest V d req).1 := by
  cases req with
  | devices group =>
    obtain ⟨connected, hdevices⟩ := exists_devices_eq d group
    intro m hm v hv
    change m ∈ (d.devices group).1 at hm
    rw [hdevices] at hm
    obtain ⟨_, hrow, rfl⟩ := List.mem_map.mp hm
    cases hstate : d.deviceState[group]? with
    | none => simp [hstate] at hrow
    | some state =>
      rw [hstate] at hrow
      obtain ⟨member, role, hrole, _, rfl⟩ := mem_deviceRoster.mp hrow
      obtain ⟨l, hl, rfl⟩ : ∃ l ∈ state.registry.devicesOf member,
          ⟨l.device, l.index, l.label, l.issuedAt, connected.contains l.device⟩ = v := by
        simpa [MemberDevicesWire.fromCore, row] using hv
      have hregistry : registryOf d group = state.registry := by simp [registryOf, hstate]
      apply h group l
      rw [hregistry]
      exact ((mem_devicesOf (canonical_of_roleOf hrole)).mp hl).1
  | sharedFiles group offset limit => exact ⟨hreq.1, hcounts⟩
  | setRoster | join | shareFile | seed | addSeed =>
    simp only [handleRequest] at hcounts ⊢
    split at hcounts <;> exact hcounts
  | _ => exact hcounts

theorem fits_replies {log : List (Nat × Request)} (h : InRange d)
    (hlog : ∀ e ∈ log, FitsRequest e.2) (hcounts : ∀ e ∈ replies V d log, CountsFit e.2) :
    ∀ e ∈ replies V d log, FitsResponse e.2 := by
  induction log generalizing d with
  | nil => exact fun e he => absurd he List.not_mem_nil
  | cons e log ih =>
    obtain ⟨i, req⟩ := e
    rw [List.forall_mem_cons] at hlog
    rw [replies, List.forall_mem_cons] at hcounts ⊢
    exact ⟨fitsResponse_of_counts h hlog.1 hcounts.1, ih (h.handleRequest hlog.1) hlog.2 hcounts.2⟩

end Ranges

section Clients

variable {T : Type} [MeshTransport T] {C : Codec} {V : LinkVerifier} {bearer : String}
  {d₀ : ClusterDaemon T} {s : State T}

/-- What a client makes of a line. -/
def replyOf (C : Codec) (line : String) : Option Response := (C.read line).bind deserialize

theorem replyOf_print {resp : Response} (h : FitsResponse resp) :
    replyOf C (C.print (serialize resp)) = some resp := by
  obtain ⟨hfits, hread⟩ : RoundTrips maxDepth resp := roundTrips_response h
  rw [replyOf, C.read_print hfits, Option.bind_some, hread]

theorem no_newline_print {resp : Response} (h : FitsResponse resp) :
    '\n' ∉ (C.print (serialize resp)).toList := by
  intro hc
  have hle := C.printable (roundTrips_response h).1 hc
  revert hle
  decide

/-- The requests that hold the lock are read from lines. -/
theorem parsed_of_linear {J : Json} {bearer : String} {d₀ : ClusterDaemon T} {s : State T}
    (h : Linear J V bearer d₀ s) : ∀ e ∈ s.log, ∃ t, J.parseRequest t = .ok e.2 := by
  rintro ⟨i, req⟩ he
  have hmem : req ∈ ofConn s.log i :=
    List.mem_map.mpr ⟨(i, req), List.mem_filter.mpr ⟨he, by simp⟩, rfl⟩
  cases hc : s.conns i with
  | none =>
    rw [(h.unopened i hc).1] at hmem
    cases hmem
  | some c =>
    obtain ⟨hno, hyes⟩ := (h.stands i c hc).summary
    by_cases hauth : Authenticated J bearer c.sent
    · obtain ⟨_, hnone, _⟩ | ⟨ts, out, _, hans, _⟩ := hyes hauth
      · rw [hnone] at hmem
        cases hmem
      · rw [hans.requests, requestsOf, List.mem_filterMap] at hmem
        obtain ⟨t, _, ht⟩ := hmem
        refine ⟨t, ?_⟩
        cases hp : J.parseRequest t with
        | ok req' =>
          rw [hp] at ht
          cases ht
          rfl
        | error e =>
          rw [hp] at ht
          cases ht
    · rw [(hno hauth).1] at hmem
      cases hmem

theorem fitsRequest_of_parsed {t : String} {req : Request}
    (h : (serdeJson C).parseRequest t = .ok req) : FitsRequest req := by
  simp only [serdeJson] at h
  split at h
  · next req' hread =>
    cases h
    obtain ⟨v, _, hv⟩ := Option.bind_eq_some_iff.mp hread
    exact fitsRequest_of_deserialize hv
  · cases h

theorem fits_of_answered {J : Json} {ts : List String} {reqs : List Request}
    {replies out : List Response} (h : Answered J ts reqs replies out)
    (hfits : ∀ resp ∈ replies, FitsResponse resp) : ∀ resp ∈ out, FitsResponse resp := by
  induction h with
  | nil => exact hfits
  | request _ _ resp ih =>
    simp only [List.forall_mem_append] at hfits ⊢
    exact ⟨ih hfits.1, hfits.2⟩
  | unreadable _ _ ih =>
    simp only [List.forall_mem_append, List.forall_mem_singleton]
    exact ⟨ih hfits, trivial⟩

/-- Whatever the order in which the threads run, a client that has passed the handshake reads in the
lines of its closed connection one response for each of its own lines that is not blank, in order:
those that its requests got at their places in the order of all requests, and errors about the lines
that are none. -/
theorem clients_read_their_replies {acts : List Action} (hd : InRange d₀)
    (h : Steps (enabled (State.step (serdeJson C) V bearer)) (start d₀) acts s)
    (hcounts : ∀ e ∈ replies V d₀ s.log, CountsFit e.2) {i : Nat} {c : Conn}
    (hc : s.conns i = some c) (hclosed : c.phase = .closed)
    (hauth : Authenticated (serdeJson C) bearer c.sent) :
    ∃ out written, Answered (serdeJson C) (requestTexts c.sent) (ofConn s.log i)
        (ofConn (replies V d₀ s.log) i) out ∧
      c.written = ready :: written ∧ (∀ line ∈ written, '\n' ∉ line.toList) ∧
        written.map (replyOf C) = (out ++ if stops (lines newline c.sent).tail then
          [Response.error "request too large"] else []).map some := by
  have hlinear : Linear (serdeJson C) V bearer d₀ s :=
    h.invariant (fun _ _ _ => .step) linear_start
  have hfits : ∀ e ∈ replies V d₀ s.log, FitsResponse e.2 := by
    refine fits_replies hd (fun e he => ?_) hcounts
    obtain ⟨t, ht⟩ := parsed_of_linear hlinear e he
    exact fitsRequest_of_parsed ht
  have hstands := hlinear.stands i c hc
  simp only [Stands, hclosed] at hstands
  obtain ⟨hn, _⟩ | ⟨_, out, hans, hw⟩ := hstands
  · exact absurd hauth hn
  have hout : ∀ resp ∈ out ++ (if stops (lines newline c.sent).tail then
      [Response.error "request too large"] else []), FitsResponse resp := by
    have hanswered : ∀ resp ∈ out, FitsResponse resp := by
      apply fits_of_answered hans
      intro resp hresp
      obtain ⟨e, he, rfl⟩ := List.mem_map.mp hresp
      exact hfits e (List.mem_filter.mp he).1
    rw [List.forall_mem_append]
    refine ⟨hanswered, ?_⟩
    split <;> simp [FitsResponse]
  generalize hall : out ++ (if stops (lines newline c.sent).tail then
      [Response.error "request too large"] else []) = all at hout
  have hwritten : c.written = ready :: all.map fun resp => C.print (serialize resp) := by
    rw [hw, ← hall, List.map_append]
    split <;> rfl
  refine ⟨out, _, hans, hwritten, ?_, ?_⟩
  · intro line hline
    obtain ⟨resp, hresp, rfl⟩ := List.mem_map.mp hline
    exact no_newline_print (hout resp hresp)
  · rw [hall, List.map_map]
    exact List.map_congr_left fun resp hresp => replyOf_print (hout resp hresp)

end Clients

section Sample

def isClosed : Phase → Bool
  | .closed => true
  | _ => false

/-- A client says who it is, joins a group and hangs up. -/
def joiningClient : List Action :=
  [.accept 0 true (bytes "\x7b\"token\":\"key\"\x7d\n\x7b\"op\":\"join\",\"group\":\"g\"\x7d\n"),
    .read 0, .read 0, .handle 0, .write 0, .read 0]

theorem clients_read_their_replies_sample :
    ∃ s c resp line, Steps (enabled (State.step (serdeJson compact) Registry.plainVerifier "key"))
        (start Admission.nodeDaemon) joiningClient s ∧ s.conns 0 = some c ∧
      c.written = [ready, line] ∧ replyOf compact line = some resp := by
  have hrun : (joiningClient.foldlM (State.step (serdeJson compact) Registry.plainVerifier "key")
      (start Admission.nodeDaemon)).any (fun s =>
        (replies Registry.plainVerifier Admission.nodeDaemon s.log).all (fun e => e.2 == .ok) &&
          (s.conns 0).any fun c => isClosed c.phase && c.written.length == 2 &&
            (lines newline c.sent).head?.any fun first => good maxLine first &&
              (serdeJson compact).parseAuth (Connection.text first) == some "key") = true := by
    decide +kernel
  obtain ⟨s, hs, hprop⟩ := (Option.any_eq_true _ _).mp hrun
  obtain ⟨hok, hconn⟩ := Bool.and_eq_true_iff.mp hprop
  obtain ⟨c, hc, hprop⟩ := (Option.any_eq_true _ _).mp hconn
  simp only [Bool.and_eq_true, beq_iff_eq] at hprop
  obtain ⟨⟨hphase, hlen⟩, hfirst⟩ := hprop
  obtain ⟨first, hhead, hgood⟩ := (Option.any_eq_true _ _).mp hfirst
  obtain ⟨hgood, hauth⟩ := Bool.and_eq_true_iff.mp hgood
  have hclosed : c.phase = .closed := by
    revert hphase
    cases c.phase <;> simp [isClosed]
  have hcounts : ∀ e ∈ replies Registry.plainVerifier Admission.nodeDaemon s.log,
      CountsFit e.2 := by
    intro e he
    rw [beq_iff_eq.mp (List.all_eq_true.mp hok e he)]
    trivial
  have hsteps := steps_enabled_iff.mpr hs
  obtain ⟨out, written, _, hw, _, hread⟩ := clients_read_their_replies
    (inRange_of_initial (initial_withFactory _ _)) hsteps hcounts hc hclosed
    ⟨first, hhead, hgood, beq_iff_eq.mp hauth⟩
  obtain ⟨line, rfl⟩ : ∃ line, written = [line] := by
    rw [hw, List.length_cons] at hlen
    exact List.length_eq_one_iff.mp (by omega)
  obtain ⟨resp, _, hresp⟩ := List.map_eq_singleton_iff.mp hread.symm
  exact ⟨s, c, resp, line, hsteps, hc, hw, hresp.symm⟩

end Sample

end CitrateCluster.WireFormat
