import CitrateCluster.Directory
import CitrateCluster.Serve
import CitrateCluster.Startup
import Mathlib.Data.Nat.Bitwise

namespace CitrateCluster.ControlSocket

open Text Device Transport Daemon Ipc Server Runs Serve Directory Startup

section Checks

/-- An error of the program's own, or one of the operating system. -/
inductive IoError where
  | permissionDenied (msg : String)
  | os

def checkSocketDirFor (parent : String) (md : Stat) (euid : Nat) : Except IoError Unit := do
  refuseIf (md.owner ≠ euid ∧ md.owner ≠ 0) (.permissionDenied ("socket dir " ++ parent ++
    " is owned by uid " ++ toString md.owner ++ " (not us or root) — fail closed"))
  refuseIf (md.mode &&& 0o022 ≠ 0 ∧ md.mode &&& 0o1000 = 0) (.permissionDenied ("socket dir " ++
    parent ++ " is group/world-writable without the sticky bit (mode " ++
    octal (md.mode &&& 0o7777) ++ ") — fail closed"))

def peerUidDecision (rc : Int) (peerUid euid : Nat) : Bool := rc == 0 && peerUid == euid

/-- The mode of a new file under a umask. -/
def masked (mode umask : Nat) : Nat := mode ^^^ (mode &&& umask)

theorem checkSocketDirFor_ok_iff {parent : String} {md : Stat} {euid : Nat} :
    checkSocketDirFor parent md euid = .ok () ↔ Guarded euid md := by
  have hsticky : md.mode &&& 0o1000 = 0 ↔ md.mode.testBit 9 = false := by
    rw [show 0o1000 = 2 ^ 9 from rfl, Nat.and_two_pow]
    cases md.mode.testBit 9 <;> simp
  simp only [checkSocketDirFor, bind_eq_ok_iff, refuseIf_eq_ok_iff, hsticky]
  constructor
  · rintro ⟨_, howner, hclosed⟩
    refine ⟨?_, ?_⟩
    · by_contra hn
      exact howner ⟨fun h => hn (.inl h), fun h => hn (.inr h)⟩
    · by_contra hn
      exact hclosed ⟨fun h => hn (.inl h), by simpa using fun h => hn (.inr h)⟩
  · rintro ⟨howned, hclosed⟩
    refine ⟨(), fun h => ?_, fun h => ?_⟩
    · exact howned.elim h.1 h.2
    · exact hclosed.elim h.1 (by simp [h.2])

end Checks

section Serving

/-- The daemon's socket: the directory as it is printed, the name in it, and whom it runs as. -/
structure Endpoint where
  parent : String
  name : String
  me : Cred

/-- How far `serve` has come, with the file that it has bound. -/
inductive Phase where
  | starting
  | removed
  | checked
  | bound (i : Nat)
  | serving (i : Nat)
  | failed (e : IoError)

def Phase.socket : Phase → Option Nat
  | .bound i | .serving i => some i
  | _ => none

/-- The server behind its socket, and the user at the other end of each connection. -/
structure State (T : Type) where
  dir : Dir
  phase : Phase
  server : Serve.State T
  peers : Nat → Option Nat

/-- The daemon moves on, and a file that it makes gets a number and a group; any process calls the
system; a process connects, with the result of the credentials call; a thread of the server runs. -/
inductive Action where
  | setUp (i group : Nat)
  | file (c : Cred) (op : Op)
  | connect (n : Nat) (c : Cred) (rc : Int) (sent : List UInt8)
  | thread (a : Serve.Action)

namespace State

variable {T : Type} (E : Endpoint)

/-- The next step of `serve`, up to the accept loop. -/
def setUp (s : State T) (i group : Nat) : Option (State T) :=
  match s.phase with
  | .starting =>
    -- A stale file that cannot be removed is left to the bind to fail on.
    some { s with dir := (s.dir.apply E.me (.unlink E.name false)).getD s.dir, phase := .removed }
  | .removed =>
    match checkSocketDirFor E.parent s.dir.stat E.me.uid with
    | .ok _ => some { s with phase := .checked }
    | .error e => some { s with phase := .failed e }
  | .checked =>
    match s.dir.apply E.me (.create E.name i group (masked 0o777 0o177) false) with
    | some dir => some { s with dir, phase := .bound i }
    | none => some { s with phase := .failed .os }
  | .bound i =>
    match harden s.dir with
    | some dir => some { s with dir, phase := .serving i }
    | none => some { s with phase := .failed .os }
  | _ => none
where
  /-- The mode is set by name, on what the name stands for by now. -/
  harden (d : Dir) : Option Dir := do
    let i ← d.names E.name
    let p ← d.files i
    d.apply E.me (.setFile i { p with mode := 0o600 })

/-- Whoever may write to the socket, by whatever name, connects once it listens. -/
def reachable (s : State T) (c : Cred) : Bool :=
  (s.phase.socket.bind s.dir.files).any fun p => c.may p .write

variable [MeshTransport T]

def step (J : Json) (V : LinkVerifier) (bearer : String) (s : State T) : Action → Option (State T)
  | .setUp i group => s.setUp E i group
  | .file c op => (s.dir.apply c op).map fun dir => { s with dir }
  | .connect n c rc sent =>
    if s.reachable c then
      (s.server.step J V bearer (.accept n (peerUidDecision rc c.uid E.me.uid) sent)).map
        fun server => { s with server, peers := Function.update s.peers n (some c.uid) }
    else none
  | .thread a =>
    match s.phase, a with
    | .serving _, .accept _ _ _ => none
    | .serving _, a => (s.server.step J V bearer a).map fun server => { s with server }
    | _, _ => none

end State

end Serving

section Files

variable {T : Type} {E : Endpoint} {d d' : Dir} {ph : Phase} {s s' : State T}

/-- The name stands for a file of the daemon's that nobody else has access to. -/
def Private (E : Endpoint) (d : Dir) (i : Nat) : Prop :=
  d.names E.name = some i ∧ ∃ group, d.files i = some ⟨E.me.uid, group, 0o600, false⟩

/-- From the check on the directory is guarded, and the socket is private from the bind on. -/
inductive Secured (E : Endpoint) (d : Dir) : Phase → Prop where
  | starting : Secured E d .starting
  | removed : Secured E d .removed
  | checked (hg : Guarded E.me.uid d.stat) : Secured E d .checked
  | bound {i : Nat} (hg : Guarded E.me.uid d.stat) (hi : Private E d i) : Secured E d (.bound i)
  | serving {i : Nat} (hg : Guarded E.me.uid d.stat) (hi : Private E d i) : Secured E d (.serving i)
  | failed (e : IoError) : Secured E d (.failed e)

theorem Secured.isPrivate (h : Secured E d ph) {i : Nat} (hi : ph.socket = some i) :
    Private E d i := by
  cases h with
  | bound _ hp =>
    cases hi
    exact hp
  | serving _ hp =>
    cases hi
    exact hp
  | _ => cases hi

theorem private_create (hg : Guarded E.me.uid d.stat) {i group : Nat}
    (h : d.apply E.me (.create E.name i group (masked 0o777 0o177) false) = some d') :
    Guarded E.me.uid d'.stat ∧ Private E d' i := by
  simp only [Dir.apply, Option.ite_none_right_eq_some, Option.some.injEq] at h
  obtain ⟨_, rfl⟩ := h
  exact ⟨hg, Function.update_self .., group, Function.update_self ..⟩

theorem private_harden (hg : Guarded E.me.uid d.stat) {i : Nat} (hi : Private E d i) :
    ∃ d', State.setUp.harden E d = some d' ∧ Guarded E.me.uid d'.stat ∧ Private E d' i := by
  obtain ⟨hname, group, hfile⟩ := hi
  refine ⟨{ d with files := Function.update d.files i (some ⟨E.me.uid, group, 0o600, false⟩) }, ?_,
    hg, hname, group, Function.update_self ..⟩
  simp [State.setUp.harden, hname, hfile, Dir.apply, Cred.mayChange]

theorem Secured.setUp (h : Secured E s.dir s.phase) {i group : Nat}
    (hs : s.setUp E i group = some s') :
    Secured E s'.dir s'.phase ∧ s'.server = s.server ∧ s'.peers = s.peers := by
  obtain ⟨d, ph, server, peers⟩ := s
  cases h with
  | starting =>
    cases hs
    exact ⟨.removed, rfl, rfl⟩
  | removed =>
    simp only [State.setUp] at hs
    split at hs
    · next hcheck =>
      cases hs
      exact ⟨.checked (checkSocketDirFor_ok_iff.mp hcheck), rfl, rfl⟩
    · cases hs
      exact ⟨.failed _, rfl, rfl⟩
  | checked hg =>
    simp only [State.setUp] at hs
    split at hs
    · next hcreate =>
      cases hs
      obtain ⟨hg, hi⟩ := private_create hg hcreate
      exact ⟨.bound hg hi, rfl, rfl⟩
    · cases hs
      exact ⟨.failed _, rfl, rfl⟩
  | bound hg hi =>
    obtain ⟨d', hd', hg', hi'⟩ := private_harden hg hi
    simp only [State.setUp, hd'] at hs
    cases hs
    exact ⟨.serving hg' hi', rfl, rfl⟩
  | serving => cases hs
  | failed => cases hs

theorem Private.apply (hg : Guarded E.me.uid d.stat) {c : Cred} (hc : ¬ Trusted E.me.uid c.uid)
    {op : Op} (h : d.apply c op = some d') {i : Nat} (hi : Private E d i) : Private E d' i := by
  obtain ⟨hname, group, hfile⟩ := hi
  obtain ⟨hfile', hname'⟩ := (hg.apply hc h).2 i _ hfile (.inl rfl)
  exact ⟨hname' _ hname, group, hfile'⟩

theorem Secured.file (h : Secured E d ph) {c : Cred} (hc : ¬ Trusted E.me.uid c.uid) {op : Op}
    (hd : d.apply c op = some d') : Secured E d' ph := by
  have hguarded (hg : Guarded E.me.uid d.stat) : Guarded E.me.uid d'.stat :=
    (hg.apply hc hd).1 ▸ hg
  cases h with
  | starting => exact .starting
  | removed => exact .removed
  | checked hg => exact .checked (hguarded hg)
  | bound hg hi => exact .bound (hguarded hg) (hi.apply hg hc hd)
  | serving hg hi => exact .serving (hguarded hg) (hi.apply hg hc hd)
  | failed e => exact .failed e

theorem Secured.trusted (h : Secured E s.dir s.phase) {c : Cred} (hc : s.reachable c) :
    Trusted E.me.uid c.uid := by
  rw [State.reachable] at hc
  cases hi : s.phase.socket with
  | none =>
    rw [hi] at hc
    cases hc
  | some i =>
    obtain ⟨_, group, hfile⟩ := h.isPrivate hi
    rw [hi, Option.bind_some, hfile, Option.any_some] at hc
    by_contra hn
    have hmask : 0o600 &&& 0o022 = 0 := by decide
    have hno : c.may ⟨E.me.uid, group, 0o600, false⟩ .write = false :=
      not_may_of_masked (fun h => hn (.inl h)) (fun h => hn (.inr h)) hmask rfl rfl
    rw [hno] at hc
    cases hc

end Files

section Connections

variable {T : Type} [MeshTransport T] {E : Endpoint} {J : Json} {V : LinkVerifier}
  {bearer : String}

/-- The threads move a connection that was not refused, and log its requests only. -/
theorem moves_of_step {s s' : Serve.State T} {a : Serve.Action}
    (ha : ∀ n ownUid sent, a ≠ .accept n ownUid sent) (h : s.step J V bearer a = some s') :
    ∃ n c c', s.conns n = some c ∧ c.phase ≠ .refused ∧
      s'.conns = Function.update s.conns n (some c') ∧
      (s'.log = s.log ∨ ∃ req, s'.log = s.log ++ [(n, req)]) := by
  cases a with
  | accept n ownUid sent => exact absurd rfl (ha n ownUid sent)
  | read n =>
    simp only [Serve.State.step] at h
    split at h
    · cases h
    · next c hc =>
      split at h
      · next hp =>
        cases h
        exact ⟨n, c, _, hc, by simp [hp], rfl, .inl rfl⟩
      · next hp =>
        cases h
        exact ⟨n, c, _, hc, by simp [hp], rfl, .inl rfl⟩
      · cases h
  | handle n =>
    simp only [Serve.State.step] at h
    split at h
    · cases h
    · next c hc =>
      split at h
      · next req hp =>
        cases h
        exact ⟨n, c, _, hc, by simp [hp], rfl, .inr ⟨req, rfl⟩⟩
      · cases h
  | write n =>
    simp only [Serve.State.step] at h
    split at h
    · cases h
    · next c hc =>
      split at h
      · next resp hp =>
        cases h
        exact ⟨n, c, _, hc, by simp [hp], rfl, .inl rfl⟩
      · cases h
  | fail n =>
    simp only [Serve.State.step] at h
    split at h
    · cases h
    · next c hc =>
      split at h
      · next hp =>
        cases h
        exact ⟨n, c, _, hc, by simp [hp], rfl, .inl rfl⟩
      · next hp =>
        cases h
        exact ⟨n, c, _, hc, by simp [hp], rfl, .inl rfl⟩
      · next resp hp =>
        cases h
        exact ⟨n, c, _, hc, by simp [hp], rfl, .inl rfl⟩
      · cases h

/-- Connections are root's or the daemon's user's, and all but the latter are refused unanswered. -/
structure Owned (me : Nat) (server : Serve.State T) (peers : Nat → Option Nat) : Prop where
  unopened : ∀ n, server.conns n = none → peers n = none
  trusted : ∀ n u, peers n = some u → Trusted me u
  refused : ∀ n c, server.conns n = some c → peers n = some me ∨ c.phase = .refused ∧ c.written = []
  logged : ∀ e ∈ server.log, peers e.1 = some me

variable {me : Nat} {server server' : Serve.State T} {peers : Nat → Option Nat}

theorem Owned.accept (h : Owned me server peers) {n uid : Nat} {rc : Int} {sent : List UInt8}
    (huid : Trusted me uid)
    (hs : server.step J V bearer (.accept n (peerUidDecision rc uid me) sent) = some server') :
    Owned me server' (Function.update peers n (some uid)) := by
  simp only [Serve.State.step, Option.ite_none_right_eq_some, Option.some.injEq,
    Option.isNone_iff_eq_none] at hs
  obtain ⟨hnone, rfl⟩ := hs
  have hpeer := h.unopened n hnone
  constructor
  · intro m (hm : Function.update server.conns n _ m = none)
    by_cases hmn : m = n
    · subst hmn
      rw [Function.update_self] at hm
      cases hm
    · rw [Function.update_of_ne hmn] at hm ⊢
      exact h.unopened m hm
  · intro m u hm
    by_cases hmn : m = n
    · subst hmn
      rw [Function.update_self, Option.some.injEq] at hm
      exact hm ▸ huid
    · rw [Function.update_of_ne hmn] at hm
      exact h.trusted m u hm
  · intro m c (hm : Function.update server.conns n _ m = some c)
    by_cases hmn : m = n
    · subst hmn
      rw [Function.update_self, Option.some.injEq] at hm
      subst hm
      rw [Function.update_self, Option.some.injEq]
      cases hown : peerUidDecision rc uid me with
      | false => exact .inr ⟨rfl, rfl⟩
      | true =>
        rw [peerUidDecision, Bool.and_eq_true, beq_iff_eq, beq_iff_eq] at hown
        exact .inl hown.2
    · rw [Function.update_of_ne hmn] at hm ⊢
      exact h.refused m c hm
  · intro e he
    have hlogged := h.logged e he
    rw [Function.update_of_ne]
    · exact hlogged
    · intro hen
      rw [hen, hpeer] at hlogged
      cases hlogged

theorem Owned.thread (h : Owned me server peers) {a : Serve.Action}
    (ha : ∀ n ownUid sent, a ≠ .accept n ownUid sent)
    (hs : server.step J V bearer a = some server') : Owned me server' peers := by
  obtain ⟨n, c, c', hc, hphase, hconns, hlog⟩ := moves_of_step ha hs
  have hown : peers n = some me := (h.refused n c hc).resolve_right fun hr => hphase hr.1
  refine ⟨fun m hm => ?_, h.trusted, fun m c₀ hm => ?_, fun e he => ?_⟩
  · by_cases hmn : m = n
    · rw [hconns, hmn, Function.update_self] at hm
      cases hm
    · rw [hconns, Function.update_of_ne hmn] at hm
      exact h.unopened m hm
  · by_cases hmn : m = n
    · exact .inl (hmn ▸ hown)
    · rw [hconns, Function.update_of_ne hmn] at hm
      exact h.refused m c₀ hm
  · obtain hlog | ⟨req, hlog⟩ := hlog
    · exact h.logged e (hlog ▸ he)
    · rw [hlog, List.mem_append, List.mem_singleton] at he
      obtain he | rfl := he
      · exact h.logged e he
      · exact hown

end Connections

section Runs

variable {T : Type} {E : Endpoint} {J : Json} {V : LinkVerifier} {bearer : String}
  {d₀ : ClusterDaemon T} {d : Dir} {s s' : State T} {acts : List Action}

/-- A daemon about to serve, with whatever there is in the directory. -/
def start (d₀ : ClusterDaemon T) (d : Dir) : State T :=
  ⟨d, .starting, Serve.start d₀, fun _ => none⟩

/-- The system calls of others are those of users whom the daemon does not trust. -/
def Action.ByStranger (me : Nat) : Action → Prop
  | .file c _ => ¬ Trusted me c.uid
  | _ => True

instance (me : Nat) : (a : Action) → Decidable (a.ByStranger me)
  | .file c _ => inferInstanceAs (Decidable (¬ (c.uid = me ∨ c.uid = 0)))
  | .setUp _ _ | .connect _ _ _ _ | .thread _ => .isTrue trivial

theorem owned_start : Owned E.me.uid (Serve.start d₀) fun _ => none where
  unopened := fun _ _ => rfl
  trusted := nofun
  refused := nofun
  logged := nofun

variable [MeshTransport T]

theorem held_step {a : Action} (ha : a.ByStranger E.me.uid)
    (h : Secured E s.dir s.phase ∧ Owned E.me.uid s.server s.peers)
    (hs : s.step E J V bearer a = some s') :
    Secured E s'.dir s'.phase ∧ Owned E.me.uid s'.server s'.peers := by
  obtain ⟨hsecured, howned⟩ := h
  cases a with
  | setUp i group =>
    obtain ⟨hsecured', hserver, hpeers⟩ := hsecured.setUp hs
    exact ⟨hsecured', hserver ▸ hpeers ▸ howned⟩
  | file c op =>
    obtain ⟨d', hd', rfl⟩ := Option.map_eq_some_iff.mp hs
    exact ⟨hsecured.file ha hd', howned⟩
  | connect n c rc sent =>
    simp only [State.step, Option.ite_none_right_eq_some, Option.map_eq_some_iff] at hs
    obtain ⟨hc, server', hserver, rfl⟩ := hs
    exact ⟨hsecured, howned.accept (hsecured.trusted hc) hserver⟩
  | thread a =>
    simp only [State.step] at hs
    split at hs
    · cases hs
    · next hne =>
      obtain ⟨server', hserver, rfl⟩ := Option.map_eq_some_iff.mp hs
      exact ⟨hsecured, howned.thread (fun n o sent h => hne n o sent h) hserver⟩
    · cases hs

theorem unlink_getD (hname : d.names E.name = none ∨ (d.apply E.me (.unlink E.name false)).isSome) :
    (d.apply E.me (.unlink E.name false)).getD d =
      { d with names := Function.update d.names E.name none } := by
  rw [Dir.apply] at hname ⊢
  split
  · rfl
  · next hno =>
    rw [if_neg hno] at hname
    have hnone := hname.resolve_right (by simp)
    rw [Option.getD_none, ← hnone, Function.update_eq_self]

/-- In a safe directory that it may write to, only a name that it cannot clear keeps the daemon from
serving. -/
theorem serves_undisturbed (hg : Guarded E.me.uid d.stat) (hw : d.writable E.me) {i : Nat}
    (hname : d.names E.name = none ∨ (d.apply E.me (.unlink E.name false)).isSome)
    (hi : d.files i = none) (group : Nat) :
    ∃ s, Steps (enabled (State.step E J V bearer)) (start d₀ d)
      (List.replicate 4 (.setUp i group)) s ∧ s.phase = .serving i := by
  let stateAt (d : Dir) (ph : Phase) : State T := ⟨d, ph, Serve.start d₀, fun _ => none⟩
  let cleared : Dir := { d with names := Function.update d.names E.name none }
  let created : Dir := { cleared with
    names := Function.update cleared.names E.name (some i)
    files := Function.update d.files i (some ⟨E.me.uid, group, masked 0o777 0o177, false⟩) }
  obtain ⟨d', hd', -, -⟩ := private_harden (E := E) (d := created) hg (i := i)
    ⟨Function.update_self .., group, Function.update_self ..⟩
  have hremove : (start d₀ d).setUp E i group = some (stateAt cleared .removed) := by
    rw [State.setUp, start, unlink_getD hname]
  have hsafe : checkSocketDirFor E.parent cleared.stat E.me.uid = .ok () :=
    checkSocketDirFor_ok_iff.mpr hg
  have hcheck : (stateAt cleared .removed).setUp E i group = some (stateAt cleared .checked) := by
    simp only [State.setUp, stateAt, hsafe]
  have hcreate : cleared.apply E.me (.create E.name i group (masked 0o777 0o177) false) =
      some created := if_pos ⟨hw, Function.update_self .., hi⟩
  have hbind : (stateAt cleared .checked).setUp E i group = some (stateAt created (.bound i)) := by
    simp only [State.setUp, stateAt, hcreate]
  have hharden : (stateAt created (.bound i)).setUp E i group = some (stateAt d' (.serving i)) := by
    simp only [State.setUp, stateAt, hd']
  exact ⟨_, .cons hremove (.cons hcheck (.cons hbind (.single hharden))), rfl⟩

/-- Whatever is in the directory before, and whatever other users do to it in the meantime: from the
bind on the name is the daemon's own socket, and its user and root alone can connect to it; and
whoever gets an answer or has a request carried out is the daemon's user. -/
theorem control_socket_is_private
    (h : Steps (Meeting (enabled (State.step E J V bearer)) fun _ a => a.ByStranger E.me.uid)
      (start d₀ d) acts s) :
    (∀ i, s.phase.socket = some i →
        Private E s.dir i ∧ ∀ c, s.reachable c ↔ Trusted E.me.uid c.uid) ∧
      (∀ n u, s.peers n = some u → Trusted E.me.uid u) ∧
      (∀ n c, s.server.conns n = some c → c.written ≠ [] → s.peers n = some E.me.uid) ∧
      ∀ e ∈ s.server.log, s.peers e.1 = some E.me.uid := by
  obtain ⟨hsecured, howned⟩ : Secured E s.dir s.phase ∧ Owned E.me.uid s.server s.peers :=
    h.invariant (I := fun s => Secured E s.dir s.phase ∧ Owned E.me.uid s.server s.peers)
      (fun _ _ _ hheld hstep => held_step hstep.2 hheld hstep.1) ⟨.starting, owned_start⟩
  refine ⟨fun i hi => ⟨hsecured.isPrivate hi, fun c => ⟨hsecured.trusted, fun hc => ?_⟩⟩,
    howned.trusted, fun n c hn hw => ?_, howned.logged⟩
  · obtain ⟨_, group, hfile⟩ := hsecured.isPrivate hi
    rw [State.reachable, hi, Option.bind_some, hfile, Option.any_some]
    obtain hc | hc := hc
    · have hbit : (0o600).testBit 7 = true := by decide
      simp [Cred.may, Cred.shift, hc, Access.bit, hbit]
    · simp [Cred.may, hc]
  · exact (howned.refused n c hn).resolve_right fun hr => hw hr.2

/-- A socket in a directory that anybody writes to, where another user is at work as well. -/
def endpoint : Endpoint := ⟨"/tmp", "cluster.sock", ⟨1000, [1000]⟩⟩

def tmp : Dir := ⟨⟨0, 0, 0o1777, true⟩, fun _ => none, fun _ => none⟩

def besideOthers : List Action :=
  [.setUp 0 0, .file ⟨1001, [1000]⟩ (.create "other.sock" 7 1001 0o666 false), .setUp 0 0,
    .setUp 1 1000, .setUp 0 0, .connect 0 ⟨1000, [1000]⟩ 0 (bytes "key\nstatus\n"),
    .thread (.read 0), .thread (.read 0), .thread (.handle 0)]

theorem control_socket_is_private_sample :
    ∃ s, Steps (Meeting (enabled (State.step endpoint plainJson Registry.plainVerifier "key"))
          fun _ a => a.ByStranger 1000) (start Admission.nodeDaemon tmp) besideOthers s ∧
      s.server.log.length = 1 ∧ ∀ e ∈ s.server.log, s.peers e.1 = some 1000 := by
  have hrun : (besideOthers.foldlM (fun (s : State _) (a : Action) =>
        if a.ByStranger 1000 then s.step endpoint plainJson Registry.plainVerifier "key" a
        else none)
      (start Admission.nodeDaemon tmp)).any (fun s => s.server.log.length == 1) = true := by
    decide +kernel
  obtain ⟨s, hs, hlog⟩ := (Option.any_eq_true _ _).mp hrun
  have hsteps := steps_enabled_iff.mpr hs
  rw [← meeting_enabled] at hsteps
  exact ⟨s, hsteps, beq_iff_eq.mp hlog, (control_socket_is_private hsteps).2.2.2⟩

/-- Where the name was taken in between, the bind fails. -/
example : ([.setUp 0 0, .file ⟨1001, []⟩ (.create "cluster.sock" 7 1001 0o666 false), .setUp 0 0,
    .setUp 1 1000].foldlM (State.step endpoint plainJson Registry.plainVerifier "key")
      (start Admission.nodeDaemon tmp)).map (·.phase) = some (.failed .os) := rfl

end Runs

end CitrateCluster.ControlSocket
