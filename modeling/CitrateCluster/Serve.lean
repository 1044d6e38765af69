import CitrateCluster.Admission
import CitrateCluster.Connection
import CitrateCluster.Runs
import Mathlib.Logic.Function.Basic

namespace CitrateCluster.Serve

open Text Device Transport Daemon Ipc Lines Server Connection Runs

/-- Where the thread of a connection stands. A peer with another uid is refused; a connection fails on
an error of its socket or, before the handshake, on the read timeout. -/
inductive Phase where
  | refused
  | greeting
  | serving
  | requesting (req : Request)
  | responding (resp : Response)
  | closed
  | failed

/-- One connection: all that its client sends, what of it is still to be read, and what was written. -/
structure Conn where
  sent : List UInt8
  stream : List UInt8
  phase : Phase
  written : List String

/-- The handshake, one line. -/
def readHandshake (J : Json) (bearer : String) (c : Conn) : Conn :=
  match readCappedLine maxLine c.stream with
  | (.ok (0, _), r) => { c with stream := r, phase := .closed }
  | (.error _, r) => { c with stream := r, phase := .closed }
  | (.ok (_, line), r) =>
    if !authorized J line bearer then
      { c with stream := r, phase := .closed, written := [errJson J "unauthorized"] }
    else { c with stream := r, phase := .serving, written := [ready] }

/-- One round of the request loop, up to the lock. -/
def readRequest (J : Json) (c : Conn) : Conn :=
  match readCappedLine maxLine c.stream with
  | (.ok (0, _), r) => { c with stream := r, phase := .closed }
  | (.error _, r) =>
    { c with stream := r, phase := .closed, written := c.written ++ [errJson J "request too large"] }
  | (.ok (_, line), r) =>
    if (trim line).isEmpty then { c with stream := r }
    else
      match J.parseRequest (trim line) with
      | .ok req => { c with stream := r, phase := .requesting req }
      | .error e => { c with stream := r, phase := .responding (.error ("bad request: " ++ e)) }

/-- The daemon behind its mutex and the connections, each on its own thread. `log` notes the requests
in the order in which they held the lock. -/
structure State (T : Type) where
  daemon : ClusterDaemon T
  conns : Nat → Option Conn
  log : List (Nat × Request)

/-- The steps of the threads. `handle` is a whole critical section. -/
inductive Action where
  | accept (i : Nat) (ownUid : Bool) (sent : List UInt8)
  | read (i : Nat)
  | handle (i : Nat)
  | write (i : Nat)
  | fail (i : Nat)

namespace State

variable {T : Type}

def set (s : State T) (i : Nat) (c : Conn) : State T :=
  { s with conns := Function.update s.conns i (some c) }

variable [MeshTransport T]

def step (J : Json) (V : LinkVerifier) (bearer : String) (s : State T) : Action → Option (State T)
  | .accept i ownUid sent =>
    if (s.conns i).isNone then
      some (s.set i ⟨sent, sent, if ownUid then .greeting else .refused, []⟩)
    else none
  | .read i =>
    match s.conns i with
    | none => none
    | some c =>
      match c.phase with
      | .greeting => some (s.set i (readHandshake J bearer c))
      | .serving => some (s.set i (readRequest J c))
      | _ => none
  | .handle i =>
    match s.conns i with
    | none => none
    | some c =>
      match c.phase with
      | .requesting req =>
        let (resp, daemon) := handleRequest V s.daemon req
        let s := s.set i { c with phase := .responding resp }
        some { s with daemon, log := s.log ++ [(i, req)] }
      | _ => none
  | .write i =>
    match s.conns i with
    | none => none
    | some c =>
      match c.phase with
      | .responding resp =>
        some (s.set i { c with phase := .serving, written := c.written ++ [encoded J resp] })
      | _ => none
  | .fail i =>
    match s.conns i with
    | none => none
    | some c =>
      match c.phase with
      | .greeting | .serving | .responding _ => some (s.set i { c with phase := .failed })
      | _ => none

end State

section Log

variable {T : Type} [MeshTransport T] {V : LinkVerifier} {d : ClusterDaemon T}
  {log : List (Nat × Request)}

/-- The entries of a log that are one connection's. -/
def ofConn {α : Type} (log : List (Nat × α)) (i : Nat) : List α :=
  (log.filter fun e => e.1 == i).map (·.2)

/-- The responses to the requests of a log, one after the other. -/
def replies (V : LinkVerifier) : ClusterDaemon T → List (Nat × Request) → List (Nat × Response)
  | _, [] => []
  | d, (i, req) :: log => (i, (handleRequest V d req).1) :: replies V (handleRequest V d req).2 log

theorem ofConn_concat_self {α : Type} (log : List (Nat × α)) (i : Nat) (a : α) :
    ofConn (log ++ [(i, a)]) i = ofConn log i ++ [a] := by
  simp [ofConn]

theorem ofConn_concat_of_ne {α : Type} (log : List (Nat × α)) {i j : Nat} (h : i ≠ j) (a : α) :
    ofConn (log ++ [(i, a)]) j = ofConn log j := by
  simp [ofConn, h]

theorem handleAll_concat (V : LinkVerifier) (d : ClusterDaemon T) (reqs : List Request)
    (req : Request) :
    handleAll V d (reqs ++ [req]) = (handleRequest V (handleAll V d reqs) req).2 := by
  simp [handleAll]

theorem replies_concat (V : LinkVerifier) (d : ClusterDaemon T) (log : List (Nat × Request))
    (i : Nat) (req : Request) :
    replies V d (log ++ [(i, req)]) =
      replies V d log ++ [(i, (handleRequest V (handleAll V d (log.map (·.2))) req).1)] := by
  induction log generalizing d with
  | nil => rfl
  | cons e log ih =>
    rw [List.cons_append, replies, ih]
    rfl

end Log

section Conversation

variable {J : Json} {bearer : String} {reqs : List Request} {replies : List Response} {c : Conn}

/-- Each text is answered once, in order: a request as the daemon replied to it, and what is no
request with an error. -/
inductive Answered (J : Json) :
    List String → List Request → List Response → List Response → Prop where
  | nil : Answered J [] [] [] []
  | request {ts : List String} {reqs : List Request} {replies out : List Response} {t : String}
      {req : Request} (h : Answered J ts reqs replies out) (ht : J.parseRequest t = .ok req)
      (resp : Response) :
      Answered J (ts ++ [t]) (reqs ++ [req]) (replies ++ [resp]) (out ++ [resp])
  | unreadable {ts : List String} {reqs : List Request} {replies out : List Response} {t e : String}
      (h : Answered J ts reqs replies out) (ht : J.parseRequest t = .error e) :
      Answered J (ts ++ [t]) reqs replies (out ++ [.error ("bad request: " ++ e)])

theorem Answered.requests {ts : List String} {out : List Response}
    (h : Answered J ts reqs replies out) : reqs = requestsOf J ts := by
  induction h with
  | nil => rfl
  | request _ ht _ ih => simp [requestsOf, ht, ih, Except.toOption]
  | unreadable _ ht ih => simp [requestsOf, ht, ih, Except.toOption]

/-- The texts of the request lines of a stream, up to a line that is refused. -/
def requestTexts (sent : List UInt8) : List String := texts (accepted (lines newline sent).tail)

/-- A connection that passed the handshake, and has read and answered some texts; `rest` are the
texts that it has yet to read. -/
structure Talk (J : Json) (bearer : String) (reqs : List Request) (replies : List Response)
    (c : Conn) (ts rest : List String) (out : List Response) : Prop where
  authenticated : Authenticated J bearer c.sent
  answered : Answered J ts reqs replies out
  texts : requestTexts c.sent = ts ++ rest
  stops : stops (lines newline c.sent).tail = stops (lines newline c.stream)

/-- All responses are written, or all but the last one. -/
def Delivered (J : Json) (out : List Response) (written : List String) : Prop :=
  ∃ delivered pending, out = delivered ++ pending ∧ pending.length ≤ 1 ∧
    written = ready :: delivered.map (encoded J)

theorem delivered_all (J : Json) (out : List Response) :
    Delivered J out (ready :: out.map (encoded J)) :=
  ⟨out, [], by simp, Nat.zero_le 1, rfl⟩

theorem delivered_concat (J : Json) (out : List Response) (resp : Response) :
    Delivered J (out ++ [resp]) (ready :: out.map (encoded J)) :=
  ⟨out, [resp], rfl, Nat.le_refl 1, rfl⟩

/-- Where a conversation stands, by the phase of its connection. -/
def Stands (J : Json) (bearer : String) (reqs : List Request) (replies : List Response)
    (c : Conn) : Prop :=
  let ahead := texts (accepted (lines newline c.stream))
  match c.phase with
  | .refused => reqs = [] ∧ c.written = []
  | .greeting => reqs = [] ∧ replies = [] ∧ c.written = [] ∧ c.stream = c.sent
  | .serving => ∃ ts out, Talk J bearer reqs replies c ts ahead out ∧
      c.written = ready :: out.map (encoded J)
  | .requesting req => ∃ ts out t, Talk J bearer reqs replies c ts (t :: ahead) out ∧
      J.parseRequest t = .ok req ∧ c.written = ready :: out.map (encoded J)
  | .responding resp => ∃ ts out, Talk J bearer reqs replies c ts ahead (out ++ [resp]) ∧
      c.written = ready :: out.map (encoded J)
  | .closed => (¬ Authenticated J bearer c.sent ∧ reqs = [] ∧
        (c.written = [] ∨ c.written = [errJson J "unauthorized"])) ∨
      Authenticated J bearer c.sent ∧ ∃ out, Answered J (requestTexts c.sent) reqs replies out ∧
        c.written = ready :: (out.map (encoded J) ++
          if Connection.stops (lines newline c.sent).tail then [errJson J "request too large"]
          else [])
  | .failed => (reqs = [] ∧ c.written = []) ∨
      Authenticated J bearer c.sent ∧ ∃ ts out, Answered J ts reqs replies out ∧
        ts <+: requestTexts c.sent ∧ Delivered J out c.written

theorem Stands.handshake (h : Stands J bearer reqs replies c) (hp : c.phase = .greeting) :
    Stands J bearer reqs replies (readHandshake J bearer c) := by
  simp only [Stands, hp] at h
  obtain ⟨rfl, rfl, hw, hs⟩ := h
  rw [readHandshake]
  split
  · next hr =>
    refine .inl ⟨?_, rfl, .inl hw⟩
    rintro ⟨first, hfirst, _⟩
    rw [← hs, lines_of_read_zero hr] at hfirst
    cases hfirst
  · next hr =>
    refine .inl ⟨?_, rfl, .inl hw⟩
    rintro ⟨first, hfirst, hgood, _⟩
    obtain ⟨line, ls, hbad, hlines⟩ := lines_of_read_error hr
    rw [← hs, hlines, List.head?_cons, Option.some.injEq] at hfirst
    rw [hfirst, hgood] at hbad
    cases hbad
  · next n buf r hne hr =>
    obtain ⟨n, rfl⟩ := Nat.exists_eq_succ_of_ne_zero hne
    obtain ⟨line, hgood, htext, hlines⟩ := lines_of_read hr
    rw [hs] at hlines
    split
    · next hno =>
      refine .inl ⟨?_, rfl, .inr rfl⟩
      rintro ⟨first, hfirst, _, hauth⟩
      rw [hlines, List.head?_cons, Option.some.injEq] at hfirst
      rw [← hfirst, htext, ← authorized_iff] at hauth
      simp [hauth] at hno
    · next hok =>
      rw [Bool.not_eq_true', Bool.not_eq_false, authorized_iff, ← htext] at hok
      refine ⟨[], [], ⟨⟨line, by rw [hlines, List.head?_cons], hgood, hok⟩, .nil, ?_, ?_⟩, rfl⟩
      · rw [requestTexts, hlines]
        rfl
      · simp only [hlines, List.tail_cons]

theorem Stands.request (h : Stands J bearer reqs replies c) (hp : c.phase = .serving) :
    Stands J bearer reqs replies (readRequest J c) := by
  simp only [Stands, hp] at h
  obtain ⟨ts, out, ⟨hauth, hans, htexts, hstops⟩, hw⟩ := h
  rw [readRequest]
  split
  · next hr =>
    rw [lines_of_read_zero hr] at htexts hstops
    have hnone : stops (lines newline c.sent).tail = false := hstops
    refine .inr ⟨hauth, out, ?_, ?_⟩
    · simpa [htexts, accepted, texts] using hans
    · simp [hw, hnone]
  · next hr =>
    obtain ⟨line, ls, hbad, hlines⟩ := lines_of_read_error hr
    rw [hlines] at htexts hstops
    have hsome : stops (lines newline c.sent).tail = true := by
      rw [hstops]
      simp [stops, hbad]
    refine .inr ⟨hauth, out, ?_, ?_⟩
    · simpa [htexts, accepted, texts, hbad] using hans
    · simp [hw, hsome]
  · next n buf r hne hr =>
    obtain ⟨n, rfl⟩ := Nat.exists_eq_succ_of_ne_zero hne
    obtain ⟨line, hgood, htext, hlines⟩ := lines_of_read hr
    rw [hlines] at htexts hstops
    split
    · next hblank =>
      rw [← htext] at hblank
      simp only [Stands, hp]
      refine ⟨ts, out, ⟨hauth, hans, ?_, ?_⟩, hw⟩
      · simpa [accepted, texts, hgood, hblank] using htexts
      · simpa [stops, hgood] using hstops
    · next hblank =>
      rw [← htext, Bool.not_eq_true] at hblank
      obtain ⟨htexts', hstops'⟩ := texts_accepted_cons hgood hblank (lines newline r)
      rw [htexts', htext] at htexts
      rw [hstops'] at hstops
      split
      · next req hreq => exact ⟨ts, out, _, ⟨hauth, hans, htexts, hstops⟩, hreq, hw⟩
      · next e he =>
        refine ⟨ts ++ [trim buf], out, ⟨hauth, .unreadable hans he, ?_, hstops⟩, hw⟩
        rw [htexts, List.append_assoc, List.singleton_append]

theorem Stands.respond {req : Request} (h : Stands J bearer reqs replies c)
    (hp : c.phase = .requesting req) (resp : Response) :
    Stands J bearer (reqs ++ [req]) (replies ++ [resp]) { c with phase := .responding resp } := by
  simp only [Stands, hp] at h
  obtain ⟨ts, out, t, ⟨hauth, hans, htexts, hstops⟩, ht, hw⟩ := h
  refine ⟨ts ++ [t], out, ⟨hauth, .request hans ht resp, ?_, hstops⟩, hw⟩
  rw [htexts, List.append_assoc, List.singleton_append]

theorem Stands.write {resp : Response} (h : Stands J bearer reqs replies c)
    (hp : c.phase = .responding resp) : Stands J bearer reqs replies
      { c with phase := .serving, written := c.written ++ [encoded J resp] } := by
  simp only [Stands, hp] at h
  obtain ⟨ts, out, htalk, hw⟩ := h
  exact ⟨ts, _, ⟨htalk.1, htalk.2, htalk.3, htalk.4⟩, by simp [hw]⟩

theorem Stands.fail (h : Stands J bearer reqs replies c)
    (hp : c.phase = .greeting ∨ c.phase = .serving ∨ ∃ resp, c.phase = .responding resp) :
    Stands J bearer reqs replies { c with phase := .failed } := by
  obtain hp | hp | ⟨resp, hp⟩ := hp
  · simp only [Stands, hp] at h
    exact .inl ⟨h.1, h.2.2.1⟩
  · simp only [Stands, hp] at h
    obtain ⟨ts, out, ⟨hauth, hans, htexts, _⟩, hw⟩ := h
    exact .inr ⟨hauth, ts, out, hans, ⟨_, htexts.symm⟩, hw ▸ delivered_all J out⟩
  · simp only [Stands, hp] at h
    obtain ⟨ts, out, ⟨hauth, hans, htexts, _⟩, hw⟩ := h
    exact .inr ⟨hauth, ts, _, hans, ⟨_, htexts.symm⟩, hw ▸ delivered_concat J out resp⟩

/-- What a conversation has come to, in whatever phase it is. -/
theorem Stands.summary (h : Stands J bearer reqs replies c) :
    (¬ Authenticated J bearer c.sent → reqs = [] ∧
        (c.written = [] ∨ c.written = [errJson J "unauthorized"])) ∧
      (Authenticated J bearer c.sent →
        ((c.phase = .refused ∨ c.phase = .greeting ∨ c.phase = .failed) ∧
          reqs = [] ∧ c.written = []) ∨
        ∃ ts out, ts <+: requestTexts c.sent ∧ Answered J ts reqs replies out ∧
          (c.phase = .closed → ts = requestTexts c.sent ∧
            c.written = ready :: (out.map (encoded J) ++
              if stops (lines newline c.sent).tail then [errJson J "request too large"] else [])) ∧
          (c.phase ≠ .closed → Delivered J out c.written)) := by
  rw [Stands] at h
  cases hp : c.phase with
  | refused =>
    simp only [hp] at h
    exact ⟨fun _ => ⟨h.1, .inl h.2⟩, fun _ => .inl ⟨.inl rfl, h⟩⟩
  | greeting =>
    simp only [hp] at h
    exact ⟨fun _ => ⟨h.1, .inl h.2.2.1⟩, fun _ => .inl ⟨.inr (.inl rfl), h.1, h.2.2.1⟩⟩
  | serving =>
    simp only [hp] at h
    obtain ⟨ts, out, ⟨hauth, hans, htexts, _⟩, hw⟩ := h
    refine ⟨fun hn => absurd hauth hn, fun _ => .inr ⟨ts, out, ⟨_, htexts.symm⟩, hans, nofun, ?_⟩⟩
    exact fun _ => hw ▸ delivered_all J out
  | requesting req =>
    simp only [hp] at h
    obtain ⟨ts, out, t, ⟨hauth, hans, htexts, _⟩, _, hw⟩ := h
    refine ⟨fun hn => absurd hauth hn, fun _ => .inr ⟨ts, out, ⟨_, htexts.symm⟩, hans, nofun, ?_⟩⟩
    exact fun _ => hw ▸ delivered_all J out
  | responding resp =>
    simp only [hp] at h
    obtain ⟨ts, out, ⟨hauth, hans, htexts, _⟩, hw⟩ := h
    refine ⟨fun hn => absurd hauth hn, fun _ => .inr ⟨ts, _, ⟨_, htexts.symm⟩, hans, nofun, ?_⟩⟩
    exact fun _ => hw ▸ delivered_concat J out resp
  | closed =>
    simp only [hp] at h
    obtain ⟨hn, hreqs, hw⟩ | ⟨hauth, out, hans, hw⟩ := h
    · exact ⟨fun _ => ⟨hreqs, hw⟩, fun hauth => absurd hauth hn⟩
    · refine ⟨fun hn => absurd hauth hn, fun _ => .inr ⟨_, out, List.prefix_rfl, hans, ?_⟩⟩
      exact ⟨fun _ => ⟨rfl, hw⟩, fun hne => absurd rfl hne⟩
  | failed =>
    simp only [hp] at h
    obtain h | ⟨hauth, ts, out, hans, hprefix, hw⟩ := h
    · exact ⟨fun _ => ⟨h.1, .inl h.2⟩, fun _ => .inl ⟨.inr (.inr rfl), h⟩⟩
    · exact ⟨fun hn => absurd hauth hn, fun _ => .inr ⟨ts, out, hprefix, hans, nofun, fun _ => hw⟩⟩

end Conversation

section Runs

variable {T : Type} [MeshTransport T] {J : Json} {V : LinkVerifier} {bearer : String}
  {d₀ : ClusterDaemon T} {s s' : State T}

def start (d₀ : ClusterDaemon T) : State T := ⟨d₀, fun _ => none, []⟩

/-- What holds of every state that the threads can reach. -/
structure Linear (J : Json) (V : LinkVerifier) (bearer : String) (d₀ : ClusterDaemon T)
    (s : State T) : Prop where
  daemon : s.daemon = handleAll V d₀ (s.log.map (·.2))
  stands : ∀ i c, s.conns i = some c →
    Stands J bearer (ofConn s.log i) (ofConn (replies V d₀ s.log) i) c
  unopened : ∀ i, s.conns i = none → ofConn s.log i = [] ∧ ofConn (replies V d₀ s.log) i = []

theorem linear_start : Linear J V bearer d₀ (start d₀) where
  daemon := rfl
  stands := fun i c h => by cases h
  unopened := fun _ _ => ⟨rfl, rfl⟩

/-- A step that takes no lock moves one connection. -/
theorem Linear.set (h : Linear J V bearer d₀ s) {i : Nat} {c : Conn}
    (hc : Stands J bearer (ofConn s.log i) (ofConn (replies V d₀ s.log) i) c) :
    Linear J V bearer d₀ (s.set i c) where
  daemon := h.daemon
  stands := by
    intro j c' (hj : Function.update s.conns i (some c) j = some c')
    by_cases hij : j = i
    · subst hij
      rw [Function.update_self, Option.some.injEq] at hj
      exact hj ▸ hc
    · rw [Function.update_of_ne hij] at hj
      exact h.stands j c' hj
  unopened := by
    intro j (hj : Function.update s.conns i (some c) j = none)
    by_cases hij : j = i
    · subst hij
      rw [Function.update_self] at hj
      cases hj
    · rw [Function.update_of_ne hij] at hj
      exact h.unopened j hj

theorem Linear.handle (h : Linear J V bearer d₀ s) {i : Nat} {c : Conn} {req : Request}
    (hc : s.conns i = some c) (hp : c.phase = .requesting req) :
    Linear J V bearer d₀
      { s.set i { c with phase := .responding (handleRequest V s.daemon req).1 } with
        daemon := (handleRequest V s.daemon req).2
        log := s.log ++ [(i, req)] } where
  daemon := by
    rw [List.map_append, List.map_singleton, handleAll_concat, ← h.daemon]
  stands := by
    intro j c' (hj : Function.update s.conns i _ j = some c')
    rw [replies_concat, ← h.daemon]
    by_cases hij : j = i
    · subst hij
      rw [Function.update_self, Option.some.injEq] at hj
      subst hj
      rw [ofConn_concat_self, ofConn_concat_self]
      exact (h.stands j c hc).respond hp _
    · rw [Function.update_of_ne hij] at hj
      rw [ofConn_concat_of_ne _ (Ne.symm hij), ofConn_concat_of_ne _ (Ne.symm hij)]
      exact h.stands j c' hj
  unopened := by
    intro j (hj : Function.update s.conns i _ j = none)
    by_cases hij : j = i
    · subst hij
      rw [Function.update_self] at hj
      cases hj
    · rw [Function.update_of_ne hij] at hj
      rw [replies_concat, ofConn_concat_of_ne _ (Ne.symm hij), ofConn_concat_of_ne _ (Ne.symm hij)]
      exact h.unopened j hj

theorem Linear.step {a : Action} (h : Linear J V bearer d₀ s)
    (hs : s.step J V bearer a = some s') : Linear J V bearer d₀ s' := by
  cases a with
  | accept i ownUid sent =>
    simp only [State.step, Option.ite_none_right_eq_some, Option.some.injEq,
      Option.isNone_iff_eq_none] at hs
    obtain ⟨hnone, rfl⟩ := hs
    obtain ⟨hlog, hreplies⟩ := h.unopened i hnone
    apply h.set
    rw [hlog, hreplies]
    cases ownUid
    · exact ⟨rfl, rfl⟩
    · exact ⟨rfl, rfl, rfl, rfl⟩
  | read i =>
    simp only [State.step] at hs
    split at hs
    · cases hs
    · next c hc =>
      have hstands := h.stands i c hc
      split at hs
      · next hp =>
        cases hs
        exact h.set (hstands.handshake hp)
      · next hp =>
        cases hs
        exact h.set (hstands.request hp)
      · cases hs
  | handle i =>
    simp only [State.step] at hs
    split at hs
    · cases hs
    · next c hc =>
      split at hs
      · next req hp =>
        cases hs
        exact h.handle hc hp
      · cases hs
  | write i =>
    simp only [State.step] at hs
    split at hs
    · cases hs
    · next c hc =>
      split at hs
      · next resp hp =>
        cases hs
        exact h.set ((h.stands i c hc).write hp)
      · cases hs
  | fail i =>
    simp only [State.step] at hs
    split at hs
    · cases hs
    · next c hc =>
      have hfail := (h.stands i c hc).fail
      split at hs
      · next hp =>
        cases hs
        exact h.set (hfail (.inl hp))
      · next hp =>
        cases hs
        exact h.set (hfail (.inr (.inl hp)))
      · next resp hp =>
        cases hs
        exact h.set (hfail (.inr (.inr ⟨resp, hp⟩)))
      · cases hs

/-- Whatever the order in which the threads of the connections run, the daemon is what the requests
make of it one after the other, in the order in which they held the lock. A connection that does not
pass the handshake contributes none. Of another one the requests are in this order those of its own
lines, a prefix as long as it is read; and it is answered line by line, with what its requests got
at their places in the order. Before it closes, at most the last of these answers is outstanding. -/
theorem connections_linearize {acts : List Action}
    (h : Steps (enabled (State.step J V bearer)) (start d₀) acts s) :
    s.daemon = handleAll V d₀ (s.log.map (·.2)) ∧
      ∀ i c, s.conns i = some c →
        (¬ Authenticated J bearer c.sent → ofConn s.log i = [] ∧
          (c.written = [] ∨ c.written = [errJson J "unauthorized"])) ∧
        (Authenticated J bearer c.sent →
          ((c.phase = .refused ∨ c.phase = .greeting ∨ c.phase = .failed) ∧
            ofConn s.log i = [] ∧ c.written = []) ∨
          ∃ ts out, ts <+: requestTexts c.sent ∧ ofConn s.log i = requestsOf J ts ∧
            Answered J ts (ofConn s.log i) (ofConn (replies V d₀ s.log) i) out ∧
            (c.phase = .closed → ts = requestTexts c.sent ∧
              c.written = ready :: (out.map (encoded J) ++
                if stops (lines newline c.sent).tail then [errJson J "request too large"] else [])) ∧
            (c.phase ≠ .closed → Delivered J out c.written)) := by
  have hlinear : Linear J V bearer d₀ s := h.invariant (fun _ _ _ => .step) linear_start
  refine ⟨hlinear.daemon, fun i c hc => ?_⟩
  obtain ⟨hno, hyes⟩ := (hlinear.stands i c hc).summary
  refine ⟨hno, fun hauth => (hyes hauth).imp_right ?_⟩
  rintro ⟨ts, out, hprefix, hans, hclosed, hopen⟩
  exact ⟨ts, out, hprefix, hans.requests, hans, hclosed, hopen⟩

end Runs

/-- Tokens are read as they are, one request is known, and responses are not told apart. -/
def plainJson : Json where
  parseAuth := some
  parseRequest t := if t = "status" then .ok (.status "group") else .error "unknown"
  encode _ := some "response"

/-- Two connections at work, the second without the bearer. -/
def twoClients : List Action :=
  [.accept 0 true (bytes "key\nstatus\nstatus\n"), .accept 1 true (bytes "guess\nstatus\n"),
    .read 0, .read 0, .read 1, .handle 0, .write 0]

theorem connections_linearize_sample :
    ∃ s, Steps (enabled (State.step plainJson Registry.plainVerifier "key"))
        (start Admission.nodeDaemon) twoClients s ∧ s.log.length = 1 ∧
      s.daemon = handleAll Registry.plainVerifier Admission.nodeDaemon (s.log.map (·.2)) := by
  have hrun : (twoClients.foldlM (State.step plainJson Registry.plainVerifier "key")
      (start Admission.nodeDaemon)).any (fun s => s.log.length == 1) = true := by
    decide +kernel
  obtain ⟨s, hs, hlog⟩ := (Option.any_eq_true _ _).mp hrun
  have hsteps := steps_enabled_iff.mpr hs
  exact ⟨s, hsteps, beq_iff_eq.mp hlog, (connections_linearize hsteps).1⟩

section Alone

variable {T : Type} [MeshTransport T] {J : Json} {V : LinkVerifier} {bearer : String}
  {d₀ : ClusterDaemon T} {s : State T}

theorem responses_concat (d : ClusterDaemon T) (ts : List String) (t : String) :
    responses J V d (ts ++ [t]) =
      responses J V d ts ++ responses J V (handleAll V d (requestsOf J ts)) [t] := by
  induction ts generalizing d with
  | nil => rfl
  | cons u ts ih =>
    rw [List.cons_append, responses, responses]
    cases hu : J.parseRequest u with
    | ok req =>
      simp only [ih, List.cons_append, requestsOf, List.filterMap_cons, hu, Except.toOption]
      rfl
    | error e =>
      simp only [ih, List.cons_append, requestsOf, List.filterMap_cons, hu, Except.toOption]

theorem ofConn_of_forall {α : Type} {log : List (Nat × α)} {i : Nat} (h : ∀ e ∈ log, e.1 = i) :
    ofConn log i = log.map (·.2) := by
  rw [ofConn, List.filter_eq_self.mpr]
  simpa using h

theorem map_fst_replies (V : LinkVerifier) (d : ClusterDaemon T) (log : List (Nat × Request)) :
    (replies V d log).map (·.1) = log.map (·.1) := by
  induction log generalizing d with
  | nil => rfl
  | cons e log ih => rw [replies, List.map_cons, List.map_cons, ih]

/-- With nobody else, what each request gets is what a single connection gives it. -/
theorem Answered.eq_responses {ts : List String} {reqs : List Request} {rs out : List Response}
    (h : Answered J ts reqs rs out) {log : List (Nat × Request)} (hlog : log.map (·.2) = reqs)
    (hrs : (replies V d₀ log).map (·.2) = rs) : out = responses J V d₀ ts := by
  induction h generalizing log with
  | nil => rfl
  | @request ts reqs rs out t req h ht resp ih =>
    obtain ⟨log, rest, rfl, hreqs, hrest⟩ := List.map_eq_append_iff.mp hlog
    obtain ⟨⟨i, _⟩, rfl, rfl⟩ := List.map_eq_singleton_iff.mp hrest
    rw [replies_concat, List.map_append, List.map_singleton] at hrs
    obtain ⟨hrs, hresp⟩ := List.append_inj' hrs rfl
    rw [responses_concat, ← ih hreqs hrs, ← h.requests, ← hreqs]
    simpa [responses, ht] using hresp.symm
  | @unreadable ts reqs rs out t e h ht ih =>
    rw [responses_concat, ← ih hlog hrs]
    simp [responses, ht]

/-- A connection that has the daemon to itself runs as the code of one connection reads. -/
theorem Linear.alone (h : Linear J V bearer d₀ s) {i : Nat} {c : Conn} (hc : s.conns i = some c)
    (hp : c.phase = .closed) (hauth : Authenticated J bearer c.sent)
    (hall : ∀ e ∈ s.log, e.1 = i) :
    handleConn J V bearer d₀ c.sent = (c.written, s.daemon) := by
  have hstands := h.stands i c hc
  have hreplies : ∀ e ∈ replies V d₀ s.log, e.1 = i := by
    intro e he
    have hfst := List.mem_map_of_mem (f := (·.1)) he
    rw [map_fst_replies] at hfst
    obtain ⟨e', he', heq⟩ := List.mem_map.mp hfst
    exact heq ▸ hall e' he'
  simp only [Stands, hp, ofConn_of_forall hall, ofConn_of_forall hreplies] at hstands
  obtain ⟨hn, _⟩ | ⟨_, out, hans, hw⟩ := hstands
  · exact absurd hauth hn
  · rw [handleConn_of_authenticated hauth, outcome, hw, hans.eq_responses rfl rfl, h.daemon,
      hans.requests]
    rfl

end Alone

end CitrateCluster.Serve
