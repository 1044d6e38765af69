import CitrateCluster.Server
import Mathlib.Data.List.TakeWhile

namespace CitrateCluster.Connection

open Text Device Transport Daemon Ipc Lines Server

variable {T : Type} [MeshTransport T] {J : Json} {V : LinkVerifier} {bearer : String}
  {d : ClusterDaemon T} {stream r : List UInt8}

section Specification

/-- The text of a line, without the whitespace around it. -/
def text (line : List UInt8) : String := trim ((fromUtf8 line).getD "")

/-- The texts of the lines that are not blank. -/
def texts (ls : List (List UInt8)) : List String := (ls.map text).filter fun t => !t.isEmpty

/-- The requests that some texts are read as. -/
def requestsOf (J : Json) (ts : List String) : List Request :=
  ts.filterMap fun t => (J.parseRequest t).toOption

/-- The responses to some texts, one for each, in order. -/
def responses (J : Json) (V : LinkVerifier) : ClusterDaemon T → List String → List Response
  | _, [] => []
  | d, t :: ts =>
    match J.parseRequest t with
    | .ok req => (handleRequest V d req).1 :: responses J V (handleRequest V d req).2 ts
    | .error e => .error ("bad request: " ++ e) :: responses J V d ts

/-- Handle some requests in order. -/
def handleAll (V : LinkVerifier) (d : ClusterDaemon T) (reqs : List Request) : ClusterDaemon T :=
  reqs.foldl (fun d req => (handleRequest V d req).2) d

/-- The first line of a stream is a handshake with the bearer. -/
def Authenticated (J : Json) (bearer : String) (stream : List UInt8) : Prop :=
  ∃ first, (lines newline stream).head? = some first ∧ good maxLine first = true ∧
    J.parseAuth (text first) = some bearer

/-- The lines up to the first one that is refused. -/
def accepted (ls : List (List UInt8)) : List (List UInt8) := ls.takeWhile (good maxLine)

/-- A line is refused. -/
def stops (ls : List (List UInt8)) : Bool := ls.any fun line => !good maxLine line

/-- What is read of a stream: the lines before the first one that is refused, and at most the first
`maxLine` bytes of that one. -/
def reached (stream : List UInt8) : List UInt8 :=
  (accepted (lines newline stream)).flatten ++
    (((lines newline stream).dropWhile (good maxLine)).head?.getD []).take maxLine

end Specification

section Loop

theorem length_responses (d : ClusterDaemon T) (ts : List String) :
    (responses J V d ts).length = ts.length := by
  induction ts generalizing d with
  | nil => rfl
  | cons t ts ih =>
    rw [responses]
    split <;> rw [List.length_cons, List.length_cons, ih]

/-- What the lines after the handshake make of the daemon, and what is written in response. -/
def outcome (J : Json) (V : LinkVerifier) (d : ClusterDaemon T) (ls : List (List UInt8)) :
    List String × ClusterDaemon T :=
  ((responses J V d (texts (accepted ls))).map (encoded J) ++
      (if stops ls then [errJson J "request too large"] else []),
    handleAll V d (requestsOf J (texts (accepted ls))))

theorem outcome_nil : outcome J V d [] = ([], d) := rfl

theorem outcome_cons_of_bad {line : List UInt8} (h : good maxLine line = false)
    (ls : List (List UInt8)) : outcome J V d (line :: ls) = ([errJson J "request too large"], d) := by
  simp [outcome, accepted, stops, texts, requestsOf, handleAll, responses, h]

theorem outcome_cons_of_blank {line : List UInt8} (h : good maxLine line = true)
    (ht : (text line).isEmpty = true) (ls : List (List UInt8)) :
    outcome J V d (line :: ls) = outcome J V d ls := by
  simp [outcome, accepted, stops, texts, h, ht]

theorem texts_accepted_cons {line : List UInt8} (h : good maxLine line = true)
    (ht : (text line).isEmpty = false) (ls : List (List UInt8)) :
    texts (accepted (line :: ls)) = text line :: texts (accepted ls) ∧ stops (line :: ls) = stops ls := by
  simp [accepted, texts, stops, h, ht]

theorem outcome_cons_of_request {line : List UInt8} {req : Request}
    (h : good maxLine line = true) (ht : (text line).isEmpty = false)
    (hreq : J.parseRequest (text line) = .ok req) (ls : List (List UInt8)) :
    outcome J V d (line :: ls) =
      (encoded J (handleRequest V d req).1 :: (outcome J V (handleRequest V d req).2 ls).1,
        (outcome J V (handleRequest V d req).2 ls).2) := by
  obtain ⟨htexts, hstops⟩ := texts_accepted_cons h ht ls
  simp only [outcome, htexts, hstops, responses, requestsOf, List.filterMap_cons, hreq]
  rfl

theorem outcome_cons_of_unparsable {line : List UInt8} {e : String}
    (h : good maxLine line = true) (ht : (text line).isEmpty = false)
    (hreq : J.parseRequest (text line) = .error e) (ls : List (List UInt8)) :
    outcome J V d (line :: ls) =
      (encoded J (.error ("bad request: " ++ e)) :: (outcome J V d ls).1, (outcome J V d ls).2) := by
  obtain ⟨htexts, hstops⟩ := texts_accepted_cons h ht ls
  simp only [outcome, htexts, hstops, responses, requestsOf, List.filterMap_cons, hreq]
  rfl

theorem lines_of_read_zero {buf : String} {r' : List UInt8}
    (h : readCappedLine maxLine r = (.ok (0, buf), r')) : lines newline r = [] := by
  obtain ⟨_, buf', _, hr⟩ | ⟨_, e, r'', hr⟩ := readCappedLine_cases maxLine r
  · rw [hr] at h
    simp only [Prod.mk.injEq, Except.ok.injEq, List.length_eq_zero_iff] at h
    by_contra hne
    exact readUntil_ne_nil (mt lines_eq_nil_iff.mpr hne) h.1.1
  · rw [hr] at h
    cases h

theorem lines_of_read {n : Nat} {buf : String} {r' : List UInt8}
    (h : readCappedLine maxLine r = (.ok (n + 1, buf), r')) :
    ∃ line, good maxLine line = true ∧ text line = trim buf ∧
      lines newline r = line :: lines newline r' := by
  obtain ⟨hgood, buf', hbuf, hr⟩ | ⟨_, e, r'', hr⟩ := readCappedLine_cases maxLine r
  · rw [hr] at h
    simp only [Prod.mk.injEq, Except.ok.injEq] at h
    obtain ⟨⟨hn, rfl⟩, rfl⟩ := h
    have hne : r ≠ [] := by
      rintro rfl
      cases hn
    exact ⟨_, hgood, by rw [text, hbuf, Option.getD_some], lines_eq_cons hne⟩
  · rw [hr] at h
    cases h

theorem lines_of_read_error {e : String} {r' : List UInt8}
    (h : readCappedLine maxLine r = (.error e, r')) :
    ∃ line ls, good maxLine line = false ∧ lines newline r = line :: ls := by
  obtain ⟨_, buf, _, hr⟩ | ⟨hbad, _⟩ := readCappedLine_cases maxLine r
  · rw [hr] at h
    cases h
  · have hne : r ≠ [] := by
      rintro rfl
      exact absurd hbad (by decide +kernel)
    exact ⟨_, _, hbad, lines_eq_cons hne⟩

/-- The loop does what the lines up to the first refused one say. -/
theorem requestLoop_eq (d : ClusterDaemon T) (r : List UInt8) :
    requestLoop J V d r = outcome J V d (lines newline r) := by
  fun_induction requestLoop J V d r with
  | case1 d r _ _ hr => rw [lines_of_read_zero hr, outcome_nil]
  | case2 d r n buf r' hr _ hblank ih =>
    obtain ⟨line, hgood, htext, hlines⟩ := lines_of_read hr
    rw [ih, hlines, outcome_cons_of_blank hgood (htext ▸ hblank)]
  | case3 d r n buf r' hr _ hblank resp d' hresp out d'' hout ih =>
    obtain ⟨line, hgood, htext, hlines⟩ := lines_of_read hr
    have hline : (text line).isEmpty = false := by simpa [htext] using hblank
    rw [hlines]
    rw [hout] at ih
    cases hp : J.parseRequest (trim buf) with
    | ok req =>
      simp only [hp] at hresp
      rw [outcome_cons_of_request hgood hline (htext ▸ hp), hresp, ← ih]
    | error e =>
      simp only [hp, Prod.mk.injEq] at hresp
      obtain ⟨rfl, rfl⟩ := hresp
      rw [outcome_cons_of_unparsable hgood hline (htext ▸ hp), ← ih]
  | case4 d r e r' hr =>
    obtain ⟨line, ls, hbad, hlines⟩ := lines_of_read_error hr
    rw [hlines, outcome_cons_of_bad hbad]

end Loop

section Handshake

theorem authorized_iff {line : String} :
    Server.authorized J line bearer = true ↔ J.parseAuth (trim line) = some bearer := by
  rw [Server.authorized]
  cases J.parseAuth (trim line) with
  | none => simp
  | some token =>
    simp only [Bool.and_eq_true, beq_iff_eq, Option.some.injEq]
    constructor
    · rintro ⟨_, hbytes⟩
      have h := fromUtf8_bytes token
      rw [hbytes, fromUtf8_bytes, Option.some.injEq] at h
      exact h.symm
    · rintro rfl
      exact ⟨rfl, rfl⟩

theorem handleConn_of_authenticated (h : Authenticated J bearer stream) :
    handleConn J V bearer d stream =
      (ready :: (outcome J V d (lines newline stream).tail).1,
        (outcome J V d (lines newline stream).tail).2) := by
  obtain ⟨first, hfirst, hgood, hauth⟩ := h
  rw [handleConn]
  split
  · next hr =>
    rw [lines_of_read_zero hr] at hfirst
    cases hfirst
  · next hr =>
    obtain ⟨line, ls, hbad, hlines⟩ := lines_of_read_error hr
    rw [hlines, List.head?_cons, Option.some.injEq] at hfirst
    rw [hfirst, hgood] at hbad
    cases hbad
  · next n buf r hne hr =>
    obtain ⟨n, rfl⟩ := Nat.exists_eq_succ_of_ne_zero hne
    obtain ⟨line, _, htext, hlines⟩ := lines_of_read hr
    rw [hlines, List.head?_cons, Option.some.injEq] at hfirst
    have hok : Server.authorized J buf bearer = true := by
      rw [authorized_iff, ← htext, hfirst, hauth]
    rw [hlines, List.tail_cons, ← requestLoop_eq]
    simp [hok]

theorem handleConn_of_not_authenticated (h : ¬ Authenticated J bearer stream) :
    (handleConn J V bearer d stream).2 = d ∧
      ((handleConn J V bearer d stream).1 = [] ∨
        (handleConn J V bearer d stream).1 = [errJson J "unauthorized"]) := by
  rw [handleConn]
  split
  · exact ⟨rfl, .inl rfl⟩
  · exact ⟨rfl, .inl rfl⟩
  · next n buf r hne hr =>
    obtain ⟨n, rfl⟩ := Nat.exists_eq_succ_of_ne_zero hne
    obtain ⟨line, hgood, htext, hlines⟩ := lines_of_read hr
    have hno : Server.authorized J buf bearer = false := by
      rw [Bool.eq_false_iff]
      intro hok
      rw [authorized_iff, ← htext] at hok
      exact h ⟨line, by rw [hlines, List.head?_cons], hgood, hok⟩
    simp [hno]

end Handshake

section Rest

/-- Of a line that is refused, the bytes that are read show that it is refused, whatever follows. -/
theorem refused_whatever_follows (hr : r ≠ []) (hbad : good maxLine (readUntil newline r).1 = false)
    (hne : (readUntil newline r).1.take maxLine ≠ r) (rest : List UInt8) :
    ∃ line ls, good maxLine line = false ∧
      lines newline ((readUntil newline r).1.take maxLine ++ rest) = line :: ls := by
  have hfirst : (readUntil newline r).1.take maxLine ++ rest ≠ [] := by
    apply List.append_ne_nil_of_left_ne_nil
    rw [ne_eq, List.take_eq_nil_iff, not_or]
    exact ⟨by decide, readUntil_ne_nil hr⟩
  rw [lines_eq_cons hfirst]
  refine ⟨_, _, ?_, rfl⟩
  by_cases hlen : (readUntil newline r).1.length ≤ maxLine
  · rw [List.take_of_length_le hlen] at hne ⊢
    have hrest : (readUntil newline r).2 ≠ [] := by
      intro hnil
      have happend := append_readUntil newline r
      rw [hnil, List.append_nil] at happend
      exact hne happend
    rw [readUntil_append hrest, hbad]
  · have hlt : maxLine < (readUntil newline r).1.length := Nat.lt_of_not_le hlen
    have hnot : newline ∉ (readUntil newline r).1.take maxLine := not_mem_take_readUntil hlt
    have hlength : ((readUntil newline r).1.take maxLine).length = maxLine := by
      rw [List.length_take]
      omega
    generalize (readUntil newline r).1.take maxLine = b at hnot hlength
    rw [readUntil_append_of_not_mem hnot, good]
    cases (readUntil newline rest).1 with
    | nil =>
      have hlast : b.getLast? ≠ some newline := fun h => hnot (List.mem_of_getLast? h)
      simp [hlast, hlength]
    | cons a as =>
      simp only [List.length_append, List.length_cons, hlength, Bool.and_eq_false_iff]
      right
      split <;> simp

/-- Either every line is accepted, or one is refused after a number of accepted lines. -/
theorem accepted_cases (ls : List (List UInt8)) :
    (accepted ls = ls ∧ ls.dropWhile (good maxLine) = []) ∨
      ∃ line rest, ls = accepted ls ++ line :: rest ∧ good maxLine line = false ∧
        ls.dropWhile (good maxLine) = line :: rest := by
  have happend : accepted ls ++ ls.dropWhile (good maxLine) = ls := List.takeWhile_append_dropWhile
  cases hdrop : ls.dropWhile (good maxLine) with
  | nil => exact .inl ⟨by rwa [hdrop, List.append_nil] at happend, rfl⟩
  | cons line rest =>
    have hline := List.head?_dropWhile_not (good maxLine) ls
    rw [hdrop] at hline happend
    exact .inr ⟨line, rest, happend.symm, by simpa using hline, rfl⟩

theorem accepted_append {p : List (List UInt8)} (hp : ∀ line ∈ p, good maxLine line = true)
    {line : List UInt8} (h : good maxLine line = false) (ls : List (List UInt8)) :
    accepted (p ++ line :: ls) = p ∧ stops (p ++ line :: ls) = true := by
  constructor
  · rw [accepted, List.takeWhile_append_of_pos hp, List.takeWhile_cons_of_neg (by simp [h]),
      List.append_nil]
  · simp [stops, h]

/-- What follows the point that is reached changes neither the accepted lines nor the refusal. -/
theorem accepted_reached (hne : reached stream ≠ stream) (rest : List UInt8) :
    accepted (lines newline (reached stream ++ rest)) = accepted (lines newline stream) ∧
      stops (lines newline (reached stream ++ rest)) = stops (lines newline stream) := by
  obtain ⟨hall, hdrop⟩ | ⟨line, ls, hlines, hbad, hdrop⟩ := accepted_cases (lines newline stream)
  · refine absurd ?_ hne
    rw [reached, hall, hdrop, flatten_lines]
    exact List.append_nil stream
  · obtain ⟨r, hstream, hr, happend⟩ := lines_append hlines (List.cons_ne_nil line ls)
    have hrne : r ≠ [] := by
      rintro rfl
      cases hr
    rw [lines_eq_cons hrne, List.cons.injEq] at hr
    obtain ⟨rfl, -⟩ := hr
    have hreached : reached stream = (accepted (lines newline stream)).flatten ++
        (readUntil newline r).1.take maxLine := by
      rw [reached, hdrop]
      rfl
    have hcut : (readUntil newline r).1.take maxLine ≠ r := by
      intro hcut
      rw [hreached, hcut] at hne
      exact hne hstream.symm
    have hgood : ∀ line ∈ accepted (lines newline stream), good maxLine line = true :=
      fun _ => List.mem_takeWhile_imp
    obtain ⟨line', ls', hbad', hlines'⟩ := refused_whatever_follows hrne hbad hcut rest
    obtain ⟨hacc, hstop⟩ := accepted_append hgood hbad' ls'
    obtain ⟨_, hstop'⟩ := accepted_append hgood hbad ls
    rw [hreached, List.append_assoc, happend, hlines', hacc, hstop]
    rw [← hlines] at hstop'
    exact ⟨rfl, hstop'.symm⟩

theorem eq_cons_of_accepted {first : List UInt8} {ls ls' : List (List UInt8)}
    (h : accepted ls = first :: ls') :
    ∃ rest, ls = first :: rest ∧ good maxLine first = true ∧ accepted rest = ls' ∧
      stops ls = stops rest := by
  cases ls with
  | nil => cases h
  | cons line rest =>
    cases hgood : good maxLine line with
    | false => simp [accepted, hgood] at h
    | true =>
      rw [accepted, List.takeWhile_cons_of_pos hgood, List.cons.injEq] at h
      obtain ⟨rfl, h⟩ := h
      exact ⟨rest, rfl, hgood, h, by simp [stops, hgood]⟩

/-- No byte after the point that is reached is interpreted. -/
theorem handleConn_reached (h : Authenticated J bearer stream) (hne : reached stream ≠ stream)
    (rest : List UInt8) :
    handleConn J V bearer d (reached stream ++ rest) = handleConn J V bearer d stream := by
  obtain ⟨hacc, hstop⟩ := accepted_reached hne rest
  have hauth := h
  obtain ⟨first, hfirst, hgood, htoken⟩ := h
  obtain ⟨ls, hlines⟩ := List.head?_eq_some_iff.mp hfirst
  have haccepted : accepted (lines newline stream) = first :: accepted ls := by
    rw [hlines, accepted, List.takeWhile_cons_of_pos hgood]
    rfl
  obtain ⟨ls', hlines', _, hacc', hstop'⟩ := eq_cons_of_accepted (hacc.trans haccepted)
  obtain ⟨_, hcons, _, _, hstop''⟩ := eq_cons_of_accepted haccepted
  obtain rfl : ls = _ := (List.cons.inj (hlines.symm.trans hcons)).2
  have hauth' : Authenticated J bearer (reached stream ++ rest) :=
    ⟨first, by rw [hlines', List.head?_cons], hgood, htoken⟩
  have hsame : outcome J V d ls' = outcome J V d ls := by
    rw [outcome, hacc', ← hstop', hstop, hstop'', outcome]
  rw [handleConn_of_authenticated hauth, handleConn_of_authenticated hauth', hlines, hlines',
    List.tail_cons, List.tail_cons, hsame]

end Rest

/-- A connection is a gated fold over its lines. Without a handshake that can be read and holds the
bearer, nothing changes and at most an error is written. With it, the requests on the lines up to the
first refused one are handled in order, each of these lines that is not blank is answered once, in
order, the refused line is answered with an error, and nothing after it is interpreted. -/
theorem connection_is_gated_fold (J : Json) (V : LinkVerifier) (bearer : String)
    (d : ClusterDaemon T) (stream : List UInt8) :
    (¬ Authenticated J bearer stream → (handleConn J V bearer d stream).2 = d ∧
        ((handleConn J V bearer d stream).1 = [] ∨
          (handleConn J V bearer d stream).1 = [errJson J "unauthorized"])) ∧
      (Authenticated J bearer stream →
        let ls := (lines newline stream).tail
        let ts := texts (accepted ls)
        (handleConn J V bearer d stream).2 = handleAll V d (requestsOf J ts) ∧
          (handleConn J V bearer d stream).1 = ready :: ((responses J V d ts).map (encoded J) ++
            if stops ls then [errJson J "request too large"] else []) ∧
          (responses J V d ts).length = ts.length ∧
          (reached stream ≠ stream → ∀ rest,
            handleConn J V bearer d (reached stream ++ rest) = handleConn J V bearer d stream)) := by
  refine ⟨handleConn_of_not_authenticated, fun h => ⟨?_, ?_, length_responses d _, ?_⟩⟩
  · rw [handleConn_of_authenticated h, outcome]
  · rw [handleConn_of_authenticated h, outcome]
  · exact handleConn_reached h

end CitrateCluster.Connection
