import CitrateCluster.Ipc
import CitrateCluster.Lines

namespace CitrateCluster.Server

open Text Device Transport Daemon Ipc Lines

/-- What the server takes from `serde_json`: reading the token of a handshake, reading a request, or
the text of the error, and writing a response. -/
structure Json where
  parseAuth : String → Option String
  parseRequest : String → Except String Request
  encode : Response → Option String

def maxLine : Nat := 64 * 1024

def newline : UInt8 := 0x0A

/-- Read one line, but never more than `max` bytes. The result is the number of bytes and the text;
the errors are of the kind `InvalidData`. Whether text ends with a newline shows in its last byte. -/
def readCappedLine (max : Nat) (r : List UInt8) : Except String (Nat × String) × List UInt8 :=
  let line := (readUntil newline (r.take max)).1
  let n := line.length
  match fromUtf8 line with
  | none => (.error "stream did not contain valid UTF-8", r.drop n)
  | some buf =>
    if n = max ∧ line.getLast? ≠ some newline then (.error "line exceeds maximum length", r.drop n)
    else (.ok (n, buf), r.drop n)

def authorized (J : Json) (authLine bearer : String) : Bool :=
  match J.parseAuth (trim authLine) with
  | none => false
  | some token => len token == len bearer && bytes token == bytes bearer

def errJson (J : Json) (msg : String) : String :=
  (J.encode (.error msg)).getD "\x7b\"type\":\"error\",\"message\":\"error\"\x7d"

/-- A response as it is written, in one line. -/
def encoded (J : Json) (resp : Response) : String :=
  (J.encode resp).getD (errJson J "response encode failed")

def ready : String := "\x7b\"type\":\"ready\"\x7d"

section Reading

variable {max : Nat} {r r' : List UInt8}

/-- A line that the reader accepts: UTF-8, and with its newline within the first `max` bytes, or
shorter than that. -/
def good (max : Nat) (line : List UInt8) : Bool :=
  (fromUtf8 line).isSome &&
    if line.getLast? = some newline then decide (line.length ≤ max) else decide (line.length < max)

/-- The reader accepts the next line of the stream, as a whole, or fails. -/
theorem readCappedLine_cases (max : Nat) (r : List UInt8) :
    (good max (readUntil newline r).1 = true ∧ ∃ buf,
        fromUtf8 (readUntil newline r).1 = some buf ∧ readCappedLine max r =
          (.ok ((readUntil newline r).1.length, buf), (readUntil newline r).2)) ∨
      (good max (readUntil newline r).1 = false ∧ ∃ e r', readCappedLine max r = (.error e, r')) := by
  have htake : (readUntil newline (r.take max)).1 = (readUntil newline r).1.take max :=
    readUntil_take max r
  rw [readCappedLine, htake, good]
  by_cases hlen : (readUntil newline r).1.length ≤ max
  · rw [List.take_of_length_le hlen, drop_length_readUntil]
    cases hutf : fromUtf8 (readUntil newline r).1 with
    | none => exact .inr ⟨rfl, _, _, rfl⟩
    | some buf =>
      by_cases hlast : (readUntil newline r).1.getLast? = some newline
      · exact .inl ⟨by simp [hlast, hlen], buf, rfl, by simp [hlast]⟩
      · by_cases hmax : (readUntil newline r).1.length = max
        · exact .inr ⟨by simp [hlast, hmax], _, _, if_pos ⟨hmax, hlast⟩⟩
        · refine .inl ⟨?_, buf, rfl, by simp [hmax]⟩
          simp only [Option.isSome_some, hlast, if_false, Bool.true_and, decide_eq_true_eq]
          omega
  · refine .inr ⟨?_, ?_⟩
    · have hlt : ¬ (readUntil newline r).1.length < max := by omega
      simp [hlen, hlt]
    · have hlast : ((readUntil newline r).1.take max).getLast? ≠ some newline := fun h =>
        not_mem_take_readUntil (Nat.lt_of_not_le hlen) (List.mem_of_getLast? h)
      have hlength : ((readUntil newline r).1.take max).length = max := by
        rw [List.length_take]
        omega
      cases fromUtf8 ((readUntil newline r).1.take max) with
      | none => exact ⟨_, _, rfl⟩
      | some buf => exact ⟨_, _, if_pos ⟨hlength, hlast⟩⟩

example : readCappedLine 3 (bytes "ab\nc") = (.ok (3, "ab\n"), bytes "c") := by decide +kernel

example : readCappedLine 3 (bytes "abc\n") =
    (.error "line exceeds maximum length", bytes "\n") := by decide +kernel

/-- A line that is not empty takes the reader further. -/
theorem length_readCappedLine {n : Nat} {buf : String}
    (h : readCappedLine max r = (.ok (n + 1, buf), r')) : r'.length < r.length := by
  obtain ⟨_, buf', _, hr⟩ | ⟨_, e, r'', hr⟩ := readCappedLine_cases max r
  · rw [hr] at h
    simp only [Prod.mk.injEq, Except.ok.injEq] at h
    obtain ⟨⟨hn, _⟩, rfl⟩ := h
    have happend := congrArg List.length (append_readUntil newline r)
    rw [List.length_append] at happend
    omega
  · rw [hr] at h
    cases h

end Reading

section Serving

variable {T : Type} [MeshTransport T]

/-- Request and response, one line each, until the stream ends or a line is refused. -/
def requestLoop (J : Json) (V : LinkVerifier) (d : ClusterDaemon T) (r : List UInt8) :
    List String × ClusterDaemon T :=
  match h : readCappedLine maxLine r with
  | (.ok (0, _), _) => ([], d)
  | (.ok (n + 1, line), r') =>
    have : r'.length < r.length := length_readCappedLine h
    if (trim line).isEmpty then requestLoop J V d r'
    else
      let (resp, d) :=
        match J.parseRequest (trim line) with
        | .ok req => handleRequest V d req
        | .error e => (.error ("bad request: " ++ e), d)
      let (out, d) := requestLoop J V d r'
      (encoded J resp :: out, d)
  | (.error _, _) => ([errJson J "request too large"], d)
termination_by r.length

/-- One connection of a peer with the daemon's own uid: the lines it is sent, and the daemon after
it. -/
def handleConn (J : Json) (V : LinkVerifier) (bearer : String) (d : ClusterDaemon T)
    (stream : List UInt8) : List String × ClusterDaemon T :=
  match readCappedLine maxLine stream with
  | (.ok (0, _), _) => ([], d)
  | (.error _, _) => ([], d)
  | (.ok (_, line), r) =>
    if !authorized J line bearer then ([errJson J "unauthorized"], d)
    else
      let (out, d) := requestLoop J V d r
      (ready :: out, d)

end Serving

end CitrateCluster.Server
