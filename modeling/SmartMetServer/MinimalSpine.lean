/-
# A small instance of the libraries

The parser reads requests without a body, a header section is the text of
HTTP/1, and the reactor serves one path.  `stable_parseBodyless` and
`headerSection_head` say that it behaves as the assumptions on the libraries
ask; concrete runs of the server are computed with it.
-/
import SmartMetServer.Scanning
import SmartMetServer.Step

namespace SmartMet

open StreamFraming

namespace MinimalSpine

/-! ## The parser -/

/-- A field line: the name, and the text behind the colon and a blank. -/
def parseField (line : Bytes) : Bytes × Bytes :=
  (line.takeWhile (· != ':'), (line.dropWhile (· != ':')).drop 2)

/-- The lines of a header section; the CR of a line is dropped with the LF. -/
def headLines (head : Bytes) : List Bytes :=
  (head.splitOn '\n').map fun line => line.filter (· != '\r')

/-- The method a request line names. -/
def parseMethod (name : Bytes) : RequestMethod :=
  if name = "GET".toList then .get
  else if name = "HEAD".toList then .head
  else if name = "POST".toList then .post
  else if name = "OPTIONS".toList then .options
  else .other name

/-- A request line of three words, and the fields. -/
def parseHead (head : Bytes) : Option Request :=
  match headLines head with
  | [] => none
  | line :: fields =>
    match line.splitOn ' ' with
    | [method, resource, version] =>
      some
        { method := parseMethod method
          resource := resource
          version := version.drop 5
          headers := (fields.map parseField).foldl (fun m p => m.set p.1 p.2) ∅ }
    | _ => none

/-- A request ends with the first empty line. -/
def parseBodyless (b : Bytes) : Parsed Request :=
  match find crlfcrlf b 0 with
  | none => .incomplete
  | some stop =>
    match parseHead (b.take stop) with
    | some request => .complete request (stop + 4)
    | none => .failed

/-- The parser meets the assumption on `parseOneRequest`. -/
theorem stable_parseBodyless : Stable parseBodyless := by
  have hstop : ∀ {b : Bytes} {stop : ℕ}, find crlfcrlf b 0 = some stop →
      stop + 4 ≤ b.length := by
    intro b stop h
    obtain ⟨hi, -, hp, -⟩ := find_eq_some.mp h
    have hlen : crlfcrlf.length = 4 := by decide
    have := hp.length_le
    rw [hlen, List.length_drop] at this
    omega
  -- the parser looks at nothing behind the blank line
  have happend : ∀ {b : Bytes} {stop : ℕ} (c : Bytes), find crlfcrlf b 0 = some stop →
      parseBodyless (b ++ c) = parseBodyless b := by
    intro b stop c h
    have := hstop h
    unfold parseBodyless
    rw [find_append c h, h]
    dsimp only
    rw [List.take_append_of_le_length (by omega)]
  refine ⟨?_, ?_, ?_, ?_⟩
  · intro b r n h
    unfold parseBodyless at h
    cases hf : find crlfcrlf b 0 with
    | none => simp [hf] at h
    | some stop =>
      rw [hf] at h
      cases hr : parseHead (b.take stop) with
      | none => simp [hr] at h
      | some q =>
        simp only [hr, Parsed.complete.injEq] at h
        omega
  · intro b r n h
    unfold parseBodyless at h
    cases hf : find crlfcrlf b 0 with
    | none => simp [hf] at h
    | some stop =>
      rw [hf] at h
      cases hr : parseHead (b.take stop) with
      | none => simp [hr] at h
      | some q =>
        simp only [hr, Parsed.complete.injEq] at h
        have := hstop hf
        omega
  · intro b c r n h
    cases hf : find crlfcrlf b 0 with
    | none => simp [parseBodyless, hf] at h
    | some stop => rw [happend c hf, h]
  · intro b c h
    cases hf : find crlfcrlf b 0 with
    | none => simp [parseBodyless, hf] at h
    | some stop => rw [happend c hf, h]

/-- Requests with a body of `length` bytes. -/
def parseWithBody (length : ℕ) (b : Bytes) : Parsed Request :=
  match parseBodyless b with
  | .complete request n =>
    if n + length ≤ b.length then
      .complete { request with content := substr b n length } (n + length)
    else .incomplete
  | .failed => .failed
  | .incomplete => .incomplete

/-- A body of fixed length keeps the assumption. -/
theorem stable_parseWithBody (length : ℕ) : Stable (parseWithBody length) := by
  have hp := stable_parseBodyless
  -- a complete message is a header section with its body behind it
  have hcomplete : ∀ {b : Bytes} {r : Request} {n : ℕ}, parseWithBody length b = .complete r n →
      ∃ q m, parseBodyless b = .complete q m ∧ m + length ≤ b.length ∧ n = m + length ∧
        r = { q with content := substr b m length } := by
    intro b r n h
    unfold parseWithBody at h
    split at h
    · rename_i q m hq
      split at h
      · rename_i hlen
        obtain ⟨rfl, rfl⟩ := Parsed.complete.inj h
        exact ⟨q, m, hq, hlen, rfl, rfl⟩
      · cases h
    · cases h
    · cases h
  refine ⟨?_, ?_, ?_, ?_⟩
  · intro b r n h
    obtain ⟨q, m, hq, -, rfl, -⟩ := hcomplete h
    have := hp.consumed_pos _ _ _ hq
    omega
  · intro b r n h
    obtain ⟨q, m, -, hlen, rfl, -⟩ := hcomplete h
    exact hlen
  · intro b c r n h
    obtain ⟨q, m, hq, hlen, rfl, rfl⟩ := hcomplete h
    unfold parseWithBody
    rw [hp.complete_append _ c _ _ hq]
    dsimp only
    rw [if_pos (by rw [List.length_append]; omega), substr_append c hlen]
  · intro b c h
    unfold parseWithBody at h
    split at h
    · split at h
      · cases h
      · cases h
    · rename_i hf
      unfold parseWithBody
      rw [hp.failed_append _ c hf]
    · cases h

/-! ## The libraries -/

/-- The status line and the fields, in the order they were set. -/
def headerSection (r : Response) : Bytes :=
  "HTTP/".toList ++ r.version ++ " ".toList ++ toDecimal (r.status.getD 0) ++ crlf ++
    r.headers.entries.reverse.flatMap (fun e => e.2.1 ++ ": ".toList ++ e.2.2 ++ crlf) ++ crlf

/-- A header section begins with the version of the protocol. -/
theorem headerSection_head (r : Response) : (headerSection r).head? = some 'H' := by
  unfold headerSection
  rw [show "HTTP/".toList = 'H' :: "TTP/".toList from by decide]
  simp

/-- A number in decimal digits, if it is one. -/
def stoul (b : Bytes) : Option ℕ :=
  if !b.isEmpty && b.all Char.isDigit then
    some (b.foldl (fun n c => 10 * n + (c.toNat - '0'.toNat)) 0)
  else none

/-- The libraries: the reactor serves the path `/x`. -/
def spine : Spine where
  parseOneRequest := parseBodyless
  headerSection := headerSection
  stockContent status := "<h1>".toList ++ toDecimal status ++ "</h1>".toList
  chunkedAfterSetContent _ := false
  stockOptionsResponse := { status := some 204 }
  highLoad := 1234
  shutdown := 3210
  highLoad_local := by decide
  shutdown_local := by decide
  highLoad_ne_shutdown := by decide
  resolveClientIP peer _ := peer
  getHandlerView r :=
    if r.resource = "/x".toList then
      some { isCatchNoMatch := false, isAdminQuery := false, queryIsFast := true }
    else none
  selectContentEncoding _ _ _ := []
  supportedContentEncodings := []
  wildcardContentEncoding := []
  compress _ content := content
  contentCodedETag etag _ := etag
  notModifiedETag _ etag := etag
  stoul := stoul
  serverString := "SmartMet".toList

/-- A server with the default settings. -/
def server : Server := { spine := spine }

/-- An outside that answers nothing out of the ordinary. -/
def answers : Answers := { date := "now".toList, peer := some "192.0.2.1".toList }

/-- A run of the server, computed. -/
theorem reached (es : List Event) (P : AsyncConnection → Bool)
    (h : (AsyncConnection.runFrom server (AsyncConnection.start server) es).any P = true) :
    ∃ s, AsyncConnection.runFrom server (AsyncConnection.start server) es = some s ∧
      P s = true := by
  rwa [Option.any_eq_true] at h

end MinimalSpine

end SmartMet
