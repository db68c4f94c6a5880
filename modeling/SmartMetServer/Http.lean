/-
# HTTP requests and responses

The data the server handles, and the functions of the Spine and Macgyver
libraries it calls.  The libraries are not part of the repository: what they
compute is a parameter, the structure `Spine`.  Header maps are association
lists keyed by the lower-cased name, as Spine's maps compare names without
regard to case; the spelling is kept with the value.

A `std::string` is a list of characters, one for each byte.
-/
import Mathlib.Data.List.AList
import SmartMetServer.StreamFraming

namespace SmartMet

/-- The bytes of a `std::string`. -/
abbrev Bytes : Type := List Char

/-- ASCII-only lower case, `Fmi::ascii_tolower_copy`. -/
def asciiToLower (s : Bytes) : Bytes := s.map Char.toLower

/-- `std::to_string` and `Fmi::to_string` of an unsigned number. -/
def toDecimal (n : ℕ) : Bytes := Nat.toDigits 10 n

/-! ## Header maps -/

/-- A header map: the key is the lower-cased name, the entry the spelling of the
name and the value.  No two entries have one key. -/
abbrev HeaderMap : Type := AList fun _ : Bytes => Bytes × Bytes

namespace HeaderMap

/-- `getHeader`. -/
def get (m : HeaderMap) (name : Bytes) : Option Bytes :=
  (m.lookup (asciiToLower name)).map Prod.snd

/-- `setHeader`. -/
def set (m : HeaderMap) (name value : Bytes) : HeaderMap :=
  m.insert (asciiToLower name) (name, value)

/-- `removeHeader`. -/
def remove (m : HeaderMap) (name : Bytes) : HeaderMap :=
  m.erase (asciiToLower name)

@[simp] theorem get_set_self (m : HeaderMap) (n v : Bytes) : (m.set n v).get n = some v := by
  simp [get, set]

theorem get_set_of_ne (m : HeaderMap) {n k : Bytes} (v : Bytes)
    (h : asciiToLower k ≠ asciiToLower n) : (m.set n v).get k = m.get k := by
  simp [get, set, AList.lookup_insert_ne h]

@[simp] theorem get_remove_self (m : HeaderMap) (n : Bytes) : (m.remove n).get n = none := by
  simp [get, remove]

theorem get_remove_of_ne (m : HeaderMap) {n k : Bytes}
    (h : asciiToLower k ≠ asciiToLower n) : (m.remove n).get k = m.get k := by
  simp [get, remove, AList.lookup_erase_ne h]

end HeaderMap

/-! ## Status codes -/

/-- A Spine status.  The enumerators are the numeric codes. -/
abbrev Status : Type := ℕ

namespace Status

/-- The request is malformed, lacks its `Host`, or was turned down by its handler. -/
def badRequest : Status := 400
/-- No handler serves the path. -/
def notFound : Status := 404
/-- The timer expired before the request was served. -/
def requestTimeout : Status := 408
/-- The request is longer than the server takes. -/
def requestEntityTooLarge : Status := 413
/-- The request expects what the server does not do. -/
def expectationFailed : Status := 417
/-- The header section is longer than the server takes. -/
def requestHeaderFieldsTooLarge : Status := 431
/-- The handler left the status of its response unset. -/
def notImplemented : Status := 501
/-- The executor does not take the task, or a write has failed. -/
def serviceUnavailable : Status := 503
/-- The client holds the response already. -/
def notModified : Status := 304

end Status

/-- Statuses whose responses carry no message body. -/
def statusHasNoBody (status : Option Status) : Bool :=
  match status with
  | some code => (100 ≤ code && code < 200) || code == 204 || code == 304
  | none => false

/-! ## Requests and responses -/

/-- The HTTP versions the server answers in. -/
inductive HttpVersion where
  | v1_0
  | v1_1
  deriving DecidableEq, Repr

/-- The text of `itsResponseVersion`. -/
def HttpVersion.text : HttpVersion → Bytes
  | .v1_0 => "1.0".toList
  | .v1_1 => "1.1".toList

/-- Request methods, with the method string of those the server does not name. -/
inductive RequestMethod where
  | get
  | head
  | post
  | options
  | other (name : Bytes)
  deriving DecidableEq, Repr

/-- A parsed request. -/
structure Request where
  method : RequestMethod := .get
  resource : Bytes := []
  version : Bytes := []
  headers : HeaderMap := ∅
  content : Bytes := []
  parameters : List (Bytes × Bytes) := []
  clientIP : Bytes := []
  deriving DecidableEq

/-- The value of a request parameter. -/
def Request.getParameter (r : Request) (name : Bytes) : Option Bytes :=
  r.parameters.lookup name

/-- What a streamer says of itself. -/
inductive StreamerStatus where
  | ok
  | exitOk
  | exitError
  deriving DecidableEq, Repr

/-- The content of a response: bytes, or a streamer and the length announced for
it.  What a streamer produces is answered from outside, chunk by chunk. -/
inductive Content where
  | buffer (bytes : Bytes)
  | stream (announced : ℕ)
  deriving DecidableEq, Repr

/-- A response.  The status is `none` until somebody sets it. -/
structure Response where
  status : Option Status := none
  version : Bytes := []
  headers : HeaderMap := ∅
  content : Content := .buffer []
  chunked : Bool := false
  isGatewayResponse : Bool := false
  itsOriginatingBackend : Bytes := []
  itsBackendPort : ℕ := 0
  streamCompletionHandler : Bool := false
  deriving DecidableEq

namespace Response

/-- A field of the response, by its name in any case. -/
def getHeader (r : Response) (name : Bytes) : Option Bytes := r.headers.get name

/-- A field is set, in place of one of the same name. -/
def setHeader (r : Response) (name value : Bytes) : Response :=
  { r with headers := r.headers.set name value }

/-- A field is removed. -/
def removeHeader (r : Response) (name : Bytes) : Response :=
  { r with headers := r.headers.remove name }

/-- The version of the status line. -/
def setVersion (r : Response) (version : Bytes) : Response := { r with version := version }

/-- The length of the content: of a stream, what it announces. -/
def getContentLength (r : Response) : ℕ :=
  match r.content with
  | .buffer b => b.length
  | .stream n => n

/-- Whether the content comes from a streamer. -/
def hasStreamContent (r : Response) : Bool :=
  match r.content with
  | .buffer _ => false
  | .stream _ => true

/-- `getContent` and `contentToBuffer` of a buffered response. -/
def getContent (r : Response) : Bytes :=
  match r.content with
  | .buffer b => b
  | .stream _ => []

end Response

/-! ## The libraries -/

/-- A handler view, with its answers about the request it was found for. -/
structure HandlerView where
  isCatchNoMatch : Bool
  isAdminQuery : Bool
  queryIsFast : Bool
  deriving DecidableEq, Repr

/-- What the code calls in Spine and Macgyver, boost::iostreams and the reactor. -/
structure Spine where
  parseOneRequest : Bytes → StreamFraming.Parsed Request
  /-- The header section of a response whose status is set. -/
  headerSection : Response → Bytes
  /-- The content `setStatus(status, true)` installs. -/
  stockContent : Status → Bytes
  /-- Whether a response is still chunked after its content was replaced by bytes. -/
  chunkedAfterSetContent : Bool → Bool
  stockOptionsResponse : Response
  highLoad : Status
  shutdown : Status
  /-- The two local codes are none of HTTP's. -/
  highLoad_local : 599 < highLoad
  shutdown_local : 599 < shutdown
  highLoad_ne_shutdown : highLoad ≠ shutdown
  resolveClientIP : Bytes → Option Bytes → Bytes
  getHandlerView : Request → Option HandlerView
  selectContentEncoding : Request → List Bytes → Bytes → Bytes
  supportedContentEncodings : List Bytes
  wildcardContentEncoding : Bytes
  /-- The compressor of a coding. -/
  compress : Bytes → Bytes → Bytes
  contentCodedETag : Bytes → Bytes → Bytes
  notModifiedETag : Request → Bytes → Bytes
  /-- `Fmi::stoul`; `none` when it throws. -/
  stoul : Bytes → Option ℕ
  /-- The value of the `Server` field, fixed when the server is built. -/
  serverString : Bytes

namespace Response

/-- `setContent` with a string. -/
def setContent (sp : Spine) (r : Response) (content : Bytes) : Response :=
  { r with content := .buffer content, chunked := sp.chunkedAfterSetContent r.chunked }

/-- `setStatus(status, true)`: the status, and its stock page as the content. -/
def setStatus (sp : Spine) (r : Response) (status : Status) : Response :=
  { r.setContent sp (sp.stockContent status) with status := some status }

end Response

/-- `headersToString` and `headersToBuffer`, which throw when the status of the
response was left unset. -/
def headersToString (sp : Spine) (r : Response) : Option Bytes :=
  if r.status.isSome then some (sp.headerSection r) else none

end SmartMet
