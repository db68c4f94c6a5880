/-
# Utility functions of the server (`source/Utility.cpp`)

The string scanning of `std::string` first: positions count from the start of
the string, and `npos` is `none`.  Loops run on fuel that the length of the
string bounds.
-/
import SmartMetServer.Http
import SmartMetServer.ChunkedCoding

namespace SmartMet

/-! ## Scanning -/

/-- `s.find(pat, pos)`. -/
def find (pat s : Bytes) (pos : ℕ) : Option ℕ :=
  (List.range (s.length + 1)).find? fun i => pos ≤ i && pat.isPrefixOf (s.drop i)

/-- `s.rfind(pat, pos)`: the last match that starts at `pos` or before. -/
def rfind (pat s : Bytes) (pos : ℕ) : Option ℕ :=
  (List.range (min pos s.length + 1)).reverse.find? fun i => pat.isPrefixOf (s.drop i)

/-- `s.find_first_not_of(set, pos)`. -/
def findFirstNotOf (set s : Bytes) (pos : ℕ) : Option ℕ :=
  (List.range s.length).find? fun i => pos ≤ i && (s[i]?).any fun c => !set.contains c

/-- `s.find_last_not_of(set, pos)`. -/
def findLastNotOf (set s : Bytes) (pos : ℕ) : Option ℕ :=
  (List.range (min (pos + 1) s.length)).reverse.find? fun i =>
    (s[i]?).any fun c => !set.contains c

/-- `s.substr(pos, n)`. -/
def substr (s : Bytes) (pos n : ℕ) : Bytes := (s.drop pos).take n

/-- `boost::algorithm::icontains`. -/
def icontains (s pat : Bytes) : Bool := (find (asciiToLower pat) (asciiToLower s) 0).isSome

/-- The end of a line. -/
def crlf : Bytes := "\r\n".toList
/-- The end of a header section. -/
def crlfcrlf : Bytes := "\r\n\r\n".toList
/-- What may stand around the elements of a list. -/
def blanks : Bytes := " \t".toList

/-! ## Numbers -/

/-- `convertToHex`. -/
def convertToHex (theNumber : ℕ) : Bytes := ChunkedCoding.toHex theNumber

/-! ## Header lists -/

/-- The text between `pos` and `stop` without the blanks around it, if there is
any: the body of the two loops over a comma separated list. -/
def listElement (headerValue : Bytes) (pos stop : ℕ) : Option Bytes :=
  match findFirstNotOf blanks headerValue pos with
  | some first =>
    if first < stop then
      let last := (findLastNotOf blanks headerValue (stop - 1)).getD headerValue.length
      some (substr headerValue first (last - first + 1))
    else none
  | none => none

/-- The loop of `hasHeaderToken`, from a position on. -/
def hasHeaderTokenFrom (headerValue token : Bytes) : ℕ → ℕ → Bool
  | 0, _ => false
  | fuel + 1, pos =>
    if pos ≤ headerValue.length then
      let stop := (find [','] headerValue pos).getD headerValue.length
      (listElement headerValue pos stop).any (fun e => asciiToLower e == token)
        || hasHeaderTokenFrom headerValue token fuel (stop + 1)
    else false

/-- Whether a comma separated header value contains a token. -/
def hasHeaderToken (headerValue token : Bytes) : Bool :=
  hasHeaderTokenFrom headerValue token (headerValue.length + 1) 0

/-! ## Versions -/

/-- The HTTP version to answer a request with. -/
def negotiateVersion (sp : Spine) (requestVersion : Bytes) : HttpVersion :=
  match find ['.'] requestVersion 0 with
  | none => .v1_0
  | some dot =>
    match sp.stoul (substr requestVersion 0 dot),
        sp.stoul (requestVersion.drop (dot + 1)) with
    | some major, some minor =>
      if major > 1 || (major == 1 && minor ≥ 1) then .v1_1 else .v1_0
    | _, _ => .v1_0

/-! ## Requests whose body has not arrived -/

/-- Selected fields of a request whose header section has arrived. -/
structure RawRequestHead where
  complete : Bool := false
  version : Bytes := []
  expect : Bytes := []
  deriving DecidableEq, Repr

/-- The value of the first `Expect` line between `pos` and `stop`. -/
def peekExpect (buffer : Bytes) (stop : ℕ) : ℕ → ℕ → Bytes
  | 0, _ => []
  | fuel + 1, pos =>
    if pos < stop then
      match find crlf buffer pos with
      | none => []
      | some lineEnd =>
        if lineEnd > stop then []
        else
          match find [':'] buffer pos with
          | some colon =>
            if colon < lineEnd
                && asciiToLower (substr buffer pos (colon - pos)) == "expect".toList then
              match findFirstNotOf blanks buffer (colon + 1) with
              | some first =>
                if first < lineEnd then
                  let last := (findLastNotOf blanks buffer (lineEnd - 1)).getD buffer.length
                  substr buffer first (last - first + 1)
                else []
              | none => []
            else peekExpect buffer stop fuel (lineEnd + 2)
          | none => peekExpect buffer stop fuel (lineEnd + 2)
    else []

/-- Selected fields, straight from the raw bytes. -/
def peekRequestHead (buffer : Bytes) : RawRequestHead :=
  match find crlfcrlf buffer 0 with
  | none => {}
  | some stop =>
    let eol := (find crlf buffer 0).getD buffer.length
    let version :=
      match rfind "HTTP/".toList buffer eol with
      | some versionPos => substr buffer (versionPos + 5) (eol - versionPos - 5)
      | none => []
    { complete := true
      version := version
      expect := peekExpect buffer stop (buffer.length + 1) (eol + 2) }

/-! ## Compression -/

/-- The content coding to use for a response; empty for none. -/
def selectContentEncoding (sp : Spine) (request : Request) (response : Response)
    (compressLimit : ℕ) (contentCodings : List Bytes) : Bytes :=
  if (response.getHeader "Content-Encoding".toList).isSome then []
  else if (response.getHeader "Content-Type".toList).any (fun content =>
      ["image/png".toList, "image/webp".toList, "application/pdf".toList].any
        fun mime => (find mime content 0).isSome) then []
  else if request.getParameter "gzip".toList = some "1".toList then "gzip".toList
  else if response.getContentLength < compressLimit then []
  else
    sp.selectContentEncoding request
      (if contentCodings.isEmpty then sp.supportedContentEncodings else contentCodings)
      sp.wildcardContentEncoding

/-- Compress the content in place. -/
def compressResponse (sp : Spine) (response : Response) (encoding : Bytes) : Response :=
  let output := sp.compress encoding response.getContent
  let response := (response.setContent sp output).setHeader "Content-Encoding".toList encoding
  match response.getHeader "ETag".toList with
  | some etag => response.setHeader "ETag".toList (sp.contentCodedETag etag encoding)
  | none => response

end SmartMet
