/-
# Content codings

What `startRegularReply` makes of the content of a handler's response, and of the
header fields that tell a client and a cache about it: `Content-Encoding`, `ETag`
and `Vary`.

* `compression_preserves` : the content reads as the handler's content;
* `bodyless_untouched` : responses whose status permits no content;
* `vary_names_coding` : two requests that are answered in different codings.
-/
import SmartMetServer.MinimalSpine
import SmartMetServer.Origins

namespace SmartMet

namespace AsyncConnection

variable (srv : Server) (a : Answers)

/-! ## The response that goes out -/

/-- The coding `startRegularReply` applies to a response; empty for none. -/
def codingFor (request : Request) (r : Response) : Bytes :=
  if srv.itsCanGzip && !r.hasStreamContent then
    selectContentEncoding srv.spine request r srv.itsCompressLimit srv.contentCodings
  else []

/-- The response is coded when a coding was found. -/
theorem encodeResponse_eq (request : Request) (r : Response) :
    encodeResponse srv request r =
      if (codingFor srv request r).isEmpty then r
      else compressResponse srv.spine r (codingFor srv request r) := by
  unfold encodeResponse codingFor
  split
  · rfl
  · rfl

/-- The coding is chosen by the fields and the size of the content. -/
theorem codingFor_congr {request : Request} {r r' : Response}
    (hcoding : r'.getHeader "Content-Encoding".toList = r.getHeader "Content-Encoding".toList)
    (htype : r'.getHeader "Content-Type".toList = r.getHeader "Content-Type".toList)
    (hcontent : r'.content = r.content) : codingFor srv request r' = codingFor srv request r := by
  unfold codingFor selectContentEncoding Response.hasStreamContent Response.getContentLength
  rw [hcoding, htype, hcontent]

/-- The response of `startReply` when the content is at hand. -/
def emitted (s : AsyncConnection) : Response := (startReply srv a s).itsResponse

/-- A buffered response takes the regular path, -/
theorem startReply_of_buffer {s : AsyncConnection} (h : s.itsResponse.hasStreamContent = false) :
    startReply srv a s =
      startRegularReply srv (setServerHeaders srv a (s.emit (.started .regular))) := by
  unfold startReply
  split
  · rfl
  · rw [if_neg (by rw [h]; simp)]

/-- with these fields. -/
theorem emitted_eq {s : AsyncConnection} (h : s.itsResponse.hasStreamContent = false) :
    emitted srv a s = sentResponse srv .regular (setServerHeaders srv a s) := by
  unfold emitted
  rw [startReply_of_buffer srv a h]
  rfl

/-- Rendering leaves the fields, -/
theorem getHeader_renderHeaders (r : Response) (name : Bytes) :
    (renderHeaders srv r).1.getHeader name = r.getHeader name := by
  unfold renderHeaders
  split
  · rfl
  · rfl

/-- coding all but two, -/
theorem getHeader_compressResponse (r : Response) (encoding : Bytes) {name : Bytes}
    (hc : asciiToLower name ≠ asciiToLower "Content-Encoding".toList)
    (he : asciiToLower name ≠ asciiToLower "ETag".toList) :
    (compressResponse srv.spine r encoding).getHeader name = r.getHeader name := by
  unfold compressResponse
  dsimp only
  split
  · exact (HeaderMap.get_set_of_ne _ _ he).trans (HeaderMap.get_set_of_ne _ _ hc)
  · exact HeaderMap.get_set_of_ne _ _ hc

/-- The content that is at hand. -/
theorem getContent_of_content {r : Response} {b : Bytes} (h : r.content = .buffer b) :
    r.getContent = b := by
  unfold Response.getContent
  rw [h]

/-- What the coding makes of the content. -/
theorem content_encodeResponse (request : Request) (r : Response) :
    (encodeResponse srv request r).content =
      if (codingFor srv request r).isEmpty then r.content
      else .buffer (srv.spine.compress (codingFor srv request r) r.getContent) := by
  rw [encodeResponse_eq]
  split
  · rfl
  · unfold compressResponse
    dsimp only
    split
    · rfl
    · rfl

/-- The coding names itself. -/
theorem contentEncoding_encodeResponse (request : Request) (r : Response) :
    (encodeResponse srv request r).getHeader "Content-Encoding".toList =
      if (codingFor srv request r).isEmpty then r.getHeader "Content-Encoding".toList
      else some (codingFor srv request r) := by
  have hne : asciiToLower "Content-Encoding".toList ≠ asciiToLower "ETag".toList := by decide
  rw [encodeResponse_eq]
  split
  · rfl
  · unfold compressResponse
    dsimp only
    split
    · exact (HeaderMap.get_set_of_ne _ _ hne).trans (HeaderMap.get_set_self _ _ _)
    · exact HeaderMap.get_set_self _ _ _

/-- The entity-tag names the coding. -/
theorem etag_encodeResponse (request : Request) (r : Response) :
    (encodeResponse srv request r).getHeader "ETag".toList =
      if (codingFor srv request r).isEmpty then r.getHeader "ETag".toList
      else (r.getHeader "ETag".toList).map fun etag =>
        srv.spine.contentCodedETag etag (codingFor srv request r) := by
  have hne : asciiToLower "ETag".toList ≠ asciiToLower "Content-Encoding".toList := by decide
  rw [encodeResponse_eq]
  split
  · rfl
  · have hkept : ((r.setContent srv.spine (srv.spine.compress (codingFor srv request r)
        r.getContent)).setHeader "Content-Encoding".toList (codingFor srv request r)).getHeader
        "ETag".toList = r.getHeader "ETag".toList := HeaderMap.get_set_of_ne _ _ hne
    unfold compressResponse
    dsimp only
    rw [hkept]
    cases h : r.getHeader "ETag".toList with
    | none => exact hkept.trans h
    | some etag => exact HeaderMap.get_set_self _ _ _

/-- the tag of a 304 all but one -/
theorem getHeader_echoETag (request : Request) (r : Response) {name : Bytes}
    (h : asciiToLower name ≠ asciiToLower "ETag".toList) :
    (echoETag srv request r).getHeader name = r.getHeader name := by
  unfold echoETag
  split
  · split
    · exact HeaderMap.get_set_of_ne _ _ h
    · rfl
  · rfl

/-- The tag of a 304 is the variant's. -/
theorem etag_echoETag (request : Request) (r : Response) :
    (echoETag srv request r).getHeader "ETag".toList =
      if r.status = some .notModified then
        (r.getHeader "ETag".toList).map (srv.spine.notModifiedETag request)
      else r.getHeader "ETag".toList := by
  unfold echoETag
  split
  · cases h : r.getHeader "ETag".toList with
    | none => exact h
    | some etag => exact HeaderMap.get_set_self _ _ _
  · rfl

/-- and the framing all but its own two. -/
theorem getHeader_frameResponse (headRequest : Bool) (r : Response) {name : Bytes}
    (hl : asciiToLower name ≠ asciiToLower "Content-Length".toList)
    (ht : asciiToLower name ≠ asciiToLower "Transfer-Encoding".toList) :
    (frameResponse srv headRequest r).getHeader name = r.getHeader name := by
  unfold frameResponse
  split
  · exact (HeaderMap.get_remove_of_ne _ ht).trans (HeaderMap.get_remove_of_ne _ hl)
  · split
    · exact (HeaderMap.get_remove_of_ne _ ht).trans (HeaderMap.get_remove_of_ne _ hl)
    · exact HeaderMap.get_set_of_ne _ _ hl

/-- It changes no content, -/
theorem content_echoETag (request : Request) (r : Response) :
    (echoETag srv request r).content = r.content := by
  unfold echoETag
  split
  · split
    · rfl
    · rfl
  · rfl

/-- and the framing none that a status allows. -/
theorem content_frameResponse (headRequest : Bool) {r : Response}
    (h : statusHasNoBody r.status = false) :
    (frameResponse srv headRequest r).content = r.content := by
  unfold frameResponse
  rw [if_neg (by rw [h]; simp)]
  split
  · rfl
  · rfl

/-- The response whose header section `startRegularReply` renders. -/
def framed (t : AsyncConnection) : Response :=
  frameResponse srv t.itsHeadRequest
    (echoETag srv t.itsRequest (encodeResponse srv t.itsRequest t.itsResponse))

/-- The response of `startRegularReply` before the framing fields are set. -/
def echoed (s : AsyncConnection) : Response :=
  echoETag srv s.itsRequest
    (encodeResponse srv s.itsRequest (setServerHeaders srv a s).itsResponse)

/-- The status is that of the handler. -/
theorem status_echoed {s : AsyncConnection} {st : Status} (h : s.itsResponse.status = some st) :
    (echoed srv a s).status = some st := by
  have hcode := sameFraming_encodeResponse srv s.itsRequest (setServerHeaders srv a s).itsResponse
  have hecho := sameFraming_echoETag srv s.itsRequest
    (encodeResponse srv s.itsRequest (setServerHeaders srv a s).itsResponse)
  exact hecho.status.trans (hcode.status.trans ((sameBody_setServerHeaders srv a s).status.trans h))

/-- A response with a status is sent as it was framed. -/
theorem emitted_of_status {s : AsyncConnection} (hs : s.itsResponse.hasStreamContent = false)
    {st : Status} (h : s.itsResponse.status = some st) :
    emitted srv a s = frameResponse srv s.itsHeadRequest (echoed srv a s) := by
  refine (emitted_eq srv a hs).trans (renderHeaders_fst srv ?_)
  refine (congrArg Option.isSome ?_).trans (Option.isSome_some (a := st))
  exact (frameResponse_status srv _ _).trans (status_echoed srv a h)

/-- The coding of a response is not changed by the server's own fields. -/
theorem codingFor_setServerHeaders (request : Request) (s : AsyncConnection) :
    codingFor srv request (setServerHeaders srv a s).itsResponse
      = codingFor srv request s.itsResponse := by
  have hsame := sameBody_setServerHeaders srv a s
  exact codingFor_congr srv (hsame.field _ (by decide)) (hsame.field _ (by decide)) hsame.content

/-! ## What a coding may be -/

/-- What a client makes of the content of a response. -/
def reads (decode : Bytes → Bytes → Option Bytes) (r : Response) : Option Bytes :=
  match r.getHeader "Content-Encoding".toList with
  | some coding => decode coding r.getContent
  | none => some r.getContent

/-- What is assumed of the codings: one is selected of those on offer, the request
accepts it, and its decoder inverts its encoder. -/
structure Codecs (sp : Spine) (Accepts : Request → Bytes → Prop)
    (decode : Bytes → Bytes → Option Bytes) : Prop where
  selected : ∀ q offered wildcard, sp.selectContentEncoding q offered wildcard = [] ∨
    sp.selectContentEncoding q offered wildcard ∈ offered ∧
      sp.selectContentEncoding q offered wildcard ∈ ["zstd".toList, "gzip".toList] ∧
      Accepts q (sp.selectContentEncoding q offered wildcard)
  inverse : ∀ coding ∈ ["zstd".toList, "gzip".toList], ∀ content,
    decode coding (sp.compress coding content) = some content

/-- A type whose content is compressed already. -/
def Excluded (r : Response) : Prop :=
  ∃ type mime, r.getHeader "Content-Type".toList = some type ∧
    mime ∈ ["image/png".toList, "image/webp".toList, "application/pdf".toList] ∧ mime <:+: type

/-- The response `r` and the bytes `wire` represent what the handler's response `h`
does. -/
structure Represents (sp : Spine) (Accepts : Request → Bytes → Prop)
    (decode : Bytes → Bytes → Option Bytes) (head : Bool) (q : Request) (h r : Response)
    (wire : Bytes) : Prop where
  readable : reads decode r = reads decode h
  single : ∀ coding, h.getHeader "Content-Encoding".toList = some coding →
    r.getHeader "Content-Encoding".toList = some coding ∧ r.content = h.content
  excluded : Excluded h → r.content = h.content ∧
    r.getHeader "Content-Encoding".toList = h.getHeader "Content-Encoding".toList
  sized : r.getHeader "Content-Length".toList = some (toDecimal r.getContent.length) ∨
    head = true ∧ r.getHeader "Content-Length".toList = none
  wire : wire = sp.headerSection r ++ if head then [] else r.getContent
  accepted : ∀ coding, r.getHeader "Content-Encoding".toList = some coding →
    h.getHeader "Content-Encoding".toList = some coding ∨ Accepts q coding ∨
      q.getParameter "gzip".toList = some "1".toList

/-- A type is excluded when one of the texts occurs in it. -/
theorem excluded_iff (r : Response) :
    Excluded r ↔ (r.getHeader "Content-Type".toList).any (fun content =>
      ["image/png".toList, "image/webp".toList, "application/pdf".toList].any
        fun mime => (find mime content 0).isSome) = true := by
  unfold Excluded
  simp only [Option.any_eq_true, List.any_eq_true, find_isSome]
  constructor
  · rintro ⟨type, mime, htype, hmime, hin⟩
    exact ⟨type, htype, mime, hmime, hin⟩
  · rintro ⟨type, htype, mime, hmime, hin⟩
    exact ⟨type, mime, htype, hmime, hin⟩

variable {Accepts : Request → Bytes → Prop} {decode : Bytes → Bytes → Option Bytes}

/-- What is known of a coding that is applied. -/
theorem codingFor_cases (hc : Codecs srv.spine Accepts decode) (q : Request) (r : Response) :
    codingFor srv q r = [] ∨
      r.getHeader "Content-Encoding".toList = none ∧ ¬ Excluded r ∧
        codingFor srv q r ∈ ["zstd".toList, "gzip".toList] ∧
        (Accepts q (codingFor srv q r) ∨ q.getParameter "gzip".toList = some "1".toList) := by
  unfold codingFor
  split
  · unfold selectContentEncoding
    split
    · exact Or.inl rfl
    · rename_i hcoded
      split
      · exact Or.inl rfl
      · rename_i htype
        have hnone : r.getHeader "Content-Encoding".toList = none :=
          Option.not_isSome_iff_eq_none.mp hcoded
        have hexcl : ¬ Excluded r := fun h => htype ((excluded_iff r).mp h)
        split
        · rename_i hgzip
          exact Or.inr ⟨hnone, hexcl, by decide, Or.inr hgzip⟩
        · split
          · exact Or.inl rfl
          · rcases hc.selected q (if srv.contentCodings.isEmpty then
              srv.spine.supportedContentEncodings else srv.contentCodings)
              srv.spine.wildcardContentEncoding with h | ⟨-, hmem, hacc⟩
            · exact Or.inl h
            · exact Or.inr ⟨hnone, hexcl, hmem, Or.inl hacc⟩
  · exact Or.inl rfl

/-! ## Responses without content -/

/-- The tag `e` is the tag `t`, as it is or marked with a coding. -/
def MarkOf (sp : Spine) (t e : Bytes) : Prop :=
  e = t ∨ ∃ coding ∈ ["zstd".toList, "gzip".toList], e = sp.contentCodedETag t coding

/-- What is assumed of `notModifiedETag`: it finds the tag of the request that names
the data, where `tags` lists those of `If-None-Match`. -/
structure EchoesTags (sp : Spine) (tags : Request → List Bytes) : Prop where
  matched : ∀ q t, (∃ e ∈ tags q, MarkOf sp t e) →
    sp.notModifiedETag q t ∈ tags q ∧ MarkOf sp t (sp.notModifiedETag q t)
  unmatched : ∀ q t, (∀ e ∈ tags q, ¬ MarkOf sp t e) → sp.notModifiedETag q t = t

/-- The bytes `wire` are the header section of `r`, which has the coding and the tag of
the handler's response `h`. -/
structure Untouched (sp : Spine) (tags : Request → List Bytes) (q : Request) (h r : Response)
    (wire : Bytes) : Prop where
  sent : wire = sp.headerSection r
  coding : (r.getHeader "Content-Encoding".toList).isSome →
    (h.getHeader "Content-Encoding".toList).isSome
  etag : h.status ≠ some .notModified → r.getHeader "ETag".toList = h.getHeader "ETag".toList
  notModified : h.status = some .notModified →
    r.getHeader "ETag".toList = (h.getHeader "ETag".toList).map (sp.notModifiedETag q)
  returned : h.status = some .notModified → ∀ t e, h.getHeader "ETag".toList = some t →
    e ∈ tags q → MarkOf sp t e → (∀ f ∈ tags q, MarkOf sp t f → f = e) →
    r.getHeader "ETag".toList = some e

/-- The codings on offer. -/
def offeredCodings : List Bytes :=
  if srv.contentCodings.isEmpty then srv.spine.supportedContentEncodings else srv.contentCodings

/-- The response meets every condition for a coding; its status is none of them. -/
def Compressible (q : Request) (h : Response) : Prop :=
  srv.itsCanGzip = true ∧ h.hasStreamContent = false ∧
    h.getHeader "Content-Encoding".toList = none ∧ ¬ Excluded h ∧
    (q.getParameter "gzip".toList = some "1".toList ∨
      srv.itsCompressLimit ≤ h.getContentLength ∧
        srv.spine.selectContentEncoding q (offeredCodings srv)
          srv.spine.wildcardContentEncoding ≠ [])

/-- A response is compressible when a coding is found for it. -/
theorem compressible_iff (q : Request) (h : Response) :
    Compressible srv q h ↔ codingFor srv q h ≠ [] := by
  unfold Compressible codingFor
  split
  · rename_i hcan
    obtain ⟨hgzip, hstream⟩ := Bool.and_eq_true_iff.mp hcan
    unfold selectContentEncoding
    split
    · rename_i hcoded
      refine ⟨fun hc => ?_, fun hc => absurd rfl hc⟩
      rw [hc.2.2.1] at hcoded
      cases hcoded
    · rename_i hcoded
      split
      · rename_i htype
        exact ⟨fun hc => absurd ((excluded_iff h).mpr htype) hc.2.2.2.1, fun hc => absurd rfl hc⟩
      · rename_i htype
        -- what is left are the query parameter and the limits of the size
        have hplain : srv.itsCanGzip = true ∧ h.hasStreamContent = false ∧
            h.getHeader "Content-Encoding".toList = none ∧ ¬ Excluded h :=
          ⟨hgzip, by simpa using hstream, Option.not_isSome_iff_eq_none.mp hcoded,
            fun hx => htype ((excluded_iff h).mp hx)⟩
        split
        · rename_i hparam
          exact ⟨fun _ => by decide, fun _ => ⟨hplain.1, hplain.2.1, hplain.2.2.1, hplain.2.2.2,
            Or.inl hparam⟩⟩
        · rename_i hparam
          split
          · rename_i hlimit
            refine ⟨fun hc => ?_, fun hc => absurd rfl hc⟩
            rcases hc.2.2.2.2 with hp | hp
            · exact absurd hp hparam
            · omega
          · rename_i hlimit
            refine ⟨fun hc => ?_, fun hc => ⟨hplain.1, hplain.2.1, hplain.2.2.1, hplain.2.2.2,
              Or.inr ⟨by omega, hc⟩⟩⟩
            rcases hc.2.2.2.2 with hp | hp
            · exact absurd hp hparam
            · exact hp.2
  · rename_i hcan
    refine ⟨fun hc => absurd ?_ hcan, fun hc => absurd rfl hc⟩
    rw [hc.1, hc.2.1]
    rfl

/-! ## The `Vary` field -/

/-- The names a response says it varies on. -/
def varyNames (r : Response) : List Bytes :=
  ((r.getHeader "Vary".toList).map options).getD []

/-- A cache is told that the response depends on `Accept-Encoding`. -/
def Covers (r : Response) : Prop :=
  "accept-encoding".toList ∈ varyNames r ∨ "*".toList ∈ varyNames r

/-- The text `accept-encoding` stands in the `Vary` field, but not as one of its
names, and `*` is none of them either. -/
def Misleading (h : Response) : Prop :=
  (∃ v, h.getHeader "Vary".toList = some v ∧ "accept-encoding".toList <:+: asciiToLower v) ∧
    ¬ Covers h

/-- Two responses `r` and `r'` that were made of the handler's response `h` name all
that it varies on, and `Accept-Encoding` with it when their codings differ. -/
structure VaryTells (h r r' : Response) : Prop where
  kept : ∀ name ∈ varyNames h, name ∈ varyNames r ∧ name ∈ varyNames r'
  covers : r.getHeader "Content-Encoding".toList ≠ r'.getHeader "Content-Encoding".toList →
    Covers r ∧ Covers r'

/-- What `setVary` adds to the names. -/
theorem varyNames_setVary (r : Response) :
    varyNames (setVary r) = varyNames r ++
      if (r.getHeader "Vary".toList).any fun v => icontains v "Accept-Encoding".toList then []
      else ["accept-encoding".toList] := by
  have hset : ∀ v : Bytes, varyNames (r.setHeader "Vary".toList v) = options v := by
    intro v
    unfold varyNames
    rw [show (r.setHeader "Vary".toList v).getHeader "Vary".toList = some v from
      HeaderMap.get_set_self _ _ _]
    rfl
  -- the field is set, filled, lengthened or left as it is
  have hown : options "Accept-Encoding".toList = ["accept-encoding".toList] := by decide
  unfold setVary
  cases hv : r.getHeader "Vary".toList with
  | none =>
    dsimp only
    rw [hset, hown, Option.any_none, if_neg Bool.false_ne_true]
    unfold varyNames
    rw [hv]
    rfl
  | some v =>
    have hnames : varyNames r = options v := by
      unfold varyNames
      rw [hv]
      rfl
    dsimp only
    rw [hnames, Option.any_some]
    split
    · rename_i hempty
      obtain rfl := List.isEmpty_iff.mp hempty
      rw [hset, hown]
      decide
    · split
      · rename_i hno
        have hmore : v ++ ", Accept-Encoding".toList = v ++ ',' :: " Accept-Encoding".toList := rfl
        rw [hset, if_neg (by simpa using hno), hmore, options,
          TokenList.elements_append_cons, List.map_append]
        rfl
      · rename_i hno
        rw [if_pos (by simpa using hno), List.append_nil, hnames]

/-- The names are those of the field. -/
theorem varyNames_congr {r r' : Response}
    (h : r.getHeader "Vary".toList = r'.getHeader "Vary".toList) : varyNames r = varyNames r' := by
  unfold varyNames
  rw [h]

/-- The `Vary` field is set by `setVary` alone. -/
theorem vary_setServerHeaders (s : AsyncConnection) :
    (setServerHeaders srv a s).itsResponse.getHeader "Vary".toList = (setVary
      (s.itsResponse.setHeader "Server".toList srv.spine.serverString)).getHeader "Vary".toList := by
  refine (getHeader_appendStaleDirectives srv _ (by decide)).trans ?_
  refine (getHeader_setConnectionHeaders srv _ (by decide) (by decide)).trans ?_
  exact HeaderMap.get_set_of_ne _ _ (by decide)

/-! ## The fields of the response that goes out -/

section Emitted

variable {s : AsyncConnection} (hs : s.itsResponse.hasStreamContent = false)

include hs

/-- The coding of the response that is sent, -/
theorem contentEncoding_emitted :
    (emitted srv a s).getHeader "Content-Encoding".toList =
      if (codingFor srv s.itsRequest s.itsResponse).isEmpty then
        s.itsResponse.getHeader "Content-Encoding".toList
      else some (codingFor srv s.itsRequest s.itsResponse) := by
  have hsame := sameBody_setServerHeaders srv a s
  rw [emitted_eq srv a hs]
  refine (getHeader_renderHeaders srv _ _).trans ?_
  rw [getHeader_frameResponse srv _ _ (by decide) (by decide),
    getHeader_echoETag srv _ _ (by decide), contentEncoding_encodeResponse,
    hsame.field _ (by decide)]
  rw [show (setServerHeaders srv a s).itsRequest = s.itsRequest from rfl,
    codingFor_setServerHeaders]

/-- its entity-tag, -/
theorem etag_emitted :
    (emitted srv a s).getHeader "ETag".toList =
      (if s.itsResponse.status = some .notModified then
        Option.map (srv.spine.notModifiedETag s.itsRequest) else id)
      (if (codingFor srv s.itsRequest s.itsResponse).isEmpty then
        s.itsResponse.getHeader "ETag".toList
      else (s.itsResponse.getHeader "ETag".toList).map fun etag =>
        srv.spine.contentCodedETag etag (codingFor srv s.itsRequest s.itsResponse)) := by
  have hsame := sameBody_setServerHeaders srv a s
  have hstatus : (encodeResponse srv s.itsRequest (setServerHeaders srv a s).itsResponse).status
      = s.itsResponse.status :=
    (sameFraming_encodeResponse srv _ _).status.trans hsame.status
  rw [emitted_eq srv a hs]
  refine (getHeader_renderHeaders srv _ _).trans ?_
  rw [getHeader_frameResponse srv _ _ (by decide) (by decide), etag_echoETag, etag_encodeResponse,
    show (setServerHeaders srv a s).itsRequest = s.itsRequest from rfl, hstatus,
    hsame.field _ (by decide), codingFor_setServerHeaders]
  split
  · rfl
  · rfl

/-- A field no step of the reply path writes. -/
theorem getHeader_emitted {name : Bytes}
    (hc : asciiToLower name ≠ asciiToLower "Content-Encoding".toList)
    (he : asciiToLower name ≠ asciiToLower "ETag".toList)
    (hl : asciiToLower name ≠ asciiToLower "Content-Length".toList)
    (ht : asciiToLower name ≠ asciiToLower "Transfer-Encoding".toList) :
    (emitted srv a s).getHeader name = (setServerHeaders srv a s).itsResponse.getHeader name := by
  rw [emitted_eq srv a hs]
  refine (getHeader_renderHeaders srv _ _).trans ?_
  rw [getHeader_frameResponse srv _ _ hl ht, getHeader_echoETag srv _ _ he, encodeResponse_eq]
  split
  · rfl
  · exact getHeader_compressResponse srv _ _ hc he

/-- The content of a response whose status permits one. -/
theorem content_emitted {st : Status} (hst : s.itsResponse.status = some st)
    (hbody : statusHasNoBody (some st) = false) :
    (emitted srv a s).content =
      if (codingFor srv s.itsRequest s.itsResponse).isEmpty then s.itsResponse.content
      else .buffer (srv.spine.compress (codingFor srv s.itsRequest s.itsResponse)
        s.itsResponse.getContent) := by
  have hsame := sameBody_setServerHeaders srv a s
  have hgot : (setServerHeaders srv a s).itsResponse.getContent = s.itsResponse.getContent := by
    unfold Response.getContent
    rw [hsame.content]
  rw [emitted_of_status srv a hs hst,
    content_frameResponse srv _ (by rw [status_echoed srv a hst, hbody]), echoed,
    content_echoETag, content_encodeResponse, codingFor_setServerHeaders, hsame.content, hgot]

/-- The bytes that are sent: the header section, and the content unless the client
asked for the header section alone. -/
theorem itsResponseString_startReply :
    (startReply srv a s).itsResponseString = srv.spine.headerSection (emitted srv a s) ++
      if s.itsHeadRequest then [] else (emitted srv a s).getContent := by
  have hwire : ∀ t : AsyncConnection, (startRegularReply srv t).itsResponseString =
      srv.spine.headerSection (startRegularReply srv t).itsResponse ++
        if t.itsHeadRequest then [] else (startRegularReply srv t).itsResponse.getContent := by
    intro t
    have hhead := renderHeaders_snd srv (framed srv t)
    show (if t.itsHeadRequest then (renderHeaders srv (framed srv t)).2
      else (renderHeaders srv (framed srv t)).2 ++
        (renderHeaders srv (framed srv t)).1.getContent) =
      srv.spine.headerSection (renderHeaders srv (framed srv t)).1 ++
        if t.itsHeadRequest then []
        else (renderHeaders srv (framed srv t)).1.getContent
    rw [hhead]
    split
    · exact (List.append_nil _).symm
    · rfl
  unfold emitted
  rw [startReply_of_buffer srv a hs]
  exact hwire _

/-- The announced length. -/
theorem contentLength_emitted {st : Status} (hst : s.itsResponse.status = some st)
    (hbody : statusHasNoBody (some st) = false) :
    (emitted srv a s).getHeader "Content-Length".toList =
        some (toDecimal (emitted srv a s).getContent.length) ∨
      s.itsHeadRequest = true ∧ (emitted srv a s).getHeader "Content-Length".toList = none := by
  have hstatus := status_echoed srv a hst
  have hstream : (echoed srv a s).hasStreamContent = false := by
    have hcode := sameFraming_encodeResponse srv s.itsRequest (setServerHeaders srv a s).itsResponse
    have hecho := sameFraming_echoETag srv s.itsRequest
      (encodeResponse srv s.itsRequest (setServerHeaders srv a s).itsResponse)
    exact hecho.content (hcode.content
      ((sameBody_setServerHeaders srv a s).hasStreamContent.trans hs))
  rw [emitted_of_status srv a hs hst]
  unfold frameResponse
  rw [if_neg (by rw [hstatus, hbody]; simp)]
  split
  · rename_i hhead
    rw [Bool.and_eq_true] at hhead
    refine Or.inr ⟨hhead.1, (HeaderMap.get_remove_of_ne _ (by decide)).trans ?_⟩
    exact HeaderMap.get_remove_self _ _
  · left
    rw [← getContentLength_of_buffer (r := (echoed srv a s).setHeader "Content-Length".toList
      (toDecimal (echoed srv a s).getContentLength)) hstream]
    exact HeaderMap.get_set_self _ _ _

/-- and what it varies with. -/
theorem varyNames_emitted :
    varyNames (emitted srv a s) = varyNames s.itsResponse ++
      if (s.itsResponse.getHeader "Vary".toList).any fun v => icontains v "Accept-Encoding".toList
      then [] else ["accept-encoding".toList] := by
  have hserver : (s.itsResponse.setHeader "Server".toList srv.spine.serverString).getHeader
      "Vary".toList = s.itsResponse.getHeader "Vary".toList :=
    HeaderMap.get_set_of_ne _ _ (by decide)
  have hsame : (emitted srv a s).getHeader "Vary".toList = (setVary
      (s.itsResponse.setHeader "Server".toList srv.spine.serverString)).getHeader "Vary".toList :=
    (getHeader_emitted srv a hs (by decide) (by decide) (by decide) (by decide)).trans
      (vary_setServerHeaders srv a s)
  rw [varyNames_congr hsame, varyNames_setVary, varyNames_congr hserver, hserver]

/-- It varies with the coding, unless the plugin's field misleads. -/
theorem covers_emitted_iff : Covers (emitted srv a s) ↔ ¬ Misleading s.itsResponse := by
  have hnames := varyNames_emitted srv a hs
  unfold Covers Misleading
  rw [hnames, List.mem_append, List.mem_append]
  have hlow : asciiToLower "Accept-Encoding".toList = "accept-encoding".toList := by decide
  have htext : ((s.itsResponse.getHeader "Vary".toList).any fun v =>
      icontains v "Accept-Encoding".toList) = true ↔
      ∃ v, s.itsResponse.getHeader "Vary".toList = some v ∧
        "accept-encoding".toList <:+: asciiToLower v := by
    rw [Option.any_eq_true]
    refine exists_congr fun v => and_congr_right fun _ => ?_
    unfold icontains
    rw [find_isSome, hlow]
  rw [← htext]
  unfold Covers
  split
  · rename_i h
    constructor
    · intro hc hm
      exact hm.2 (hc.imp (fun hmem => hmem.resolve_right List.not_mem_nil)
        fun hmem => hmem.resolve_right List.not_mem_nil)
    · intro hm
      have hc := not_not.mp fun hc => hm ⟨h, hc⟩
      exact hc.imp Or.inl Or.inl
  · rename_i h
    constructor
    · intro _ hm
      exact h hm.1
    · intro _
      exact Or.inl (Or.inr (List.mem_singleton_self _))

/-- The codings of two responses that were made of one differ when the codings that
were selected do. -/
theorem contentEncoding_ne_iff (a' : Answers) {s' : AsyncConnection}
    (hsame : s'.itsResponse = s.itsResponse) :
    (emitted srv a s).getHeader "Content-Encoding".toList ≠
        (emitted srv a' s').getHeader "Content-Encoding".toList ↔
      codingFor srv s.itsRequest s.itsResponse ≠ codingFor srv s'.itsRequest s.itsResponse := by
  have hs' : s'.itsResponse.hasStreamContent = false := by rw [hsame, hs]
  have hplain : ∀ q, codingFor srv q s.itsResponse ≠ [] →
      s.itsResponse.getHeader "Content-Encoding".toList = none :=
    fun q hq => ((compressible_iff srv q s.itsResponse).mpr hq).2.2.1
  rw [contentEncoding_emitted srv a hs, contentEncoding_emitted srv a' hs', hsame]
  refine not_congr ⟨fun heq => ?_, fun heq => by rw [heq]⟩
  by_cases hc : codingFor srv s.itsRequest s.itsResponse = []
  · by_cases hc' : codingFor srv s'.itsRequest s.itsResponse = []
    · rw [hc, hc']
    · rw [hc, List.isEmpty_nil, if_pos rfl, if_neg (by rwa [List.isEmpty_iff]), hplain _ hc'] at heq
      cases heq
  · by_cases hc' : codingFor srv s'.itsRequest s.itsResponse = []
    · rw [hc', List.isEmpty_nil, if_pos rfl, if_neg (by rwa [List.isEmpty_iff]), hplain _ hc] at heq
      cases heq
    · rw [if_neg (by rwa [List.isEmpty_iff]), if_neg (by rwa [List.isEmpty_iff])] at heq
      exact Option.some.inj heq

end Emitted

/-! ## A small instance of the codings -/

/-- The coding is listed in `Accept-Encoding`. -/
def acceptsCoding (q : Request) (coding : Bytes) : Bool :=
  (q.headers.get "Accept-Encoding".toList).any fun v => hasHeaderToken v coding

/-- A coding that puts its name in front of the content. -/
def markContent (coding content : Bytes) : Bytes := coding ++ ':' :: content

/-- The content without the name of the coding, if it stands in front. -/
def unmarkContent (coding content : Bytes) : Option Bytes :=
  if (coding ++ [':']).isPrefixOf content then some (content.drop (coding.length + 1)) else none

/-- The entity-tag of the variant in a coding. -/
def markTag (etag coding : Bytes) : Bytes :=
  etag.dropLast ++ '+' :: coding ++ "\"".toList

/-- The tags of `If-None-Match`. -/
def matchTags (q : Request) : List Bytes :=
  ((q.headers.get "If-None-Match".toList).map (TokenList.elements ',' isBlank)).getD []

/-- The libraries, with codings. -/
def codingSpine : Spine :=
  { MinimalSpine.spine with
    selectContentEncoding := fun q offered _ =>
      ((offered.filter fun coding => coding == "zstd".toList || coding == "gzip".toList).find?
        (acceptsCoding q)).getD []
    supportedContentEncodings := ["zstd".toList, "gzip".toList]
    wildcardContentEncoding := "gzip".toList
    compress := markContent
    contentCodedETag := markTag
    notModifiedETag := fun q etag =>
      ((matchTags q).find? fun e => e == etag || e == markTag etag "zstd".toList
        || e == markTag etag "gzip".toList).getD etag }

/-- The codings of the example can be undone, -/
theorem codecs_codingSpine :
    Codecs codingSpine (fun q coding => acceptsCoding q coding = true) unmarkContent := by
  refine ⟨fun q offered wildcard => ?_, fun coding _ content => ?_⟩
  · show ((offered.filter _).find? (acceptsCoding q)).getD [] = [] ∨ _
    cases h : (offered.filter fun coding => coding == "zstd".toList || coding == "gzip".toList).find?
        (acceptsCoding q) with
    | none => exact Or.inl rfl
    | some coding =>
      have hmem := List.mem_filter.mp (List.mem_of_find?_eq_some h)
      refine Or.inr ⟨?_, ?_, ?_⟩
      · show ((offered.filter _).find? (acceptsCoding q)).getD [] ∈ offered
        rw [h]
        exact hmem.1
      · show ((offered.filter _).find? (acceptsCoding q)).getD [] ∈ _
        rw [h]
        simpa using hmem.2
      · show acceptsCoding q (((offered.filter _).find? (acceptsCoding q)).getD []) = true
        rw [h]
        exact List.find?_some h
  · have hmark : markContent coding content = (coding ++ [':']) ++ content := by
      unfold markContent
      rw [List.append_assoc]
      rfl
    have hlen : coding.length + 1 = (coding ++ [':']).length := by simp
    show unmarkContent coding (markContent coding content) = some content
    unfold unmarkContent
    rw [hmark, if_pos (List.isPrefixOf_iff_prefix.mpr (List.prefix_append _ _)), hlen,
      List.drop_left]

/-- and its tags are those of the client. -/
theorem echoesTags_codingSpine : EchoesTags codingSpine matchTags := by
  have hmark : ∀ t e : Bytes, MarkOf codingSpine t e ↔ (e == t || e == markTag t "zstd".toList
      || e == markTag t "gzip".toList) = true := by
    intro t e
    unfold MarkOf
    simp only [List.mem_cons, List.not_mem_nil, or_false, exists_eq_or_imp, exists_eq_left,
      Bool.or_eq_true, beq_iff_eq, or_assoc]
    exact Iff.rfl
  constructor
  · rintro q t ⟨e, hmem, he⟩
    have hfound : ((matchTags q).find? fun e => e == t || e == markTag t "zstd".toList
        || e == markTag t "gzip".toList).isSome := by
      rw [List.find?_isSome]
      exact ⟨e, hmem, (hmark t e).mp he⟩
    obtain ⟨f, hf⟩ := Option.isSome_iff_exists.mp hfound
    have heq : codingSpine.notModifiedETag q t = f := by
      show ((matchTags q).find? _).getD t = f
      rw [hf]
      rfl
    have hmarked := List.find?_some hf
    rw [heq, hmark]
    exact ⟨List.mem_of_find?_eq_some hf, hmarked⟩
  · intro q t hnone
    show ((matchTags q).find? _).getD t = t
    rw [List.find?_eq_none.mpr fun e he => by rw [← hmark]; exact hnone e he]
    rfl

/-- A server that codes every response with content. -/
def codingServer : Server := { spine := codingSpine, itsCanGzip := true, itsCompressLimit := 1 }

/-- A response with a `Vary` field, before it is sent to a client that accepts `codings`. -/
def greeting (codings vary : Bytes) : AsyncConnection :=
  { itsRequest := { headers := HeaderMap.set ∅ "Accept-Encoding".toList codings }
    itsResponse :=
      { status := some 200
        headers := HeaderMap.set ∅ "Vary".toList vary
        content := .buffer "hello".toList } }

/-! ## What a cache and a client are told -/

/-- **Compression preserves the representation**: whatever the request, the settings
and the handler's response, what goes out reads as the handler's content, coded at
most once and framed by its length. -/
theorem compression_preserves {s : AsyncConnection}
    (hs : s.itsResponse.hasStreamContent = false) (hc : Codecs srv.spine Accepts decode)
    {st : Status} (hst : s.itsResponse.status = some st)
    (hbody : statusHasNoBody (some st) = false) :
    Represents srv.spine Accepts decode s.itsHeadRequest s.itsRequest s.itsResponse
      (emitted srv a s) (startReply srv a s).itsResponseString := by
  have hcontent := content_emitted srv a hs hst hbody
  have hcoding := contentEncoding_emitted srv a hs
  have hwire := itsResponseString_startReply srv a hs
  have hsized := contentLength_emitted srv a hs hst hbody
  rcases codingFor_cases srv hc s.itsRequest s.itsResponse with hnone | ⟨hplain, hexcl, hmem, hacc⟩
  · rw [hnone, List.isEmpty_nil, if_pos rfl] at hcontent hcoding
    refine ⟨?_, fun coding h => ⟨hcoding.trans h, hcontent⟩, fun _ => ⟨hcontent, hcoding⟩, hsized,
      hwire, fun coding h => Or.inl (hcoding.symm.trans h)⟩
    simp only [reads, Response.getContent, hcoding, hcontent]
  · have hne : (codingFor srv s.itsRequest s.itsResponse).isEmpty = false := by
      rcases List.mem_pair.mp hmem with h | h
      · rw [h]
        rfl
      · rw [h]
        rfl
    rw [hne, if_neg Bool.false_ne_true] at hcontent hcoding
    refine ⟨?_, ?_, fun h => absurd h hexcl, hsized, hwire, ?_⟩
    · simp only [reads, hcoding, hplain, getContent_of_content hcontent]
      exact hc.inverse _ hmem _
    · intro coding h
      rw [hplain] at h
      cases h
    · intro coding h
      obtain rfl := Option.some.inj (hcoding.symm.trans h)
      exact Or.inr hacc

/-- A greeting goes out in gzip. -/
theorem compression_preserves_gzip :
    (emitted codingServer MinimalSpine.answers (greeting "gzip".toList [])).getHeader
        "Content-Encoding".toList = some "gzip".toList ∧
      Represents codingSpine (fun q coding => acceptsCoding q coding = true) unmarkContent false
        (greeting "gzip".toList []).itsRequest (greeting "gzip".toList []).itsResponse
        (emitted codingServer MinimalSpine.answers (greeting "gzip".toList []))
        (startReply codingServer MinimalSpine.answers
          (greeting "gzip".toList [])).itsResponseString :=
  ⟨by decide +kernel, compression_preserves codingServer MinimalSpine.answers
    (s := greeting "gzip".toList []) rfl codecs_codingSpine rfl (by decide)⟩

/-- **A response without content keeps its coding and its tag** unless it meets the
conditions for a coding, which do not look at the status. -/
theorem bodyless_untouched {s : AsyncConnection} (hs : s.itsResponse.hasStreamContent = false)
    {tags : Request → List Bytes} (he : EchoesTags srv.spine tags) {st : Status}
    (hst : s.itsResponse.status = some st) (hbody : statusHasNoBody (some st) = true) :
    Untouched srv.spine tags s.itsRequest s.itsResponse (emitted srv a s)
        (startReply srv a s).itsResponseString ↔
      ¬ Compressible srv s.itsRequest s.itsResponse := by
  have hcoding := contentEncoding_emitted srv a hs
  have hetag := etag_emitted srv a hs
  constructor
  · intro hu hc
    have hne := (compressible_iff srv _ _).mp hc
    have hset : (emitted srv a s).getHeader "Content-Encoding".toList =
        some (codingFor srv s.itsRequest s.itsResponse) := by
      rw [hcoding, if_neg (by rwa [List.isEmpty_iff])]
    have hown := hu.coding (by rw [hset]; rfl)
    rw [hc.2.2.1] at hown
    cases hown
  · intro hn
    have hnone : codingFor srv s.itsRequest s.itsResponse = [] := by
      by_contra hne
      exact hn ((compressible_iff srv _ _).mpr hne)
    rw [hnone, List.isEmpty_nil, if_pos rfl] at hcoding hetag
    -- only a 304 that was not coded is given the tag of the client's variant
    have h304 : s.itsResponse.status = some .notModified →
        (emitted srv a s).getHeader "ETag".toList =
          (s.itsResponse.getHeader "ETag".toList).map (srv.spine.notModifiedETag s.itsRequest) := by
      intro h
      rw [hetag, if_pos h]
    have hempty : (emitted srv a s).getContent = [] := by
      refine getContent_of_content ?_
      rw [emitted_of_status srv a hs hst]
      unfold frameResponse
      rw [if_pos (by rw [status_echoed srv a hst, hbody])]
      rfl
    refine ⟨?_, fun h => ?_, fun h => ?_, h304, ?_⟩
    · rw [itsResponseString_startReply srv a hs, hempty, ite_self, List.append_nil]
    · rwa [hcoding] at h
    · rw [hetag, if_neg h]
      rfl
    · intro h t e ht hmem hmark hone
      obtain ⟨hlisted, hmarked⟩ := he.matched s.itsRequest t ⟨e, hmem, hmark⟩
      rw [h304 h, ht]
      exact congrArg some (hone _ hlisted hmarked)

/-- A 304 to a client that holds the data, uncoded. -/
def notModifiedReply (parameters : List (Bytes × Bytes)) : AsyncConnection :=
  { itsRequest :=
      { headers := HeaderMap.set ∅ "If-None-Match".toList "\"abc\"".toList
        parameters := parameters }
    itsResponse :=
      { status := some .notModified
        headers := HeaderMap.set ∅ "ETag".toList "\"abc\"".toList } }

/-- A 304 is left as it is where no coding is found. -/
theorem bodyless_untouched_304 :
    Untouched codingSpine matchTags (notModifiedReply []).itsRequest
      (notModifiedReply []).itsResponse
      (emitted codingServer MinimalSpine.answers (notModifiedReply []))
      (startReply codingServer MinimalSpine.answers (notModifiedReply [])).itsResponseString := by
  refine (bodyless_untouched codingServer MinimalSpine.answers rfl echoesTags_codingSpine rfl
    (by decide)).mpr ?_
  rintro ⟨-, -, -, -, hparam | hlimit⟩
  · exact absurd hparam (by decide)
  · exact absurd hlimit.1 (by decide)

/-- With `gzip=1` the 304 names a coding, and another tag than the client holds. -/
theorem notModified_coded :
    EchoesTags codingSpine matchTags ∧
      (emitted codingServer MinimalSpine.answers
        (notModifiedReply [("gzip".toList, "1".toList)])).getHeader "ETag".toList
        = some "\"abc+gzip\"".toList ∧
      ¬ Untouched codingSpine matchTags (notModifiedReply [("gzip".toList, "1".toList)]).itsRequest
        (notModifiedReply [("gzip".toList, "1".toList)]).itsResponse
        (emitted codingServer MinimalSpine.answers
          (notModifiedReply [("gzip".toList, "1".toList)]))
        (startReply codingServer MinimalSpine.answers
          (notModifiedReply [("gzip".toList, "1".toList)])).itsResponseString := by
  refine ⟨echoesTags_codingSpine, by decide +kernel, fun h => ?_⟩
  have hcoded : ((emitted codingServer MinimalSpine.answers
      (notModifiedReply [("gzip".toList, "1".toList)])).getHeader
      "Content-Encoding".toList).isSome = true := by decide +kernel
  exact absurd (h.coding hcoded) (by decide)

/-- **The `Vary` field names the coding** of two responses that were made of one, and
all that the handler named, unless its own `Vary` field misleads. -/
theorem vary_names_coding {s : AsyncConnection} (hs : s.itsResponse.hasStreamContent = false)
    {a' : Answers} {s' : AsyncConnection} (hsame : s'.itsResponse = s.itsResponse) :
    VaryTells s.itsResponse (emitted srv a s) (emitted srv a' s') ↔
      (Misleading s.itsResponse → codingFor srv s.itsRequest s.itsResponse =
        codingFor srv s'.itsRequest s.itsResponse) := by
  have hs' : s'.itsResponse.hasStreamContent = false := by rw [hsame, hs]
  have hne := contentEncoding_ne_iff srv a hs a' hsame
  have hcovers := covers_emitted_iff srv a hs
  have hcovers' := covers_emitted_iff srv a' hs'
  rw [hsame] at hcovers'
  constructor
  · intro h hmis
    by_contra hdiff
    exact hcovers.mp (h.covers (hne.mpr hdiff)).1 hmis
  · intro h
    refine ⟨fun name hname => ⟨?_, ?_⟩, fun hdiff => ?_⟩
    · rw [varyNames_emitted srv a hs]
      exact List.mem_append_left _ hname
    · rw [varyNames_emitted srv a' hs', hsame]
      exact List.mem_append_left _ hname
    · have hplain : ¬ Misleading s.itsResponse := fun hmis => hne.mp hdiff (h hmis)
      exact ⟨hcovers.mpr hplain, hcovers'.mpr hplain⟩

/-- A response that varies on another field. -/
theorem vary_names_coding_language :
    VaryTells (greeting "gzip".toList "Accept-Language".toList).itsResponse
      (emitted codingServer MinimalSpine.answers
        (greeting "gzip".toList "Accept-Language".toList))
      (emitted codingServer MinimalSpine.answers
        (greeting "identity".toList "Accept-Language".toList)) := by
  have hsame : (greeting "identity".toList "Accept-Language".toList).itsResponse =
    (greeting "gzip".toList "Accept-Language".toList).itsResponse := rfl
  have hbuffer : (greeting "gzip".toList
    "Accept-Language".toList).itsResponse.hasStreamContent = false := rfl
  refine (vary_names_coding codingServer MinimalSpine.answers hbuffer hsame).mpr ?_
  intro hmis
  obtain ⟨v, hv, htext⟩ := hmis.1
  have hvary : (greeting "gzip".toList "Accept-Language".toList).itsResponse.getHeader
      "Vary".toList = some "Accept-Language".toList := HeaderMap.get_set_self _ _ _
  rw [hvary, Option.some.injEq] at hv
  rw [← hv] at htext
  exact absurd (find_isSome.mpr htext) (by decide)

/-- `X-Accept-Encoding` holds the text, and is another name. -/
theorem vary_misleads :
    ¬ VaryTells (greeting "gzip".toList "X-Accept-Encoding".toList).itsResponse
      (emitted codingServer MinimalSpine.answers
        (greeting "gzip".toList "X-Accept-Encoding".toList))
      (emitted codingServer MinimalSpine.answers
        (greeting "identity".toList "X-Accept-Encoding".toList)) := by
  intro h
  have hdiff : (emitted codingServer MinimalSpine.answers
      (greeting "gzip".toList "X-Accept-Encoding".toList)).getHeader "Content-Encoding".toList ≠
    (emitted codingServer MinimalSpine.answers
      (greeting "identity".toList "X-Accept-Encoding".toList)).getHeader
      "Content-Encoding".toList := by
    decide +kernel
  have hnames : varyNames (emitted codingServer MinimalSpine.answers
      (greeting "gzip".toList "X-Accept-Encoding".toList)) = ["x-accept-encoding".toList] := by
    decide +kernel
  have hcovers := (h.covers hdiff).1
  unfold Covers at hcovers
  rw [hnames] at hcovers
  exact absurd hcovers (by decide)

end AsyncConnection

end SmartMet
