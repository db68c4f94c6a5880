/-
# The headers the server sets

`setServerHeaders` leaves the status, the content and the framing fields of a
response alone, and announces the persistence the connection will act on.
-/
import SmartMetServer.AsyncConnection

namespace SmartMet

namespace AsyncConnection

variable (srv : Server) (a : Answers)

/-- The names `setServerHeaders` may change the fields of. -/
def serverFields : List Bytes :=
  ["Server".toList, "Vary".toList, "Date".toList, "Connection".toList, "Keep-Alive".toList,
    "Cache-Control".toList]

/-- Two responses that differ in their version and the server's own fields only. -/
structure SameBody (r r' : Response) : Prop where
  status : r'.status = r.status
  content : r'.content = r.content
  chunked : r'.chunked = r.chunked
  gateway : r'.isGatewayResponse = r.isGatewayResponse
  field : ∀ name, (∀ f ∈ serverFields, asciiToLower name ≠ asciiToLower f) →
    r'.getHeader name = r.getHeader name

namespace SameBody

theorem refl (r : Response) : SameBody r r := ⟨rfl, rfl, rfl, rfl, fun _ _ => rfl⟩

theorem trans {r₁ r₂ r₃ : Response} (h : SameBody r₁ r₂) (h' : SameBody r₂ r₃) :
    SameBody r₁ r₃ where
  status := h'.status.trans h.status
  content := h'.content.trans h.content
  chunked := h'.chunked.trans h.chunked
  gateway := h'.gateway.trans h.gateway
  field := fun name hn => (h'.field name hn).trans (h.field name hn)

theorem setHeader (r : Response) {f : Bytes} (hf : f ∈ serverFields) (v : Bytes) :
    SameBody r (r.setHeader f v) where
  status := rfl
  content := rfl
  chunked := rfl
  gateway := rfl
  field := fun _ hn => HeaderMap.get_set_of_ne _ _ (hn f hf)

theorem removeHeader (r : Response) {f : Bytes} (hf : f ∈ serverFields) :
    SameBody r (r.removeHeader f) where
  status := rfl
  content := rfl
  chunked := rfl
  gateway := rfl
  field := fun _ hn => HeaderMap.get_remove_of_ne _ (hn f hf)

theorem getContent {r r' : Response} (h : SameBody r r') : r'.getContent = r.getContent := by
  unfold Response.getContent
  rw [h.content]

theorem getContentLength {r r' : Response} (h : SameBody r r') :
    r'.getContentLength = r.getContentLength := by
  unfold Response.getContentLength
  rw [h.content]

theorem hasStreamContent {r r' : Response} (h : SameBody r r') :
    r'.hasStreamContent = r.hasStreamContent := by
  unfold Response.hasStreamContent
  rw [h.content]

end SameBody

/-- The framing fields are not the server's own. -/
theorem contentLength_not_mem :
    ∀ f ∈ serverFields, asciiToLower "Content-Length".toList ≠ asciiToLower f := by
  decide

theorem transferEncoding_not_mem :
    ∀ f ∈ serverFields, asciiToLower "Transfer-Encoding".toList ≠ asciiToLower f := by
  decide

theorem sameBody_setVary (r : Response) : SameBody r (setVary r) := by
  have hv : "Vary".toList ∈ serverFields := by decide
  unfold setVary
  split
  · exact SameBody.setHeader r hv _
  · split
    · exact SameBody.setHeader r hv _
    · split
      · exact SameBody.setHeader r hv _
      · exact SameBody.refl r

theorem sameBody_appendStaleDirectives (r : Response) :
    SameBody r (appendStaleDirectives srv r) := by
  have hc : "Cache-Control".toList ∈ serverFields := by decide
  unfold appendStaleDirectives
  split
  · split
    · split
      · exact SameBody.setHeader r hc _
      · exact SameBody.refl r
    · exact SameBody.refl r
  · exact SameBody.refl r

theorem sameBody_announce (k : Bool) (v : HttpVersion) (field : Bytes) (r : Response) :
    SameBody r (announce k v field r) := by
  have hc : "Connection".toList ∈ serverFields := by decide
  have hk : "Keep-Alive".toList ∈ serverFields := by decide
  unfold announce
  split
  · exact (SameBody.setHeader r hc _).trans (SameBody.removeHeader _ hk)
  · split
    · exact (SameBody.removeHeader r hc).trans (SameBody.removeHeader _ hk)
    · exact (SameBody.setHeader r hc _).trans (SameBody.setHeader _ hk _)

/-- The stale directives are put in a field of their own. -/
theorem getHeader_appendStaleDirectives (r : Response) {name : Bytes}
    (h : asciiToLower name ≠ asciiToLower "Cache-Control".toList) :
    (appendStaleDirectives srv r).getHeader name = r.getHeader name := by
  unfold appendStaleDirectives
  split
  · split
    · split
      · exact HeaderMap.get_set_of_ne _ _ h
      · rfl
    · rfl
  · rfl

/-- `setConnectionHeaders` writes two fields. -/
theorem getHeader_setConnectionHeaders (s : AsyncConnection) {name : Bytes}
    (hc : asciiToLower name ≠ asciiToLower "Connection".toList)
    (hk : asciiToLower name ≠ asciiToLower "Keep-Alive".toList) :
    (setConnectionHeaders srv s).itsResponse.getHeader name = s.itsResponse.getHeader name := by
  have hannounce : ∀ k v field (r : Response),
      (announce k v field r).getHeader name = r.getHeader name := by
    intro k v field r
    unfold announce
    split
    · exact (HeaderMap.get_remove_of_ne _ hk).trans (HeaderMap.get_set_of_ne _ _ hc)
    · split
      · exact (HeaderMap.get_remove_of_ne _ hk).trans (HeaderMap.get_remove_of_ne _ hc)
      · exact (HeaderMap.get_set_of_ne _ _ hk).trans (HeaderMap.get_set_of_ne _ _ hc)
  refine (hannounce _ _ _ _).trans ?_
  split
  · rfl
  · rfl

/-- It never makes a connection persistent. -/
theorem keepAlive_of_setServerHeaders {s : AsyncConnection}
    (h : (setServerHeaders srv a s).itsKeepAlive = true) : s.itsKeepAlive = true := by
  have h' : negotiatedKeepAlive _ = true := h
  unfold negotiatedKeepAlive at h'
  simp only [Bool.and_eq_true] at h'
  exact h'.1.1

theorem sameBody_setServerHeaders (s : AsyncConnection) :
    SameBody s.itsResponse (setServerHeaders srv a s).itsResponse := by
  have hs : "Server".toList ∈ serverFields := by decide
  have hd : "Date".toList ∈ serverFields := by decide
  refine SameBody.trans ?_ (sameBody_appendStaleDirectives srv _)
  refine SameBody.trans ?_ (sameBody_announce _ _ _ _)
  have h1 := (SameBody.setHeader s.itsResponse hs srv.spine.serverString).trans
    ((sameBody_setVary _).trans (SameBody.setHeader _ hd a.date))
  -- the version is set unless the response is chunked
  dsimp only
  split
  · exact h1
  · exact ⟨h1.status, h1.content, h1.chunked, h1.gateway, h1.field⟩

/-- A response on a connection that is to end says so. -/
theorem connection_close_of_not_keepAlive {s : AsyncConnection}
    (h : (setServerHeaders srv a s).itsKeepAlive = false) :
    (setServerHeaders srv a s).itsResponse.getHeader "Connection".toList
      = some "close".toList := by
  have hne : asciiToLower "Connection".toList ≠ asciiToLower "Cache-Control".toList := by decide
  have hne' : asciiToLower "Connection".toList ≠ asciiToLower "Keep-Alive".toList := by decide
  have h' : negotiatedKeepAlive _ = false := h
  refine (getHeader_appendStaleDirectives srv _ hne).trans ?_
  simp only [setConnectionHeaders, h', announce]
  rw [if_pos (by decide)]
  exact (HeaderMap.get_remove_of_ne _ hne').trans (HeaderMap.get_set_self _ _ _)

/-! ## Stock responses -/

theorem keepAlive_of_stockResponse {st : Status} {s : AsyncConnection}
    (h : (stockResponse srv a st s).itsKeepAlive = true) : s.itsKeepAlive = true := by
  unfold stockResponse at h
  have hk := keepAlive_of_setServerHeaders srv a h
  exact hk

/-- What a stock response is, whatever the response before it was. -/
structure IsStock (st : Status) (before r : Response) : Prop where
  status : r.status = some st
  content : r.content = .buffer (srv.spine.stockContent st)
  contentLength : r.getHeader "Content-Length".toList
    = some (toDecimal (srv.spine.stockContent st).length)
  transferEncoding : r.getHeader "Transfer-Encoding".toList
    = before.getHeader "Transfer-Encoding".toList

theorem isStock_stockResponse (st : Status) (s : AsyncConnection) :
    IsStock srv st s.itsResponse (stockResponse srv a st s).itsResponse := by
  have hne : asciiToLower "Transfer-Encoding".toList ≠ asciiToLower "Content-Length".toList := by
    decide
  have h := sameBody_setServerHeaders srv a
    { s with
      itsResponse := (s.itsResponse.setStatus srv.spine st).setHeader "Content-Length".toList
        (toDecimal (s.itsResponse.setStatus srv.spine st).getContentLength) }
  refine ⟨h.status, h.content, ?_, ?_⟩
  · exact (h.field _ contentLength_not_mem).trans (HeaderMap.get_set_self _ _ _)
  · exact (h.field _ transferEncoding_not_mem).trans (HeaderMap.get_set_of_ne _ _ hne)

end AsyncConnection

end SmartMet
