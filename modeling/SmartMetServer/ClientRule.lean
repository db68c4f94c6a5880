/-
# What a response announces

A client that applies RFC 9112 9.3 to the version of the status line and to the
`Connection` field of a response concludes that the connection persists exactly
when `setConnectionHeaders` has left it persistent.  The one assumption is that
a chunked response has version 1.1.
-/
import SmartMetServer.Persistence

namespace SmartMet

namespace Response

/-- The version of the status line, as far as RFC 9112 knows it. -/
def statusVersion (r : Response) : Option HttpVersion :=
  if r.version = HttpVersion.v1_1.text then some .v1_1
  else if r.version = HttpVersion.v1_0.text then some .v1_0
  else none

/-- The connection options of a response. -/
def connectionOptions (r : Response) : List Bytes :=
  fieldOptions (r.getHeader "Connection".toList)

/-- The conclusion of a client. -/
def ClientPersists (r : Response) : Prop :=
  ∃ v, r.statusVersion = some v ∧ Persists v r.connectionOptions r.connectionOptions

/-- What a client looks at. -/
def announcement (r : Response) : Bytes × Option Bytes :=
  (r.version, r.getHeader "Connection".toList)

theorem clientPersists_congr {r r' : Response} (h : r'.announcement = r.announcement) :
    r'.ClientPersists ↔ r.ClientPersists := by
  obtain ⟨hv, hc⟩ := Prod.mk.inj h
  unfold ClientPersists statusVersion connectionOptions
  rw [hv, hc]

/-- A chunked response has version 1.1. -/
def Versioned (r : Response) : Prop := r.chunked = true → r.version = HttpVersion.v1_1.text

theorem versioned_empty : Versioned {} := fun h => absurd h (by decide)

end Response

/-- The responses Spine makes have version 1.1 when they are chunked. -/
structure Spine.Versions (sp : Spine) : Prop where
  setContent : sp.chunkedAfterSetContent false = false
  options : sp.stockOptionsResponse.Versioned

theorem Response.Versioned.setStatus {sp : Spine} (hsp : sp.Versions) {r : Response}
    (h : r.Versioned) (st : Status) : (r.setStatus sp st).Versioned := by
  intro hc
  refine h ?_
  have hc' : sp.chunkedAfterSetContent r.chunked = true := hc
  cases hr : r.chunked with
  | true => rfl
  | false => rw [hr, hsp.setContent] at hc'; cases hc'

namespace AsyncConnection

open Response

variable (srv : Server)

/-! ## Functions that announce nothing -/

theorem announcement_setHeader (r : Response) {name : Bytes} (v : Bytes)
    (h : asciiToLower "Connection".toList ≠ asciiToLower name) :
    (r.setHeader name v).announcement = r.announcement :=
  Prod.ext rfl (HeaderMap.get_set_of_ne _ v h)

theorem announcement_removeHeader (r : Response) {name : Bytes}
    (h : asciiToLower "Connection".toList ≠ asciiToLower name) :
    (r.removeHeader name).announcement = r.announcement :=
  Prod.ext rfl (HeaderMap.get_remove_of_ne _ h)

theorem announcement_appendStaleDirectives (r : Response) :
    (appendStaleDirectives srv r).announcement = r.announcement := by
  unfold appendStaleDirectives
  split
  · split
    · split
      · exact announcement_setHeader _ _ (by decide)
      · rfl
    · rfl
  · rfl

theorem announcement_compressResponse (r : Response) (encoding : Bytes) :
    (compressResponse srv.spine r encoding).announcement = r.announcement := by
  unfold compressResponse
  dsimp only
  have hcontent : ((r.setContent srv.spine (srv.spine.compress encoding r.getContent)).setHeader
      "Content-Encoding".toList encoding).announcement = r.announcement :=
    announcement_setHeader _ _ (by decide)
  split
  · exact (announcement_setHeader _ _ (by decide)).trans hcontent
  · exact hcontent

theorem announcement_encodeResponse (q : Request) (r : Response) :
    (encodeResponse srv q r).announcement = r.announcement := by
  unfold encodeResponse
  split
  · dsimp only
    split
    · rfl
    · exact announcement_compressResponse srv r _
  · rfl

theorem announcement_echoETag (q : Request) (r : Response) :
    (echoETag srv q r).announcement = r.announcement := by
  unfold echoETag
  split
  · split
    · exact announcement_setHeader _ _ (by decide)
    · rfl
  · rfl

theorem announcement_frameResponse (headRequest : Bool) (r : Response) :
    (frameResponse srv headRequest r).announcement = r.announcement := by
  unfold frameResponse
  split
  · exact (announcement_removeHeader _ (by decide)).trans
      (announcement_removeHeader _ (by decide))
  split
  · exact (announcement_removeHeader _ (by decide)).trans
      (announcement_removeHeader _ (by decide))
  · exact announcement_setHeader _ _ (by decide)

theorem announcement_renderHeaders (r : Response) :
    (renderHeaders srv r).1.announcement = r.announcement := by
  unfold renderHeaders
  split
  · rfl
  · rfl

/-! ## The announcement -/

variable (a : Answers)

theorem chunked_setVary (r : Response) :
    (setVary r).chunked = r.chunked ∧ (setVary r).version = r.version := by
  unfold setVary
  split
  · exact ⟨rfl, rfl⟩
  split
  · exact ⟨rfl, rfl⟩
  split
  · exact ⟨rfl, rfl⟩
  · exact ⟨rfl, rfl⟩

/-- What `announce` writes is what a client reads. -/
theorem clientPersists_announce {keepAlive : Bool} {version : HttpVersion} {field : Bytes}
    {r : Response} (hv : keepAlive = true → r.version = version.text) :
    (announce keepAlive version field r).ClientPersists ↔ keepAlive = true := by
  have hne : asciiToLower "Connection".toList ≠ asciiToLower "Keep-Alive".toList := by decide
  -- `close` among the options settles it, whatever the version
  have hno : ∀ q : Response, q.getHeader "Connection".toList = some "close".toList →
      ¬ q.ClientPersists := by
    rintro q hq ⟨v, -, hclose, -⟩
    refine hclose ?_
    unfold connectionOptions
    rw [hq]
    decide
  cases keepAlive with
  | false =>
    refine ⟨fun h => absurd h (hno _ ?_), fun h => absurd h (by simp)⟩
    unfold announce
    rw [if_pos (by decide)]
    exact (HeaderMap.get_remove_of_ne _ hne).trans (HeaderMap.get_set_self _ _ _)
  | true =>
    refine ⟨fun _ => rfl, fun _ => ?_⟩
    have hver := hv rfl
    unfold announce
    rw [if_neg (by simp)]
    cases version with
    | v1_1 =>
      rw [if_pos rfl]
      have hnone : ((r.removeHeader "Connection".toList).removeHeader
          "Keep-Alive".toList).getHeader "Connection".toList = none :=
        (HeaderMap.get_remove_of_ne _ hne).trans (HeaderMap.get_remove_self _ _)
      refine ⟨.v1_1, if_pos hver, ?_, Or.inl rfl⟩
      unfold connectionOptions
      rw [hnone]
      simp [fieldOptions]
    | v1_0 =>
      rw [if_neg (by simp)]
      -- an HTTP/1.0 client goes on only where it is told `keep-alive`
      have hsome : ((r.setHeader "Connection".toList "keep-alive".toList).setHeader
          "Keep-Alive".toList field).getHeader "Connection".toList = some "keep-alive".toList :=
        (HeaderMap.get_set_of_ne _ _ hne).trans (HeaderMap.get_set_self _ _ _)
      refine ⟨.v1_0, ?_, ?_⟩
      · unfold statusVersion
        rw [if_neg, if_pos]
        · exact hver
        · show ¬ r.version = HttpVersion.v1_1.text
          rw [hver]
          decide
      · unfold connectionOptions
        rw [hsome]
        exact ⟨by decide, Or.inr ⟨rfl, by decide⟩⟩

/-- **What is announced is what was settled**, for a response that has version 1.1
if it is chunked. -/
theorem clientPersists_setServerHeaders {s : AsyncConnection}
    (h : s.itsKeepAlive = true → s.itsResponse.Versioned) :
    (setServerHeaders srv a s).itsResponse.ClientPersists ↔
      (setServerHeaders srv a s).itsKeepAlive = true := by
  let r := (setVary (s.itsResponse.setHeader "Server".toList srv.spine.serverString)).setHeader
    "Date".toList a.date
  let u : AsyncConnection := { s with itsResponse := r }
  have hvary := chunked_setVary (s.itsResponse.setHeader "Server".toList srv.spine.serverString)
  have hchunked : r.chunked = s.itsResponse.chunked := hvary.1
  have hversion : r.version = s.itsResponse.version := hvary.2
  have hsays : (setServerHeaders srv a s).itsResponse.announcement
      = (announce (negotiatedKeepAlive u) s.itsResponseVersion (keepAliveField srv u)
        (if r.chunked then r else r.setVersion s.itsResponseVersion.text)).announcement :=
    announcement_appendStaleDirectives srv _
  refine (clientPersists_congr hsays).trans (clientPersists_announce fun hk => ?_)
  -- a persistent response is chunked only when version 1.1 was agreed on
  have hk' : (u.itsKeepAlive && !(u.itsResponse.chunked && u.itsResponseVersion != .v1_1) && _)
      = true := hk
  simp only [Bool.and_eq_true] at hk'
  obtain ⟨⟨hkeep, hno⟩, -⟩ := hk'
  split
  · rename_i hc
    have hc' : u.itsResponse.chunked = true := hc
    have hv : s.itsResponseVersion = .v1_1 := by
      rw [hc'] at hno
      simpa using hno
    rw [hv, hversion]
    exact h hkeep (hchunked.symm.trans hc)
  · rfl

theorem clientPersists_stockResponse (hsp : srv.spine.Versions) {st : Status} {s : AsyncConnection}
    (h : s.itsKeepAlive = true → s.itsResponse.Versioned) :
    (stockResponse srv a st s).itsResponse.ClientPersists ↔
      (stockResponse srv a st s).itsKeepAlive = true :=
  clientPersists_setServerHeaders srv a fun hk => (h hk).setStatus hsp st

end AsyncConnection

end SmartMet
