/-
# Negotiating persistence

RFC 9112 9.3 as a rule on the `Connection` list of a message and its version
(`Persists`), and what `evaluateKeepAlive` makes of it: the two differ on an
HTTP/1.0 request whose list has both options, `close` and `keep-alive`.
-/
import SmartMetServer.MinimalSpine

namespace SmartMet

/-- The options of a field that may be missing. -/
def fieldOptions (field : Option Bytes) : List Bytes :=
  match field with
  | some value => options value
  | none => []

/-- The rule of RFC 9112 9.3: `close` always wins; otherwise HTTP/1.1 persists, and
HTTP/1.0 with the `keep-alive` option. -/
def Persists (version : HttpVersion) (connection keepAlive : List Bytes) : Prop :=
  "close".toList ∉ connection ∧
    (version = .v1_1 ∨ version = .v1_0 ∧ "keep-alive".toList ∈ keepAlive)

namespace Request

/-- The connection options of a request. -/
def connectionOptions (r : Request) : List Bytes :=
  fieldOptions (r.headers.get "Connection".toList)

/-- Where an HTTP/1.0 client may ask for a persistent connection: in `Connection`, or
in `Proxy-Connection` when there is no `Connection` field. -/
def keepAliveOptions (r : Request) : List Bytes :=
  match r.headers.get "Connection".toList with
  | some value => options value
  | none => fieldOptions (r.headers.get "Proxy-Connection".toList)

end Request

namespace AsyncConnection

variable (srv : Server)

/-- The connection may persist, as far as the server is concerned. -/
structure MayPersist (s : AsyncConnection) : Prop where
  enabled : srv.itsKeepAliveEnabled = true
  running : s.world.shutdownRequested = false
  uncapped : srv.itsMaxKeepAliveRequests = 0 ∨ s.itsRequestCount < srv.itsMaxKeepAliveRequests

theorem any_hasHeaderToken {field : Option Bytes} {token : Bytes} :
    (field.any fun v => hasHeaderToken v token) = true ↔ token ∈ fieldOptions field := by
  cases field with
  | none => simp [fieldOptions]
  | some v => exact hasHeaderToken_iff

/-- What `evaluateKeepAlive` decides: an HTTP/1.0 request is only asked for
`keep-alive`. -/
theorem evaluateKeepAlive_iff {s : AsyncConnection} (h : MayPersist srv s) :
    evaluateKeepAlive srv s = true ↔
      match s.itsResponseVersion with
      | .v1_1 => "close".toList ∉ s.itsRequest.connectionOptions
      | .v1_0 => "keep-alive".toList ∈ s.itsRequest.keepAliveOptions := by
  have hcap : (srv.itsMaxKeepAliveRequests > 0
      && s.itsRequestCount ≥ srv.itsMaxKeepAliveRequests) = false := by
    rcases h.uncapped with h | h
    · simp [h]
    · simp only [Bool.and_eq_false_imp, decide_eq_true_eq, decide_eq_false_iff_not]
      omega
  unfold evaluateKeepAlive
  rw [h.enabled, h.running, hcap]
  simp only [Bool.not_true, Bool.false_eq_true, if_false]
  cases s.itsResponseVersion with
  | v1_1 =>
    show (!_) = true ↔ _
    rw [Bool.not_eq_true', ← Bool.not_eq_true, any_hasHeaderToken]
    rfl
  | v1_0 =>
    unfold Request.keepAliveOptions
    cases s.itsRequest.headers.get "Connection".toList with
    | none => exact any_hasHeaderToken
    | some v => exact hasHeaderToken_iff

/-- **Persistence negotiation.**  With keep-alive enabled, no shutdown and the
request cap not reached, the decision for a completely parsed request is that of
RFC 9112 9.3, except for an HTTP/1.0 request that asks for both `close` and
`keep-alive`. -/
theorem negotiate_persists_iff {s : AsyncConnection}
    (h : MayPersist srv { s with itsRequestCount := s.itsRequestCount + 1 }) :
    ((negotiate srv s).itsKeepAlive = true ↔
      Persists (negotiateVersion srv.spine s.itsRequest.version) s.itsRequest.connectionOptions
        s.itsRequest.keepAliveOptions) ↔
    ¬ (negotiateVersion srv.spine s.itsRequest.version = .v1_0 ∧
      "close".toList ∈ s.itsRequest.connectionOptions ∧
      "keep-alive".toList ∈ s.itsRequest.connectionOptions) := by
  have hdecides : (negotiate srv s).itsKeepAlive = true ↔
      match negotiateVersion srv.spine s.itsRequest.version with
      | .v1_1 => "close".toList ∉ s.itsRequest.connectionOptions
      | .v1_0 => "keep-alive".toList ∈ s.itsRequest.keepAliveOptions :=
    evaluateKeepAlive_iff srv
      (s := { s with
        itsRequestCount := s.itsRequestCount + 1
        itsResponseVersion := negotiateVersion srv.spine s.itsRequest.version })
      ⟨h.enabled, h.running, h.uncapped⟩
  -- without a `Connection` field there is no `close` to lose against
  have hsame : "close".toList ∈ s.itsRequest.connectionOptions →
      s.itsRequest.keepAliveOptions = s.itsRequest.connectionOptions := by
    intro hclose
    unfold Request.connectionOptions at hclose ⊢
    unfold Request.keepAliveOptions
    cases hc : s.itsRequest.headers.get "Connection".toList with
    | none =>
      rw [hc] at hclose
      cases hclose
    | some v => rfl
  rw [hdecides]
  unfold Persists
  generalize "close".toList = close at *
  generalize "keep-alive".toList = keepAlive at *
  cases negotiateVersion srv.spine s.itsRequest.version with
  | v1_1 => simp
  | v1_0 =>
    by_cases hclose : close ∈ s.itsRequest.connectionOptions
    · rw [hsame hclose]
      simp [hclose]
    · simp [hclose]

/-- An HTTP/1.0 request with the given `Connection` field, that is about to be
negotiated. -/
def negotiating (connection : String) : AsyncConnection :=
  { itsRequest :=
      { version := "1.0".toList
        headers := HeaderMap.set ∅ "Connection".toList connection.toList } }

theorem negotiate_persists_iff_keepAlive :
    ((negotiate MinimalSpine.server (negotiating "TE, Keep-Alive")).itsKeepAlive = true ↔
      Persists .v1_0 (negotiating "TE, Keep-Alive").itsRequest.connectionOptions
        (negotiating "TE, Keep-Alive").itsRequest.keepAliveOptions) :=
  (negotiate_persists_iff MinimalSpine.server (s := negotiating "TE, Keep-Alive")
    ⟨rfl, rfl, Or.inr (by decide)⟩).mpr (by decide)

/-- **Of both options HTTP/1.0 sees `keep-alive`**: the connection persists although
the client has asked for its end. -/
theorem negotiate_ignores_close :
    MayPersist MinimalSpine.server
      { negotiating "close, keep-alive" with itsRequestCount := 1 } ∧
    (negotiate MinimalSpine.server (negotiating "close, keep-alive")).itsKeepAlive = true ∧
    ¬ Persists .v1_0 (negotiating "close, keep-alive").itsRequest.connectionOptions
        (negotiating "close, keep-alive").itsRequest.keepAliveOptions := by
  refine ⟨⟨rfl, rfl, Or.inr (by decide)⟩, by decide, ?_⟩
  rintro ⟨hclose, -⟩
  exact hclose (by decide)

end AsyncConnection

end SmartMet
