/-
# Sound exchanges

What holds of an exchange at any time (`Sound`), once nothing more is written in
it (`Complete`), and when the connection was re-armed after it (`Done`).

An exchange in which no handler was called is `Direct`: the server itself has
answered, or nobody has.
-/
import SmartMetServer.Exchange
import SmartMetServer.ServerHeaders

namespace SmartMet

open ChunkedCoding

/-- How a response announces the extent of its body: by the chunked coding, or
by the number of its bytes. -/
def Response.Frames (r : Response) (body : Bytes) : Prop :=
  (r.getHeader "Transfer-Encoding".toList = some "chunked".toList ∧
    r.getHeader "Content-Length".toList = none ∧ ∃ content, decode body = some (content, [])) ∨
  (r.getHeader "Transfer-Encoding".toList = none ∧
    r.getHeader "Content-Length".toList = some (toDecimal body.length))

namespace Exchange

variable (srv : Server)

/-- The statuses the server answers with when it could not read a request. -/
def untrusted : List Status :=
  [.badRequest, .requestTimeout, .requestEntityTooLarge, .expectationFailed,
    .requestHeaderFieldsTooLarge, srv.spine.shutdown]

/-- No handler was called, and the server has refused to read on. -/
def Rejecting (x : Exchange) : Prop :=
  x.dispatched = [] ∧ ∃ st ∈ untrusted srv, ∃ p ∈ x.heads, p.1 = .stock st

/-- A response of a handler begins with a header section built for it; that of a
gateway brings its own. -/
def Headed (x : Exchange) : Prop :=
  x.path ≠ none → x.path ≠ some .gateway → ∃ r head rest, x.heads = (.handler, r, head) :: rest

/-- What holds of every exchange at any time. -/
structure Sound (x : Exchange) : Prop where
  one_request : x.requests.length ≤ 1
  ordered : Ordered x.wire
  one_head : ∀ p ∈ x.heads.tail, p.1 ≠ .handler
  headed : Headed x
  method : x.refused = true → ∀ r ∈ x.requests, r.method ≠ .head
  gateway : x.path = some .gateway → x.headBytes = []
  streamed : x.path = some .stream ∨ x.path = some .gateway →
    x.handlerBytes <+: x.headBytes ++ x.chunks.flatten
  chunked : x.path = some .chunked →
    x.handlerBytes <+: x.headBytes ++
      (encode x.chunks ++ if x.ended = some .exitOk then lastChunk else [])
  truncated : x.path = some .chunked → x.failed = true →
    x.handlerBytes ≠ x.headBytes ++ (encode x.chunks ++ lastChunk)
  refusal : x.refused = true → x.path = some .chunked →
    x.ended ≠ some .exitOk ∧ x.handlerBytes = x.headBytes ++ encode x.chunks
  server : x.path ≠ none → x.serverBytes ≠ [] → x.refused = true ∧
    ∃ r content, x.serverBytes <+: srv.spine.headerSection r ++ content
  head : ∀ r ∈ x.requests, r.method = .head → x.handlerBytes <+: x.headBytes
  closing : x.dispatched = [] → ∀ st ∈ untrusted srv, ∀ p ∈ x.heads, p.1 = .stock st →
    p.2.1.getHeader "Connection".toList = some "close".toList

/-- A chunked response that has ended well and met no error is whole. -/
def Complete (x : Exchange) : Prop :=
  x.path = some .chunked → x.ended = some .exitOk → x.failed = false →
    x.handlerBytes = x.headBytes ++ (encode x.chunks ++ lastChunk)

/-- The responses whose framing the server answers for: the status is set and
permits content, and no handler has put a transfer coding on a response that is
sent without one. -/
structure Proper (x : Exchange) (m : Message) (r : Response) : Prop where
  failed : x.failed = false
  method : ∀ q ∈ x.requests, q.method ≠ .head
  options : m ≠ .options
  body : statusHasNoBody r.status = false
  status : m = .handler → ∀ h, x.handled = some h → h.status.isSome
  plain : x.path ≠ some .chunked → ∀ h, x.handled = some h →
    h.getHeader "Transfer-Encoding".toList = none

/-- What holds of an exchange after which the connection was re-armed. -/
structure Done (x : Exchange) : Prop where
  sound : Sound srv x
  complete : Complete x
  request : x.requests.length = 1
  refused : x.refused = false
  head : ∀ r ∈ x.requests, r.method = .head → x.path ≠ none → x.handlerBytes = x.headBytes
  accepted : ¬ Rejecting srv x
  path : x.path ≠ some .gateway
  exact : x.path = some .stream → ∃ r head, x.heads = [(.handler, r, head)] ∧
    r.getHeader "Content-Length".toList = some (toDecimal x.chunks.flatten.length)
  ended : x.path = some .chunked → x.ended = some .exitOk
  begins : x.failed = false → ∀ p ∈ x.heads, p.2.2 <+: x.out
  framed : ∃ m r head, x.heads = [(m, r, head)] ∧
    (m = .options → r.status = srv.spine.stockOptionsResponse.status) ∧
    (Proper x m r → head = srv.spine.headerSection r ∧
      ∃ body, x.out = head ++ body ∧ r.Frames body)

/-- No reply path was taken: if there is a reply, it is the server's own. -/
structure Plain (x : Exchange) : Prop where
  one_request : x.requests.length ≤ 1
  path : x.path = none
  chunks : x.chunks = []
  ended : x.ended = none
  refused : x.refused = false
  heads : ∀ p ∈ x.heads, p.1 ≠ .handler
  wire : ∀ p ∈ x.wire, p.1 ≠ .handler
  ordered : Ordered x.wire
  closing : x.dispatched = [] → ∀ st ∈ untrusted srv, ∀ p ∈ x.heads, p.1 = .stock st →
    p.2.1.getHeader "Connection".toList = some "close".toList

/-- No handler was called. -/
structure Direct (x : Exchange) : Prop extends Plain srv x where
  dispatched : x.dispatched = []
  handled : x.handled = none

/-- Nothing but interim responses so far. -/
def Unanswered (x : Exchange) : Prop := x.heads = [] ∧ ∀ p ∈ x.wire, p.1 = .interim

theorem headBytes_of_ne {x : Exchange} (h : ∀ p ∈ x.heads, p.1 ≠ .handler) :
    x.headBytes = [] := by
  unfold headBytes
  cases hh : x.heads with
  | nil => rfl
  | cons p t =>
    have hp : p.1 ≠ .handler := h p (by rw [hh]; exact List.mem_cons_self)
    obtain ⟨m, r, head⟩ := p
    cases m with
    | handler => exact absurd rfl hp
    | interim => rfl
    | options => rfl
    | stock st => rfl

theorem Plain.sound {x : Exchange} (h : Plain srv x) : Sound srv x where
  one_request := h.one_request
  ordered := h.ordered
  one_head := fun p hp => h.heads p (List.mem_of_mem_tail hp)
  headed := fun hp => absurd h.path hp
  method := fun hr => absurd (h.refused.symm.trans hr) (by simp)
  gateway := fun hp => absurd (h.path.symm.trans hp) (by simp)
  streamed := fun hp => by rw [h.path] at hp; simp at hp
  chunked := fun hp => absurd (h.path.symm.trans hp) (by simp)
  truncated := fun hp => absurd (h.path.symm.trans hp) (by simp)
  refusal := fun hr => absurd (h.refused.symm.trans hr) (by simp)
  server := fun hp => absurd h.path hp
  head := fun _ _ _ => by rw [handlerBytes_eq_nil h.wire]; exact List.nil_prefix
  closing := h.closing

theorem Plain.complete {x : Exchange} (h : Plain srv x) : Complete x :=
  fun hp => absurd (h.path.symm.trans hp) (by simp)

theorem Unanswered.not_rejecting {x : Exchange} (h : Unanswered x) : ¬ Rejecting srv x := by
  rintro ⟨-, st, -, p, hp, -⟩
  rw [h.1] at hp
  cases hp

/-- The exchange of a connection that has just been re-armed. -/
theorem direct_empty : Direct srv {} := by
  refine ⟨⟨Nat.zero_le _, rfl, rfl, rfl, rfl, ?_, ?_, List.Pairwise.nil, ?_⟩, rfl, rfl⟩
  · intro p hp
    cases hp
  · intro p hp
    cases hp
  · intro _ st _ p hp
    cases hp

theorem unanswered_empty : Unanswered {} := by
  refine ⟨rfl, ?_⟩
  intro p hp
  cases hp

/-- Interim responses alone are in order. -/
theorem ordered_of_interim {wire : List (Message × Bytes)} (h : ∀ p ∈ wire, p.1 = .interim) :
    Ordered wire := by
  refine List.pairwise_of_forall_mem_list ?_
  intro p hp q hq
  exact Or.inr ((h p hp).trans (h q hq).symm)

/-! ## One more reply -/

/-- The exchange after a simple reply: a header section was built, and some
bytes were sent. -/
def reply (x : Exchange) (m : Message) (r : Response) (head : Bytes)
    (extra : List (Message × Bytes)) (f : Bool) : Exchange :=
  { x with heads := x.heads ++ [(m, r, head)], wire := x.wire ++ extra, failed := f }

/-- The first reply of the server, or one that is not delivered. -/
theorem Plain.reply {x : Exchange} (h : Plain srv x) {m : Message} {r : Response}
    {head : Bytes} {extra : List (Message × Bytes)} {f : Bool}
    (hm : m = .options ∨ ∃ st, m = .stock st) (hx : ∀ p ∈ extra, p.1 = m)
    (hfirst : extra ≠ [] → Unanswered x)
    (hclose : x.dispatched = [] → ∀ st ∈ untrusted srv, m = .stock st →
      r.getHeader "Connection".toList = some "close".toList) :
    Plain srv (x.reply m r head extra f) := by
  have hne : m ≠ .handler := by
    rcases hm with rfl | ⟨st, rfl⟩ <;> simp
  refine ⟨h.one_request, h.path, h.chunks, h.ended, h.refused, ?_, ?_, ?_, ?_⟩
  · intro p hp
    rcases List.mem_append.mp hp with hp | hp
    · exact h.heads p hp
    · obtain rfl := List.mem_singleton.mp hp
      exact hne
  · intro p hp
    rcases List.mem_append.mp hp with hp | hp
    · exact h.wire p hp
    · rw [hx p hp]
      exact hne
  · by_cases he : extra = []
    · show Ordered (x.wire ++ extra)
      rw [he, List.append_nil]
      exact h.ordered
    · refine h.ordered.append ?_ hx
      intro p hp
      left
      rw [(hfirst he).2 p hp]
      rcases hm with rfl | ⟨st, rfl⟩ <;> simp [Message.rank]
  · intro hdis st hst p hp hps
    rcases List.mem_append.mp hp with hp | hp
    · exact h.closing hdis st hst p hp hps
    · obtain rfl := List.mem_singleton.mp hp
      exact hclose hdis st hst hps

/-- A further reply comes behind the first header section. -/
theorem Headed.reply {x : Exchange} (h : Headed x) {m : Message} {r : Response} {head : Bytes}
    {extra : List (Message × Bytes)} {f : Bool} : Headed (x.reply m r head extra f) := by
  intro hp hg
  obtain ⟨r', head', rest, hh⟩ := h hp hg
  exact ⟨r', head', rest ++ [(m, r, head)], by show x.heads ++ _ = _; rw [hh]; rfl⟩

theorem handlerBytes_reply {x : Exchange} {m : Message} {r : Response} {head : Bytes}
    {extra : List (Message × Bytes)} {f : Bool} (hm : m ≠ .handler)
    (hx : ∀ p ∈ extra, p.1 = m) :
    (x.reply m r head extra f).handlerBytes = x.handlerBytes := by
  have hnil : extra.flatMap (fun p => if p.1 = .handler then p.2 else []) = [] :=
    List.flatMap_eq_nil_iff.mpr fun p hp => if_neg (by rw [hx p hp]; exact hm)
  unfold handlerBytes reply
  rw [List.flatMap_append, hnil, List.append_nil]

theorem headBytes_reply {x : Exchange} {m : Message} {r : Response} {head : Bytes}
    {extra : List (Message × Bytes)} {f : Bool} (hm : m ≠ .handler) :
    (x.reply m r head extra f).headBytes = x.headBytes := by
  unfold headBytes reply
  cases hh : x.heads with
  | nil =>
    cases m with
    | handler => exact absurd rfl hm
    | interim => rfl
    | options => rfl
    | stock st => rfl
  | cons p t => rfl

theorem serverBytes_reply {x : Exchange} {m : Message} {r : Response} {head : Bytes}
    {extra : List (Message × Bytes)} {f : Bool} (hm : m ≠ .handler) (hm' : m ≠ .interim)
    (hx : ∀ p ∈ extra, p.1 = m) :
    (x.reply m r head extra f).serverBytes = x.serverBytes ++ extra.flatMap Prod.snd := by
  have he : extra.flatMap (fun p => if p.1 = .handler ∨ p.1 = .interim then [] else p.2)
      = extra.flatMap Prod.snd := by
    rw [List.flatMap_def, List.flatMap_def]
    congr 1
    refine List.map_congr_left ?_
    intro p hp
    rw [if_neg]
    rw [hx p hp]
    rintro (h | h)
    · exact hm h
    · exact hm' h
  unfold serverBytes reply
  rw [List.flatMap_append, he]

/-- A stock reply of which nothing was delivered adds no byte. -/
theorem Sound.reply_undelivered {x : Exchange} (h : Sound srv x) (hd : x.dispatched ≠ [])
    {st : Status} {r : Response} {head : Bytes} {f : Bool}
    (hf : f = true → x.path = some .chunked →
      x.handlerBytes ≠ x.headBytes ++ (encode x.chunks ++ lastChunk)) :
    Sound srv (x.reply (.stock st) r head [] f) := by
  have hne : Message.stock st ≠ .handler := by simp
  have hx : ∀ p ∈ ([] : List (Message × Bytes)), p.1 = Message.stock st := by
    intro p hp
    cases hp
  have hb : (x.reply (.stock st) r head [] f).handlerBytes = x.handlerBytes :=
    handlerBytes_reply hne hx
  have hh : (x.reply (.stock st) r head [] f).headBytes = x.headBytes := headBytes_reply hne
  have hs : (x.reply (.stock st) r head [] f).serverBytes = x.serverBytes := by
    rw [serverBytes_reply hne (by simp) hx]
    exact List.append_nil _
  refine ⟨h.one_request, ?_, ?_, h.headed.reply, h.method, ?_, ?_, ?_, ?_, ?_, ?_, ?_,
    fun hd' => absurd hd' hd⟩
  · show Ordered (x.wire ++ [])
    rw [List.append_nil]
    exact h.ordered
  · intro p hp
    have hp' : p ∈ (x.heads ++ [(Message.stock st, r, head)]).tail := hp
    cases hheads : x.heads with
    | nil =>
      rw [hheads] at hp'
      cases hp'
    | cons q t =>
      rw [hheads] at hp'
      rcases List.mem_append.mp hp' with hp' | hp'
      · exact h.one_head p (by rw [hheads]; exact hp')
      · obtain rfl := List.mem_singleton.mp hp'
        exact hne
  · rw [hh]
    exact h.gateway
  · rw [hb, hh]
    exact h.streamed
  · rw [hb, hh]
    exact h.chunked
  · rw [hb, hh]
    exact fun hpath hfail => hf hfail hpath
  · rw [hb, hh]
    exact h.refusal
  · rw [hs]
    exact h.server
  · rw [hb, hh]
    exact h.head

/-! ## More bytes of a handler's response -/

theorem headBytes_of_heads {x : Exchange} {r : Response} {head : Bytes}
    (h : x.heads = [(.handler, r, head)]) : x.headBytes = head := by
  unfold headBytes
  rw [h]
  rfl

/-- The exchange after some more bytes of the handler's response. -/
def send (x : Exchange) (extra : List (Message × Bytes)) (f : Bool) : Exchange :=
  { x with wire := x.wire ++ extra, failed := f }

theorem handlerBytes_send {x : Exchange} {extra : List (Message × Bytes)} {f : Bool}
    (hx : ∀ p ∈ extra, p.1 = .handler) :
    (x.send extra f).handlerBytes = x.handlerBytes ++ extra.flatMap Prod.snd := by
  have he : extra.flatMap (fun p => if p.1 = .handler then p.2 else [])
      = extra.flatMap Prod.snd := by
    rw [List.flatMap_def, List.flatMap_def]
    congr 1
    refine List.map_congr_left ?_
    intro p hp
    rw [if_pos (hx p hp)]
  unfold handlerBytes send
  rw [List.flatMap_append, he]

theorem headBytes_send {x : Exchange} {extra : List (Message × Bytes)} {f : Bool} :
    (x.send extra f).headBytes = x.headBytes := rfl

end Exchange

end SmartMet
