/-
# What the getters were given

A getter asks the content of the response under way.  That is the streamer the handler
has left, with one exception: `preparePendingHeaders` replaces a response whose status
was left unset by the stock page of 501, streamer and all, and the getters are given
the page.

* `Genuine` : all that the getters of an exchange were given was the streamer's;
* `Replaced` : they were given the page of 501, and nothing of the streamer;
* `genuine_exchange` : one of the two holds of every exchange.
-/
import SmartMetServer.Reassembly

namespace SmartMet

open Exchange

namespace Exchange

/-- The response has a header section and is sent in parts, and the handler has left
its status unset. -/
def Unset (x : Exchange) : Prop :=
  (x.path = some .stream ∨ x.path = some .chunked) ∧ ∃ h, x.handled = some h ∧ h.status = none

/-- All that the getters were given was the streamer's own. -/
structure Genuine (x : Exchange) : Prop where
  set : ¬ x.Unset
  streamed : x.streamed = x.chunks
  streamEnd : x.streamEnd = x.ended

/-- The getters were given the page of 501, and the streamer was not asked. -/
structure Replaced (srv : Server) (x : Exchange) : Prop where
  unset : x.Unset
  streamed : x.streamed = []
  streamEnd : x.streamEnd = none
  page : ∀ c ∈ x.chunks, c = srv.spine.stockContent .notImplemented

/-- The response goes to the client in parts. -/
def InParts (x : Exchange) : Prop :=
  x.path = some .stream ∨ x.path = some .gateway ∨ x.path = some .chunked

end Exchange

variable {srv : Server}

/-! ## Events -/

/-- What the event tells of a getter is of the content of `r`; it takes no path and ends
no exchange. -/
def Obs.Given (r : Response) : Obs → Prop
  | .chunk c own => own = r.hasStreamContent ∧ (own = false → c = r.getContent)
  | .streamEnded _ own => own = r.hasStreamContent
  | .handled _ => False
  | .started _ => False
  | .rearmed => False
  | _ => True

/-- The event tells nothing of a getter or of the response of the handler. -/
def Obs.Aside : Obs → Prop
  | .chunk _ _ => False
  | .streamEnded _ _ => False
  | .handled _ => False
  | .started _ => False
  | .rearmed => False
  | _ => True

/-- What tells of no getter is of any content. -/
theorem Obs.Aside.given {o : Obs} (h : o.Aside) (r : Response) : o.Given r := by
  cases o <;> trivial

/-- The response is the page of 501. -/
structure Response.IsPage (srv : Server) (r : Response) : Prop where
  plain : r.hasStreamContent = false
  page : r.getContent = srv.spine.stockContent .notImplemented

/-- The content tells what a getter asks. -/
theorem Response.same_content {r r' : Response} (h : r'.content = r.content) :
    r'.hasStreamContent = r.hasStreamContent ∧ r'.getContent = r.getContent := by
  unfold hasStreamContent getContent
  rw [h]
  exact ⟨rfl, rfl⟩

/-- So it tells the page of 501, -/
theorem Response.IsPage.congr {r r' : Response} (hr : r.IsPage srv) (h : r'.content = r.content) :
    r'.IsPage srv :=
  ⟨(Response.same_content h).1.trans hr.plain, (Response.same_content h).2.trans hr.page⟩

/-- and what may be given. -/
theorem Obs.Given.congr {r r' : Response} {o : Obs} (ho : o.Given r)
    (h : r'.content = r.content) : o.Given r' := by
  obtain ⟨hs, hc⟩ := Response.same_content h
  cases o with
  | chunk c own => exact ⟨ho.1.trans hs.symm, fun hown => (ho.2 hown).trans hc.symm⟩
  | streamEnded st own => exact Eq.trans ho hs.symm
  | _ => exact ho

namespace Exchange

variable {x : Exchange} {o : Obs} {r : Response}

/-- Such events leave the path and the handler's response, -/
theorem path_of_given (ho : o.Given r) :
    (x.observe o).path = x.path ∧ (x.observe o).handled = x.handled := by
  cases o with
  | handled h => exact absurd ho id
  | started p => exact absurd ho id
  | _ => exact ⟨rfl, rfl⟩

/-- so whether its status is set. -/
theorem unset_of_given (ho : o.Given r) : (x.observe o).Unset ↔ x.Unset := by
  unfold Unset
  rw [(path_of_given ho).1, (path_of_given ho).2]

/-- One more event of a response that is a stream. -/
theorem Genuine.observe (h : x.Genuine) (ho : o.Given r) (hr : r.hasStreamContent = true) :
    (x.observe o).Genuine := by
  have hset := mt (unset_of_given ho).mp h.set
  cases o with
  | chunk c own =>
    obtain rfl : own = true := ho.1.trans hr
    exact ⟨hset, congrArg (· ++ [c]) h.streamed, h.streamEnd⟩
  | streamEnded st own =>
    obtain rfl : own = true := Eq.trans ho hr
    exact ⟨hset, h.streamed, rfl⟩
  | _ => exact ⟨hset, h.streamed, h.streamEnd⟩

/-- One more event of a response that is the page of 501. -/
theorem Replaced.observe (h : x.Replaced srv) (ho : o.Given r) (hr : r.IsPage srv) :
    (x.observe o).Replaced srv := by
  have hunset := (unset_of_given ho).mpr h.unset
  cases o with
  | chunk c own =>
    obtain rfl : own = false := ho.1.trans hr.plain
    refine ⟨hunset, h.streamed, h.streamEnd, fun b hb => ?_⟩
    rcases List.mem_append.mp hb with hb | hb
    · exact h.page b hb
    · rw [List.mem_singleton.mp hb, ho.2 rfl, hr.page]
  | streamEnded st own =>
    obtain rfl : own = false := Eq.trans ho hr.plain
    exact ⟨hunset, h.streamed, h.streamEnd, h.page⟩
  | _ => exact ⟨hunset, h.streamed, h.streamEnd, h.page⟩

/-- An event that tells of no getter. -/
theorem given_aside (h : x.Genuine ∨ x.Replaced srv) (ho : o.Aside) :
    (x.observe o).Genuine ∨ (x.observe o).Replaced srv := by
  have hunset : (x.observe o).Unset ↔ x.Unset := unset_of_given (ho.given {})
  have hsame : (x.observe o).streamed = x.streamed ∧ (x.observe o).streamEnd = x.streamEnd ∧
      (x.observe o).chunks = x.chunks ∧ (x.observe o).ended = x.ended := by
    cases o with
    | chunk c own => exact absurd ho id
    | streamEnded st own => exact absurd ho id
    | _ => exact ⟨rfl, rfl, rfl, rfl⟩
  obtain ⟨hs, he, hc, hend⟩ := hsame
  refine h.imp (fun h => ⟨mt hunset.mp h.set, ?_, ?_⟩) fun h => ⟨hunset.mpr h.unset, ?_, ?_, ?_⟩
  · rw [hs, hc, h.streamed]
  · rw [he, hend, h.streamEnd]
  · rw [hs, h.streamed]
  · rw [he, h.streamEnd]
  · rw [hc]
    exact h.page

/-- No getter was at work yet. -/
structure Unasked (x : Exchange) : Prop where
  chunks : x.chunks = []
  ended : x.ended = none
  streamed : x.streamed = []
  streamEnd : x.streamEnd = none

/-- Where no getter was at work, all was the streamer's own, -/
theorem Unasked.genuine (h : x.Unasked) (hs : ¬ x.Unset) : x.Genuine :=
  ⟨hs, h.streamed.trans h.chunks.symm, h.streamEnd.trans h.ended.symm⟩

/-- and nothing was, should the status be unset. -/
theorem Unasked.replaced (h : x.Unasked) (hs : x.Unset) : x.Replaced srv := by
  refine ⟨hs, h.streamed, h.streamEnd, fun c hc => ?_⟩
  rw [h.chunks] at hc
  cases hc

/-- Nothing was given yet. -/
theorem genuine_empty : ({} : Exchange).Genuine := by
  refine ⟨?_, rfl, rfl⟩
  rintro ⟨h | h, -⟩
  · cases h
  · cases h

end Exchange

/-- What tells of a getter ends no exchange. -/
theorem Obs.Given.ne_rearmed {r : Response} {o : Obs} (h : o.Given r) : o ≠ .rearmed := by
  rintro rfl
  exact h

/-- The events of an exchange whose getters ask one content. -/
theorem given_append {r : Response} {new t : List Obs} (h : ∀ o ∈ new, o.Given r) :
    past (new ++ t) = past t ∧ (current (new ++ t)).path = (current t).path ∧
      (r.hasStreamContent = true → (current t).Genuine → (current (new ++ t)).Genuine) ∧
      (r.IsPage srv → (current t).Replaced srv → (current (new ++ t)).Replaced srv) := by
  induction new with
  | nil => exact ⟨rfl, rfl, fun _ => id, fun _ => id⟩
  | cons o new ih =>
    obtain ⟨ho, hnew⟩ := List.forall_mem_cons.mp h
    obtain ⟨hp, hpath, hg, hr⟩ := ih hnew
    rw [List.cons_append, past_cons ho.ne_rearmed, current_cons ho.ne_rearmed]
    exact ⟨hp, (Exchange.path_of_given ho).1.trans hpath,
      fun hc hgen => (hg hc hgen).observe ho hc, fun hc hrep => (hr hc hrep).observe ho hc⟩

/-- Every exchange of a trace was given what its streamer gave, or was replaced. -/
def Told (srv : Server) (t : List Obs) : Prop :=
  (∀ x ∈ past t, x.Genuine ∨ x.Replaced srv) ∧ ((current t).Genuine ∨ (current t).Replaced srv)

/-- Events that tell of no getter, and the end of an exchange. -/
theorem told_append {new t : List Obs} (h : ∀ o ∈ new, o.Aside ∨ o = .rearmed) (ht : Told srv t) :
    Told srv (new ++ t) ∧ ((current t).InParts ∨ ¬ (current (new ++ t)).InParts) := by
  induction new with
  | nil => exact ⟨ht, Classical.em _⟩
  | cons o new ih =>
    obtain ⟨ho, hnew⟩ := List.forall_mem_cons.mp h
    obtain ⟨⟨hpast, hcur⟩, hparts⟩ := ih hnew
    rw [List.cons_append]
    rcases ho with ho | rfl
    · have hne := (ho.given {}).ne_rearmed
      refine ⟨⟨?_, ?_⟩, ?_⟩
      · rw [past_cons hne]
        exact hpast
      · rw [current_cons hne]
        exact given_aside hcur ho
      · rw [current_cons hne]
        unfold Exchange.InParts
        rw [(Exchange.path_of_given (ho.given {})).1]
        exact hparts
    · refine ⟨⟨?_, Or.inl genuine_empty⟩, Or.inr (by simp [current, Exchange.InParts])⟩
      intro x hx
      rcases List.mem_cons.mp hx with rfl | hx
      · exact hcur
      · exact hpast x hx

namespace AsyncConnection

/-! ## What a getter asks -/

/-- A getter asks the streamer of the handler's response, or the page of 501. -/
def Asks (srv : Server) (s : AsyncConnection) : Prop :=
  s.itsResponse.hasStreamContent = true ∧ s.exchange.Genuine ∨
    s.itsResponse.IsPage srv ∧ s.exchange.Replaced srv

/-- What the getters were given so far, and what the next one asks. -/
structure Attributed (srv : Server) (s : AsyncConnection) : Prop where
  told : Told srv s.world.trace
  asks : s.world.outstanding ≠ [] → s.exchange.InParts → Asks srv s

/-- The code between `s` and `t` asks no other content than the response of `s` has. -/
structure Follows (s t : AsyncConnection) : Prop where
  trail : Trail (Obs.Given s.itsResponse) s t
  content : t.itsResponse.content = s.itsResponse.content

namespace Follows

variable {s t u : AsyncConnection}

/-- Two parts in a row. -/
theorem trans (h : Follows s t) (h' : Follows t u) : Follows s u :=
  ⟨h.trail.trans (h'.trail.mono fun _ ho => ho.congr h.content.symm), h'.content.trans h.content⟩

/-- Nothing is recorded, and the content stays. -/
theorem silent (hw : t.world.trace = s.world.trace) (hs : t.world.socket = s.world.socket)
    (hc : t.itsResponse.content = s.itsResponse.content) : Follows s t :=
  ⟨Trail.silent hw fun h => hs.trans h, hc⟩

/-- An event of the content. -/
theorem emit (s : AsyncConnection) {o : Obs} (ho : o.Given s.itsResponse)
    (hw : ¬ Outward o) : Follows s (s.emit o) :=
  ⟨Trail.emit s ho fun _ => hw, rfl⟩

end Follows

section Given

variable {s t : AsyncConnection}

/-- The events of one content. -/
theorem Asks.follow (h : Asks srv s) (hst : Follows s t) : Asks srv t := by
  obtain ⟨new, hnew, hev⟩ := hst.trail.events
  obtain ⟨-, -, hg, hr⟩ := @given_append srv _ _ s.world.trace fun o ho => (hev o ho).1
  unfold Asks exchange
  rw [hnew, (Response.same_content hst.content).1]
  exact h.imp (fun h => ⟨h.1, hg h.1 h.2⟩) fun h => ⟨h.1.congr hst.content, hr h.1 h.2⟩

/-- Past and present exchanges are told together. -/
theorem Asks.told (h : Asks srv s) (hp : ∀ x ∈ past s.world.trace, x.Genuine ∨ x.Replaced srv) :
    Told srv s.world.trace :=
  ⟨hp, h.imp (fun h => h.2) fun h => h.2⟩

/-- Getters are at work on the response under way, and nothing else is. -/
structure Getting (srv : Server) (s : AsyncConnection) : Prop where
  past : ∀ x ∈ past s.world.trace, x.Genuine ∨ x.Replaced srv
  asks : Asks srv s
  idle : s.world.outstanding = []

/-- Getters go on while nothing is started. -/
theorem Getting.follow (h : Getting srv s) (hst : Follows s t)
    (ho : t.world.outstanding = s.world.outstanding) : Getting srv t := by
  obtain ⟨new, hnew, hev⟩ := hst.trail.events
  obtain ⟨hp, -⟩ := @given_append srv _ _ s.world.trace fun o ho => (hev o ho).1
  refine ⟨?_, h.asks.follow hst, ho.trans h.idle⟩
  rw [hnew, hp]
  exact h.past

/-- What the getters were given is attributed, -/
theorem Getting.attributed (h : Getting srv s) : Attributed srv s :=
  ⟨h.asks.told h.past, fun _ _ => h.asks⟩

/-- and the next activity may be awaited. -/
theorem Getting.await (h : Getting srv s) (y : Activity) : Attributed srv (s.await y) :=
  ⟨h.asks.told h.past, fun _ _ => h.asks⟩

end Given

/-! ## The last call -/

/-- What holds in front of the last call. -/
def Fair (srv : Server) : Outcome → Prop
  | .stop t => Attributed srv t
  | .reply _ t _ => Told srv t.world.trace ∧ t.world.outstanding = [] ∧
      (t.itsKeepAlive = false ∨ ¬ t.exchange.InParts)
  | .finish t => Told srv t.world.trace ∧ t.world.outstanding = []

/-- A trail that tells of no getter. -/
theorem told_trail {A : Obs → Prop} {s t : AsyncConnection} (ht : Trail A s t)
    (hA : ∀ o, A o → o.Aside ∨ o = .rearmed) (h : Told srv s.world.trace) :
    Told srv t.world.trace ∧ (s.exchange.InParts ∨ ¬ t.exchange.InParts) := by
  obtain ⟨new, hnew, hev⟩ := ht.events
  unfold exchange
  rw [hnew]
  exact told_append (fun o ho => hA o (hev o ho).1) h

/-- The end of a response tells of no getter, -/
theorem aside_of_finishEvent {o : Obs} (h : FinishEvent o) : o.Aside ∨ o = .rearmed := by
  rcases h with rfl | ⟨g, n, rfl⟩
  · exact Or.inr rfl
  · exact Or.inl trivial

/-- and the server's own reply does not. -/
theorem aside_of_ownEvent {m : Message} {o : Obs} (h : OwnEvent srv m o) :
    o.Aside ∨ o = .rearmed := by
  rcases h with ⟨r, rfl⟩ | ⟨b, rfl⟩ | rfl | rfl | h
  · exact Or.inl trivial
  · exact Or.inl trivial
  · exact Or.inl trivial
  · exact Or.inl trivial
  · exact aside_of_finishEvent h

/-- The last call tells of no getter. -/
theorem told_run {x : Outcome} (h : Told srv x.state.world.trace) (a : Answers) :
    Told srv (x.run srv a).world.trace ∧
      (x.state.exchange.InParts ∨ ¬ (x.run srv a).exchange.InParts) := by
  cases x with
  | stop t => exact ⟨h, Classical.em _⟩
  | reply m t books =>
    have hl := logOnly_keep books (sendSimpleReply srv a m t)
    have hx := hl.exchange
    obtain ⟨hsent, hparts⟩ := told_trail (trail_sendSimpleReply srv a m t)
      (fun _ => aside_of_ownEvent) h
    show Told srv (books.keep (sendSimpleReply srv a m t)).world.trace ∧
      (_ ∨ ¬ (books.keep (sendSimpleReply srv a m t)).exchange.InParts)
    unfold Told
    rw [hl.past, show current _ = _ from hx, hx]
    exact ⟨hsent, hparts⟩
  | finish t => exact told_trail (trail_finishResponse srv t) (fun _ => aside_of_finishEvent) h

/-- The last call asks nothing. -/
theorem Fair.run {x : Outcome} (h : Fair srv x) (a : Answers) : Attributed srv (x.run srv a) := by
  cases x with
  | stop t => exact h
  | reply m t books =>
    obtain ⟨htold, ho, hk⟩ := h
    obtain ⟨hsent, hparts⟩ := @told_run srv (.reply m t books) htold a
    refine ⟨hsent, fun hne hin => ?_⟩
    rcases hk with hk | hk
    · exact absurd ((outstanding_reply srv hk books a).trans ho) hne
    · exact absurd hin (hparts.resolve_left hk)
  | finish t =>
    obtain ⟨htold, ho⟩ := h
    refine ⟨(@told_run srv (.finish t) htold a).1, ?_⟩
    show (finishResponse srv t).world.outstanding ≠ [] →
      (finishResponse srv t).exchange.InParts → Asks srv (finishResponse srv t)
    unfold finishResponse
    split
    · intro _ hin
      have hnone : (resumeReading (armForNextRequest srv (resetRequestState t))).exchange.path
          = none := by
        unfold resumeReading
        split
        · rfl
        · rfl
      unfold InParts at hin
      rw [hnone] at hin
      simp at hin
    · exact fun hne => absurd ho hne

/-! ## The getters -/

/-- The notification of a backend leaves the content, -/
theorem follows_notifyBackendFinished (st : StreamerStatus) (s : AsyncConnection) :
    Follows s (notifyBackendFinished st s) := by
  unfold notifyBackendFinished
  split
  · exact Follows.silent rfl rfl rfl
  · exact (Follows.emit s (o := .backendFinished st) trivial id).trans (Follows.silent rfl rfl rfl)

/-- so does the log -/
theorem follows_finalizeStreamLogging (s : AsyncConnection) :
    Follows s (finalizeStreamLogging s) := by
  unfold finalizeStreamLogging
  split
  · exact (Follows.emit s (o := .streamLogged _) trivial id).trans (Follows.silent rfl rfl rfl)
  · exact Follows.silent rfl rfl rfl

/-- and the write of a header section. -/
theorem follows_flushPendingHeaders (a : Answers) (s : AsyncConnection) :
    Follows s (flushPendingHeaders a s) := by
  unfold flushPendingHeaders
  split
  · exact Follows.silent rfl rfl rfl
  · have hwrite : Follows s (write .handler s.itsPendingHeaders a.flushWrite s) :=
      ⟨Trail.write s _ _ (fun _ => trivial) trivial, rfl⟩
    exact hwrite.trans (Follows.silent rfl rfl rfl)

/-- The chunk a getter takes is the content of the response it asks. -/
theorem follows_takeChunk {a : Answers} {c : Bytes} {s : AsyncConnection}
    (hc : nextContent a s.itsResponse = some c) : Follows s (takeChunk c s) := by
  have hgiven : Obs.Given s.itsResponse (.chunk c s.itsResponse.hasStreamContent) := by
    refine ⟨rfl, fun hplain => ?_⟩
    unfold nextContent at hc
    rw [if_neg (by simp [hplain])] at hc
    exact (Option.some.inj hc).symm
  exact (Follows.emit s hgiven id).trans (Follows.silent rfl rfl rfl)

section Getters

variable {s : AsyncConnection} {a : Answers}

/-- The header section goes out in front of the chunk. -/
theorem Getting.flush (h : Getting srv s) : Getting srv (flushPendingHeaders a s) :=
  h.follow (follows_flushPendingHeaders a s) (outstanding_flushPendingHeaders a s)

/-- The chunk is the streamer's, or the page of 501. -/
theorem Getting.takeChunk (h : Getting srv s) {c : Bytes}
    (hc : nextContent a s.itsResponse = some c) : Getting srv (takeChunk c s) :=
  h.follow (follows_takeChunk hc) rfl

/-- It is sent, -/
theorem Getting.sendChunk (h : Getting srv s) (handler : WriteHandler) (wire : Bytes) :
    Attributed srv (sendChunk handler wire s) := by
  let t : AsyncConnection := { s with
    itsResponseString := s.itsPendingHeaders ++ wire
    itsPendingHeaders := []
    itsSentBytes := 0 }
  have ht : Getting srv t := h.follow (Follows.silent rfl rfl rfl) rfl
  exact ht.await (.write handler (s.itsPendingHeaders ++ wire))

/-- the next getter is scheduled or refused, -/
theorem Getting.scheduleGetter (h : Getting srv s) (task : Task) :
    Fair srv (Tail.scheduleGetter srv a task s) := by
  unfold Tail.scheduleGetter
  split
  · exact h.await _
  · have hrefused : Getting srv (s.emit .refused) := h.follow (Follows.emit s trivial id) rfl
    exact ⟨hrefused.attributed.told, h.idle, Or.inl rfl⟩

/-- The getter was told of an exit. -/
theorem Getting.ended (h : Getting srv s) (st : StreamerStatus) :
    Getting srv (s.emit (.streamEnded st s.itsResponse.hasStreamContent)) :=
  h.follow (Follows.emit s (o := .streamEnded st _) rfl id) rfl

/-- or the stream ends. -/
theorem Getting.finishStream (h : Getting srv s) (st : StreamerStatus) :
    Fair srv (Tail.finishStream st s) := by
  have hbooks : Getting srv (notifyBackendFinished st (finalizeStreamLogging s)) :=
    h.follow ((follows_finalizeStreamLogging s).trans (follows_notifyBackendFinished st _))
      ((outstanding_notifyBackendFinished st _).trans (outstanding_finalizeStreamLogging s))
  exact ⟨hbooks.attributed.told, hbooks.idle⟩

/-- The getter of a stream of announced length, -/
theorem Getting.getNextChunk (h : Getting srv s) : Fair srv (Tail.getNextChunk srv a s) := by
  have hend : ∀ st, Fair srv
      (if flushFails a (s.emit (.streamEnded st s.itsResponse.hasStreamContent)) then
        .stop (flushPendingHeaders a (s.emit (.streamEnded st s.itsResponse.hasStreamContent)))
      else Tail.finishStream st
        (flushPendingHeaders a (s.emit (.streamEnded st s.itsResponse.hasStreamContent)))) := by
    intro st
    split
    · exact (h.ended st).flush.attributed
    · exact (h.ended st).flush.finishStream st
  unfold Tail.getNextChunk
  cases getStreamingStatus a s.itsResponse with
  | ok =>
    cases hc : nextContent a s.itsResponse with
    | none => exact h.attributed
    | some content =>
      dsimp only
      split
      · exact (h.takeChunk hc).sendChunk _ _
      split
      · exact (h.takeChunk hc).flush.attributed
      · exact (h.takeChunk hc).flush.scheduleGetter _
  | exitOk => exact hend .exitOk
  | exitError => exact hend .exitError

/-- and that of a chunked one. -/
theorem Getting.getNextChunkedChunk (h : Getting srv s) :
    Fair srv (Tail.getNextChunkedChunk srv a s) := by
  have hended : ∀ st, Getting srv (notifyBackendFinished st
      (s.emit (.streamEnded st s.itsResponse.hasStreamContent))) := fun st =>
    (h.ended st).follow (follows_notifyBackendFinished st _)
      (outstanding_notifyBackendFinished st _)
  unfold Tail.getNextChunkedChunk
  cases getStreamingStatus a s.itsResponse with
  | ok =>
    cases hc : nextContent a s.itsResponse with
    | none => exact h.attributed
    | some content =>
      dsimp only
      split
      · exact (h.takeChunk hc).sendChunk _ _
      split
      · exact (h.takeChunk hc).flush.attributed
      · exact (h.takeChunk hc).flush.scheduleGetter _
  | exitOk => exact (hended .exitOk).sendChunk _ _
  | exitError =>
    have hflush := (hended .exitError).flush (a := a)
    have hlog := hflush.follow (follows_finalizeStreamLogging _)
      (outstanding_finalizeStreamLogging _)
    exact (hlog.follow (t := closeSocket { finalizeStreamLogging (flushPendingHeaders a _) with
      itsKeepAlive := false }) ⟨Trail.behind (Trail.close _ trivial) rfl id, rfl⟩ rfl).attributed

end Getters

/-! ## The start of a reply -/

/-- The response of the handler is the one under way, and no getter was at work yet. -/
structure Given (srv : Server) (s : AsyncConnection) : Prop where
  told : Told srv s.world.trace
  unasked : s.exchange.Unasked
  handled : s.exchange.handled = some s.itsResponse
  idle : s.world.outstanding = []

/-- A response with a header section is its streamer's, or the page of 501. -/
theorem Given.preparePendingHeaders {s t : AsyncConnection} (path : ReplyPath) (h : Given srv s)
    (hc : s.itsResponse.hasStreamContent = true) (hp : path = .stream ∨ path = .chunked)
    (hx : t.exchange = s.exchange.observe (.started path))
    (hpast : past t.world.trace = past s.world.trace)
    (ho : t.world.outstanding = s.world.outstanding)
    (hs : t.itsResponse.status = s.itsResponse.status)
    (hcontent : t.itsResponse.content = s.itsResponse.content) :
    Getting srv (preparePendingHeaders srv t) := by
  have hx' : (AsyncConnection.preparePendingHeaders srv t).exchange =
      (s.exchange.observe (.started path)).observe (.rendered .handler
        (renderHeaders srv t.itsResponse).1 (renderHeaders srv t.itsResponse).2) := by
    rw [← hx]
    rfl
  refine ⟨?_, ?_, ho.trans h.idle⟩
  · show ∀ x ∈ past t.world.trace, _
    rw [hpast]
    exact h.told.1
  have hunasked : (AsyncConnection.preparePendingHeaders srv t).exchange.Unasked := by
    rw [hx']
    exact ⟨h.unasked.chunks, h.unasked.ended, h.unasked.streamed, h.unasked.streamEnd⟩
  have hhandled : (AsyncConnection.preparePendingHeaders srv t).exchange.handled
      = some s.itsResponse := by
    rw [hx']
    exact h.handled
  have hpath : (AsyncConnection.preparePendingHeaders srv t).exchange.path = some path := by
    rw [hx']
    rfl
  cases hstatus : s.itsResponse.status with
  | none =>
    have hpage : (AsyncConnection.preparePendingHeaders srv t).itsResponse
        = t.itsResponse.setStatus srv.spine .notImplemented :=
      renderHeaders_unset srv (hs.trans hstatus)
    refine Or.inr ⟨?_, hunasked.replaced ⟨?_, s.itsResponse, hhandled, hstatus⟩⟩
    · rw [hpage]
      exact ⟨rfl, rfl⟩
    · rw [hpath]
      exact hp.imp (congrArg some) (congrArg some)
  | some st =>
    have hset : t.itsResponse.status.isSome = true := by
      rw [hs, hstatus]
      rfl
    refine Or.inl ⟨?_, hunasked.genuine ?_⟩
    · show (renderHeaders srv t.itsResponse).1.hasStreamContent = true
      rw [renderHeaders_fst srv hset, ← hc]
      exact (Response.same_content hcontent).1
    · rintro ⟨-, h', hh', hnone⟩
      obtain rfl := Option.some.inj (hhandled.symm.trans hh')
      cases hstatus.symm.trans hnone

/-- A response that is sent whole, or that a gateway relays. -/
theorem Given.started {s : AsyncConnection} (h : Given srv s) {path : ReplyPath}
    (hp : path = .regular ∨ path = .gateway) : (s.exchange.observe (.started path)).Genuine := by
  have hunasked : (s.exchange.observe (.started path)).Unasked :=
    ⟨h.unasked.chunks, h.unasked.ended, h.unasked.streamed, h.unasked.streamEnd⟩
  refine hunasked.genuine ?_
  rintro ⟨hs | hs, -⟩
  all_goals
    have hs' := Option.some.inj hs
    rcases hp with rfl | rfl
    · cases hs'
    · cases hs'

/-- A response with its content at hand, -/
theorem Given.startRegularReply {s : AsyncConnection} (h : Given srv s) (a : Answers) :
    Attributed srv (startRegularReply srv (setServerHeaders srv a (s.emit (.started .regular)))) := by
  have hstarted := h.started (Or.inl rfl)
  refine ⟨⟨h.told.1, Or.inl ⟨hstarted.set, hstarted.streamed, hstarted.streamEnd⟩⟩,
    fun _ hin => ?_⟩
  rcases hin with hin | hin | hin
  · cases hin
  · cases hin
  · cases hin

/-- and one on each path. -/
theorem Given.startReply {s : AsyncConnection} (h : Given srv s) (a : Answers) :
    Fair srv (Tail.startReply srv a s) := by
  have hbody : ∀ path, SameBody s.itsResponse
      (setServerHeaders srv a (s.emit (.started path))).itsResponse := fun path =>
    sameBody_setServerHeaders srv a (s.emit (.started path))
  unfold Tail.startReply
  split
  · exact h.startRegularReply a
  split
  · rename_i hc
    split
    · refine Getting.getNextChunk (s := { s.emit (.started .gateway) with itsKeepAlive := false }) ?_
      exact ⟨h.told.1, Or.inl ⟨hc, h.started (Or.inr rfl)⟩, h.idle⟩
    split
    · exact Getting.getNextChunkedChunk (h.preparePendingHeaders .chunked hc (Or.inr rfl)
        rfl rfl rfl (hbody .chunked).status (hbody .chunked).content)
    · exact Getting.getNextChunk (h.preparePendingHeaders .stream hc (Or.inl rfl)
        rfl rfl rfl (hbody .stream).status (hbody .stream).content)
  · exact h.startRegularReply a

/-- The task that calls the handler. -/
theorem fair_handleCompletedRead {s : AsyncConnection} (h : Told srv s.world.trace)
    (hd : Direct srv s.exchange) (ho : s.world.outstanding = []) (a : Answers) :
    Fair srv (Tail.handleCompletedRead srv a s) := by
  have hgenuine : s.exchange.Genuine := by
    refine h.2.resolve_right fun hr => ?_
    obtain ⟨-, r, hr, -⟩ := hr.unset
    cases hd.handled.symm.trans hr
  have hnot : ¬ s.exchange.InParts := by
    unfold Exchange.InParts
    rw [hd.path]
    simp
  have hstop : ∀ t : AsyncConnection, Told srv t.world.trace → ¬ t.exchange.InParts →
      Attributed srv t := fun t ht hin => ⟨ht, fun _ hin' => absurd hin' hin⟩
  unfold Tail.handleCompletedRead
  split
  · exact hstop s h hnot
  split
  · exact hstop s h hnot
  have hreturned : ∀ response, Given srv (Tail.handled response (Tail.called s)) ∧
      ¬ (Tail.handled response (Tail.called s)).exchange.InParts := by
    intro response
    have hx := Tail.exchange_handled response s
    have hunasked : (Tail.handled response (Tail.called s)).exchange.Unasked := by
      rw [hx]
      exact ⟨hd.chunks, hd.ended, hgenuine.streamed.trans hd.chunks,
        hgenuine.streamEnd.trans hd.ended⟩
    have hgiven : (Tail.handled response (Tail.called s)).exchange.Genuine := by
      refine hunasked.genuine ?_
      rw [hx]
      rintro ⟨hs | hs, -⟩
      · cases hd.path.symm.trans hs
      · cases hd.path.symm.trans hs
    refine ⟨⟨⟨h.1, Or.inl hgiven⟩, hunasked, rfl, ho⟩, ?_⟩
    rw [hx]
    exact hnot
  rw [Tail.callHandler_eq]
  rcases Tail.returnFromHandler_cases srv a (Tail.called s) with
    ⟨-, heq⟩ | ⟨response, ⟨-, heq⟩ | ⟨-, heq⟩ | ⟨-, heq⟩⟩
  · rw [heq]
    exact hstop _ ⟨h.1, Or.inl ⟨hgenuine.set, hgenuine.streamed, hgenuine.streamEnd⟩⟩ hnot
  all_goals
    obtain ⟨hr, hparts⟩ := hreturned response
    rw [heq]
    generalize Tail.handled response (Tail.called s) = t at hr hparts
  · exact hstop t hr.told hparts
  · exact ⟨hr.told, hr.idle, Or.inr hparts⟩
  · exact hr.startReply a

/-! ## Completed writes -/

/-- A written part of a response of which `P` holds. -/
theorem fair_continueWrite {P : AsyncConnection → Prop} {s : AsyncConnection} (h : P s)
    (hset : ∀ {t u : AsyncConnection}, P t → u.world = t.world →
      u.itsResponse = t.itsResponse → P u)
    (htold : ∀ {t}, P t → Told srv t.world.trace ∧ t.world.outstanding = [])
    (hawait : ∀ {t}, P t → ∀ y, Attributed srv (t.await y)) (a : Answers) (handler : WriteHandler)
    (e : ErrorCode) (n : ℕ) {next : AsyncConnection → Outcome} (failed : Books)
    (hnext : ∀ t, P t → Fair srv (next t)) :
    Fair srv (Tail.continueWrite srv a handler e n next failed s) := by
  unfold Tail.continueWrite
  dsimp only
  split
  · split
    · refine hawait ?_ _
      exact hset h rfl rfl
    · exact hnext _ (hset h rfl rfl)
  · exact ⟨(htold h).1, (htold h).2, Or.inl rfl⟩

/-- A written part of a streamed response. -/
theorem Getting.runWriteHandler {s : AsyncConnection} (h : Getting srv s) (a : Answers)
    {handler : WriteHandler} (hh : handler ≠ .writeRegularReply) (e : ErrorCode) (n : ℕ) :
    Fair srv (Tail.runWriteHandler srv a handler e n s) := by
  have hset : ∀ {t u : AsyncConnection}, Getting srv t → u.world = t.world →
      u.itsResponse = t.itsResponse → Getting srv u := fun ht hw hr =>
    ht.follow (Follows.silent (by rw [hw]) (by rw [hw]) (by rw [hr])) (by rw [hw])
  have hcont : ∀ (next : AsyncConnection → Outcome) (failed : Books),
      (∀ t, Getting srv t → Fair srv (next t)) →
      Fair srv (Tail.continueWrite srv a handler e n next failed s) := fun _ failed =>
    fair_continueWrite h hset (fun ht => ⟨ht.attributed.told, ht.idle⟩) (fun ht y => ht.await y)
      a handler e n failed
  cases handler with
  | writeRegularReply => exact absurd rfl hh
  | writeStreamReply => exact hcont _ _ fun t ht => ht.scheduleGetter _
  | writeChunkedReply => exact hcont _ _ fun t ht => ht.scheduleGetter _
  | finalizeChunkedReply =>
    refine hcont (fun s => .finish (finalizeStreamLogging s)) .log fun t ht => ?_
    have hbooks := ht.follow (follows_finalizeStreamLogging t)
      (outstanding_finalizeStreamLogging t)
    exact ⟨hbooks.attributed.told, hbooks.idle⟩

/-- A response with its content at hand has no getters. -/
structure Whole (srv : Server) (s : AsyncConnection) : Prop where
  told : Told srv s.world.trace
  path : s.exchange.path = some .regular
  idle : s.world.outstanding = []

/-- The completed write of such a response. -/
theorem Whole.runWriteHandler {s : AsyncConnection} (h : Whole srv s) (a : Answers)
    (e : ErrorCode) (n : ℕ) : Fair srv (Tail.runWriteHandler srv a .writeRegularReply e n s) := by
  show Fair srv (Tail.continueWrite srv a .writeRegularReply e n
    (fun s => .finish (notifyBackendFinished .exitOk s)) .none s)
  refine fair_continueWrite h ?_ (fun ht => ⟨ht.told, ht.idle⟩) ?_ a .writeRegularReply e n .none ?_
  · intro t u ht hw _
    refine ⟨by rw [hw]; exact ht.told, ?_, by rw [hw]; exact ht.idle⟩
    unfold AsyncConnection.exchange
    rw [hw]
    exact ht.path
  · refine fun ht y => ⟨ht.told, fun _ hin => ?_⟩
    have hpath : (AsyncConnection.await _ y).exchange.path = some .regular := ht.path
    unfold InParts at hin
    rw [hpath] at hin
    simp at hin
  · intro t ht
    have hl := logOnly_notifyBackendFinished .exitOk t
    have hx := hl.exchange
    unfold exchange at hx
    refine ⟨?_, hl.outstanding.trans ht.idle⟩
    unfold Told
    rw [hl.past, hx]
    exact ht.told

/-! ## One step -/

/-- The steps that run no task and complete no write ask nothing. -/
theorem Attributed.early {s : AsyncConnection} {e : Event} {x : Outcome} (h : Attributed srv s)
    (hx : Tail.step srv s e = some x) (he : ∀ o, StepEvent srv e o → EarlyEvent o)
    (hpath : s.exchange.path = none) (a : Answers) : Attributed srv (x.run srv a) := by
  have haside : ∀ o, EarlyEvent o → o.Aside ∨ o = .rearmed := by
    rintro o (rfl | rfl | ⟨b, rfl⟩ | ⟨g, n, rfl⟩ | ⟨r, rfl⟩ | rfl | ⟨b, rfl⟩ | rfl)
    all_goals exact Or.inl trivial
  have hnot : ¬ s.exchange.InParts := by
    unfold InParts
    rw [hpath]
    simp
  obtain ⟨htold, hstate⟩ := told_trail (trail_step srv hx) (fun o ho => haside o (he o ho)) h.told
  obtain ⟨hsent, hparts⟩ := @told_run srv _ htold a
  exact ⟨hsent, fun _ hin => absurd hin (hparts.resolve_left (hstate.resolve_left hnot))⟩

/-- The state a getter or the handler of a write starts from. -/
theorem Attributed.getting {s : AsyncConnection} (h : Attributed srv s) (hinv : Inv srv s) {i : ℕ}
    {y : Activity} (hi : s.world.outstanding[i]? = some y) (hin : s.exchange.InParts) :
    Getting srv (s.release i) := by
  have hne : s.world.outstanding ≠ [] := by
    rintro hnil
    rw [hnil] at hi
    cases hi
  obtain ⟨hrel, -⟩ := hinv.released srv hi
  refine ⟨h.told.1, h.asks hne hin, ?_⟩
  rw [hrel]
  rfl

/-- The handler of a write is called behind an event that tells of no getter. -/
theorem Attributed.runWriteHandler {s u : AsyncConnection} (h : Attributed srv s)
    (hinv : Inv srv s) {i : ℕ} {handler : WriteHandler} {buffer : Bytes}
    (hi : s.world.outstanding[i]? = some (.write handler buffer))
    (ht : Trail Obs.Aside (s.release i) u) (hr : u.itsResponse = s.itsResponse)
    (ho : u.world.outstanding = (s.release i).world.outstanding) (a : Answers) (e : ErrorCode)
    (n : ℕ) : Fair srv (Tail.runWriteHandler srv a handler e n u) := by
  obtain ⟨hrel, -, hph⟩ := hinv.released srv hi
  have hfollows : Follows (s.release i) u :=
    ⟨ht.mono fun o ho => ho.given _, congrArg Response.content hr⟩
  have hgetting : s.exchange.InParts → Getting srv u := fun hin =>
    (h.getting hinv hi hin).follow hfollows ho
  cases handler with
  | writeRegularReply =>
    have hpath : s.exchange.path = some .regular := hph.2.path
    refine Whole.runWriteHandler ⟨(told_trail ht (fun _ ho => Or.inl ho) h.told).1, ?_, ?_⟩ a e n
    · obtain ⟨new, hnew, hev⟩ := ht.events
      unfold exchange
      rw [hnew]
      exact (@given_append srv _ _ _ fun o ho => (hev o ho).1.given {}).2.1.trans hpath
    · rw [ho, hrel]
      rfl
  | writeStreamReply =>
    have hb : Streaming srv s.bare buffer := hph.2
    exact (hgetting (hb.path.imp_right Or.inl)).runWriteHandler a (by simp) e n
  | writeChunkedReply =>
    have hb : Chunking srv s.bare buffer := hph.2
    exact (hgetting (Or.inr (Or.inr hb.path))).runWriteHandler a (by simp) e n
  | finalizeChunkedReply =>
    have hb : Finalizing srv s.bare buffer := hph.2.1
    exact (hgetting (Or.inr (Or.inr hb.path))).runWriteHandler a (by simp) e n

/-- **Every step keeps what is told of the getters.** -/
theorem Attributed.step {s s' : AsyncConnection} {e : Event} (h : Attributed srv s)
    (hinv : Inv srv s) (hstep : step srv s e = some s') : Attributed srv s' := by
  obtain ⟨x, hx, rfl⟩ := exists_outcome srv hstep
  -- before a request is taken up no getter is at work
  have hread : ∀ {i : ℕ} {y : Activity}, s.world.outstanding[i]? = some y → ¬ y.Works →
      (∀ o, StepEvent srv e o → EarlyEvent o) → Attributed srv (x.run srv e.answers) :=
    fun hi hy he => h.early hx he (hinv.path_of_reading hi hy) _
  cases e with
  | handshake i ok =>
    simp only [Tail.step, AsyncConnection.step] at hx
    split at hx
    · rename_i hi
      exact hread hi id fun _ => earlyEvent_of_stepEvent srv (by simp) (by simp) (by simp)
    · cases hx
  | receive i bytes =>
    simp only [Tail.step, AsyncConnection.step] at hx
    split at hx
    · rename_i hi
      exact hread hi id fun _ => earlyEvent_of_stepEvent srv (by simp) (by simp) (by simp)
    · cases hx
  | readFails i err a =>
    simp only [Tail.step] at hx
    split at hx
    · rename_i hi
      exact hread hi id fun _ => earlyEvent_of_stepEvent srv (by simp) (by simp) (by simp)
    · cases hx
  | runRead i a =>
    simp only [Tail.step] at hx
    split at hx
    · rename_i hi
      exact hread hi id fun _ => earlyEvent_of_stepEvent srv (by simp) (by simp) (by simp)
    · cases hx
  | runTask i a =>
    simp only [Tail.step] at hx
    split at hx
    · rename_i pool task hi
      obtain rfl := Option.some.inj hx
      obtain ⟨hrel, -, hph⟩ := hinv.released srv hi
      refine Fair.run ?_ a
      cases task with
      | handleCompletedRead view =>
        have hq : Queued srv s.bare := hph
        refine fair_handleCompletedRead (s := cancelTimer (s.release i)) h.told hq.direct ?_ a
        rw [hrel]
        rfl
      | getNextChunk =>
        have hb : Streaming srv s.bare [] := hph.2.2
        exact (h.getting hinv hi (hb.path.imp_right Or.inl)).getNextChunk
      | getNextChunkedChunk =>
        have hb : Chunking srv s.bare [] := hph.2.2
        exact (h.getting hinv hi (Or.inr (Or.inr hb.path))).getNextChunkedChunk
    · cases hx
  | writeSome i n a =>
    simp only [Tail.step] at hx
    split at hx
    · rename_i handler buffer hi
      split at hx
      · rename_i hn
        obtain rfl := Option.some.inj hx
        refine Fair.run (h.runWriteHandler
          (u := (s.release i).emit (.wrote .handler (buffer.take n))) hinv hi ?_ rfl rfl a
          .success n) a
        refine Trail.emit (s.release i) (o := .wrote .handler (buffer.take n)) trivial fun hc => ?_
        exact absurd (hn.2.symm.trans hc) (by simp)
      · cases hx
    · cases hx
  | writeFails i a =>
    simp only [Tail.step] at hx
    split at hx
    · rename_i handler buffer hi
      obtain rfl := Option.some.inj hx
      refine Fair.run (h.runWriteHandler (u := (s.release i).failWrite) hinv hi ?_ rfl rfl a
        .other 0) a
      refine (Trail.emit (s.release i) (o := .writeError .handler) trivial fun _ => id).trans
        (Trail.silent rfl fun hc => ?_)
      have hc' : (s.release i).world.socket = .closed := hc
      exact (if_neg (by rw [hc']; simp)).trans hc'
    · cases hx
  | timerExpires =>
    simp only [Tail.step, AsyncConnection.step] at hx
    split at hx
    · obtain rfl := Option.some.inj hx
      exact ⟨h.told, h.asks⟩
    · cases hx
  | runTimer generation a =>
    have hearly := h.early (e := .runTimer generation a) hx
      (fun _ => earlyEvent_of_stepEvent srv (by simp) (by simp) (by simp))
    simp only [Tail.step] at hx
    split at hx
    · rename_i w hw
      obtain ⟨hmem, hgen, -⟩ := readyWait_spec hw
      -- a wait that acts finds no reply under way; a stale one does nothing
      by_cases hg : w.generation = s.itsTimerGeneration
      · exact hearly (hinv.path_of_acts hmem hg) a
      · obtain rfl := Option.some.inj hx
        rw [handleTimer_inert srv (s := { s with world.waits := s.world.waits.erase w })
          fun he => hg (hgen.trans he)]
        exact ⟨h.told, h.asks⟩
    · cases hx
  | requestShutdown =>
    obtain rfl := Option.some.inj hx
    exact ⟨h.told, h.asks⟩

/-! ## Runs -/

/-- Nothing was given to a connection that has just been started. -/
theorem attributed_start : Attributed srv (start srv) := by
  have htrace := start_trace srv
  refine ⟨?_, fun _ hin => ?_⟩
  · rw [htrace]
    refine ⟨fun x hx => absurd hx List.not_mem_nil, Or.inl ⟨?_, rfl, rfl⟩⟩
    rintro ⟨hs | hs, -⟩
    · cases hs
    · cases hs
  · unfold InParts exchange at hin
    rw [htrace] at hin
    simp [current, Exchange.observe] at hin

variable (srv)

/-- **What the getters of an exchange were given** was the streamer's, or the page of 501
in its place. -/
theorem genuine_exchange {s : AsyncConnection} (h : Reachable srv s) {x : Exchange}
    (hx : x ∈ exchanges s.world.trace) : x.Genuine ∨ x.Replaced srv := by
  obtain ⟨es, hrun⟩ := h
  have hall : Inv srv s ∧ Attributed srv s := by
    refine Transition.run_preserves (P := fun u => Inv srv u ∧ Attributed srv u) ?_
      ⟨inv_start srv, attributed_start⟩ hrun
    rintro u e u' ⟨hinv, ht⟩ hstep
    exact ⟨inv_step srv hinv hstep, ht.step hinv hstep⟩
  rcases mem_exchanges.mp hx with hx | rfl
  · exact hall.2.told.1 x hx
  · exact hall.2.told.2

end AsyncConnection

end SmartMet
