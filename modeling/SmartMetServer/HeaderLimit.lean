/-
# The limit of a header section

`handleIncompleteRequest` compares the limit with what is buffered as long as the
header section has no end.  A header section over the limit is refused unless its
end is among the bytes that bring the buffer over the limit, or was left over
behind the request before it.
-/
import SmartMetServer.Screening

namespace SmartMet

open StreamFraming

namespace AsyncConnection

variable (srv : Server)

/-- The header section, up to and with its blank line, is over the limit. -/
def LongHead (bytes : Bytes) : Prop :=
  ∃ stop, find crlfcrlf bytes 0 = some stop ∧ srv.itsMaxHeaderSize < stop + 4

/-- A read, or a call for left over bytes, finds the end of a header section that
is over the limit. -/
def LateHead (s : AsyncConnection) : Event → Prop
  | .runRead i _ =>
    ∃ bytes, s.world.outstanding[i]? = some (.handleRead bytes) ∧
      s.world.shutdownRequested = false ∧ ¬ TooLarge srv (s.itsBuffer ++ bytes) ∧
      srv.spine.parseOneRequest (s.itsBuffer ++ bytes) ≠ .failed ∧
      LongHead srv (s.itsBuffer ++ bytes) ∧
      (bytes = [] ∨ find crlfcrlf s.itsBuffer 0 = none)
  | _ => False

variable {srv}

/-- The end of a header section stays where it is. -/
theorem headOnly_longHead : HeadOnly (LongHead srv) := by
  intro b c hb
  obtain ⟨stop, hstop⟩ := Option.isSome_iff_exists.mp hb
  unfold LongHead
  rw [find_append c hstop, hstop]

theorem LongHead.isSome {b : Bytes} (h : LongHead srv b) : (find crlfcrlf b 0).isSome := by
  obtain ⟨stop, hstop, -⟩ := h
  rw [hstop]
  rfl

/-- A header section over the limit that was not found late was not found. -/
theorem not_longHead {s : AsyncConnection} (hinv : Inv srv s)
    (h : Looked (Screens (LongHead srv)) s) {i : ℕ} {a : Answers}
    (hg : ¬ LateHead srv s (.runRead i a)) {bytes : Bytes}
    (hi : s.world.outstanding[i]? = some (.handleRead bytes))
    (hshut : s.world.shutdownRequested = false) (hsize : ¬ TooLarge srv (s.itsBuffer ++ bytes))
    (hp : srv.spine.parseOneRequest (s.itsBuffer ++ bytes) ≠ .failed) :
    ¬ LongHead srv (s.itsBuffer ++ bytes) := fun hlong =>
  hg ⟨bytes, hi, hshut, hsize, hp, hlong, fresh_of_bad headOnly_longHead hinv h hi hlong⟩

/-- **The limit of a header section is enforced**, in every run in which no read
finds the end of a header section over the limit: a request with such a header
section is given to no handler, and the read that brings the buffer over the
limit is answered with 431 and ends the connection. -/
theorem header_limit {s : AsyncConnection} {es : List Event} {stream : Bytes}
    (hmax : 0 < srv.itsMaxHeaderSize) (hparse : Stable srv.spine.parseOneRequest)
    (hg : Transition.Along (step srv) (fun s e => ¬ LateHead srv s e) (start srv) es)
    (hrun : runFrom srv (start srv) es = some s) (hstream : es.flatMap Event.arrived <+: stream)
    {k : ℕ} {x : Exchange} {m : Bytes} (hx : (exchanges s.world.trace)[k]? = some x)
    (hm : MessageAt srv.spine.parseOneRequest stream k m) (hlong : LongHead srv m) :
    x.dispatched = [] ∧
      ∀ i a bytes s', k = (past s.world.trace).length →
        s.world.outstanding[i]? = some (.handleRead bytes) →
        s.world.shutdownRequested = false → ¬ TooLarge srv (s.itsBuffer ++ bytes) →
        srv.itsMaxHeaderSize < (s.itsBuffer ++ bytes).length → ¬ LateHead srv s (.runRead i a) →
        step srv s (.runRead i a) = some s' →
        (∃ r head, s'.exchange.heads
          = s.exchange.heads ++ [(.stock .requestHeaderFieldsTooLarge, r, head)]) ∧
          s'.exchange.dispatched = [] ∧ s'.world.socket = .closed ∧ s'.world.outstanding = [] := by
  let Good : Bytes → Prop := fun m => ¬ LongHead srv m
  obtain ⟨hinv, hre, hreceived, hparsed, hscreened⟩ := stream_run
    (Q := fun s => EachExchange (ParsedOnly srv Good stream) s.world.trace ∧
      Looked (Screens (LongHead srv)) s) hparse
    ⟨eachExchange_start srv fun hne => absurd rfl hne, looked_start srv (watches_screens _)⟩
    (by
      intro u e u' hinv hre _ hu hq hgu hstep
      refine ⟨parsedOnly_step hparse hinv hre hu hq.1 ?_ hstep,
        hq.2.step (watches_screens _) hinv hstep ?_⟩
      · rintro i a bytes m r rfl hi hshut hsize hp ⟨c, hc⟩ hm
        refine not_longHead hinv hq.2 hgu hi hshut hsize (by rw [hp]; simp) ?_
        rw [← hc]
        exact (headOnly_longHead _ c hm.isSome).mpr hm
      · rintro i a bytes t v rfl hi hshut hsize hp - - - - -
        exact not_longHead hinv hq.2 hgu hi hshut hsize (by rw [hp]; simp))
    hg hrun hstream
  refine ⟨?_, ?_⟩
  · by_contra hd
    have hmem : x ∈ exchanges s.world.trace := List.mem_of_getElem? hx
    exact hparsed k x hx (requests_of_dispatched srv ⟨es, hrun⟩ hmem hd) m hm hlong
  intro i a bytes s' hk hi hshut hsize hover hgi hstep
  obtain ⟨hreq, hbehind⟩ := hre.behind_eq hinv hi
  subst hk
  obtain ⟨later, hlater⟩ := hreceived
  rw [← hlater] at hm
  obtain ⟨hfailed, hfound, -⟩ := hm.parse_eq hparse hbehind
  have hshort := not_longHead hinv hscreened hgi hi hshut hsize hfailed
  -- the end of the header section has not arrived
  have hblank : find crlfcrlf (s.itsBuffer ++ bytes) 0 = none := by
    by_contra hne
    exact hshort ((bad_iff headOnly_longHead hparse hm hbehind
      (Option.isSome_iff_ne_none.mpr hne) hlong.isSome).mpr hlong)
  have hp : srv.spine.parseOneRequest (s.itsBuffer ++ bytes) = .incomplete := by
    cases hp : srv.spine.parseOneRequest (s.itsBuffer ++ bytes) with
    | incomplete => rfl
    | failed => exact absurd hp hfailed
    | complete r n =>
      obtain ⟨-, c, hc⟩ := hfound r n hp
      rw [← hc] at hblank
      have := ((headOnly_longHead m c hlong.isSome).mpr hlong).isSome
      rw [hblank] at this
      cases this
  obtain ⟨t, hf, hr, hb, rfl⟩ := hinv.runRead_incomplete hi hshut hsize hp hstep
  have hend : EndlessHead srv t.itsBuffer := by
    rw [hb]
    exact ⟨hmax, hover, hblank⟩
  rcases handleIncompleteRequest_cases srv a t with ⟨-, h431⟩ | ⟨hno, -⟩
  · rw [h431]
    exact hr.refused_with (u := { t with itsKeepAlive := false }) hf a
      .requestHeaderFieldsTooLarge rfl rfl
  · exact absurd hend hno

/-- A server with a limit of 20 bytes, and a header section of 28. -/
def briefServer : Server := { MinimalSpine.server with itsMaxHeaderSize := 20 }

/-- A request whose header section is longer than that. -/
def longRequest : Bytes := "GET /x HTTP/1.1\r\nHost: h\r\n\r\n".toList

theorem messageAt_longRequest :
    MessageAt briefServer.spine.parseOneRequest longRequest 0 longRequest ∧
      LongHead briefServer longRequest := by
  have h : (match MinimalSpine.parseBodyless longRequest with
      | .complete _ n => n == longRequest.length
      | _ => false) = true := by decide +kernel
  refine ⟨⟨?_, [], by rw [List.append_nil]; rfl⟩, 24, by decide +kernel, by decide⟩
  show ∃ a, MinimalSpine.parseBodyless longRequest = _
  split at h
  · rename_i a n hp
    exact ⟨a, by rw [hp, beq_iff_eq.mp h]⟩
  · cases h

/-- The end of the header section has not arrived when the limit is crossed. -/
theorem header_limit_brief :
    ∃ s s', runFrom briefServer (start briefServer) [.receive 0 (longRequest.take 24)] = some s ∧
      step briefServer s (.runRead 0 MinimalSpine.answers) = some s' ∧
      (∃ r head, s'.exchange.heads = [(.stock .requestHeaderFieldsTooLarge, r, head)]) ∧
      s'.world.socket = .closed := by
  refine ⟨_, _, rfl, rfl, ?_⟩
  have hlate : ∀ s, s.world.outstanding = [.handleRead (longRequest.take 24)] → s.itsBuffer = [] →
      ¬ LateHead briefServer s (.runRead 0 MinimalSpine.answers) := by
    rintro s ho hb ⟨bytes, hi, -, -, -, hlong, -⟩
    rw [ho] at hi
    obtain rfl : longRequest.take 24 = bytes := Activity.handleRead.inj (Option.some.inj hi)
    rw [hb] at hlong
    exact absurd hlong.isSome (by decide +kernel)
  obtain ⟨hheads, -, hclosed, -⟩ := (@header_limit briefServer _
    [.receive 0 (longRequest.take 24)] longRequest (by decide)
    MinimalSpine.stable_parseBodyless ⟨id, fun _ _ => trivial⟩ rfl (by decide) 0 _ _ rfl
    messageAt_longRequest.1 messageAt_longRequest.2).2 0 MinimalSpine.answers
    (longRequest.take 24) _ rfl rfl rfl (fun h => absurd h.1 (by decide)) (by decide)
    (hlate _ rfl rfl) rfl
  exact ⟨hheads, hclosed⟩

/-- **A header section over the limit is served**: it arrives whole in one read,
and the handler is called. -/
theorem long_head_dispatched :
    ∃ s x, runFrom briefServer (start briefServer) [.receive 0 longRequest,
        .runRead 0 MinimalSpine.answers, .runTask 0 MinimalSpine.answers] = some s ∧
      MessageAt briefServer.spine.parseOneRequest longRequest 0 longRequest ∧
      LongHead briefServer longRequest ∧
      (exchanges s.world.trace)[0]? = some x ∧ x.dispatched ≠ [] := by
  obtain ⟨s, hs, hp⟩ := (Option.any_eq_true _ _).mp (show (runFrom briefServer (start briefServer)
    [.receive 0 longRequest, .runRead 0 MinimalSpine.answers,
      .runTask 0 MinimalSpine.answers]).any
    (fun s => match (exchanges s.world.trace)[0]? with
      | some x => !x.dispatched.isEmpty
      | none => false) = true from by decide +kernel)
  split at hp
  · rename_i x hx
    exact ⟨s, x, hs, messageAt_longRequest.1, messageAt_longRequest.2, hx, by simpa using hp⟩
  · cases hp

end AsyncConnection

end SmartMet
