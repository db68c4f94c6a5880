/-
# Chunked responses

What the client reads behind the header section of a chunked response decodes to
a complete message exactly when the streamer has ended well and no write has
failed.  A response that was cut, by a failed streamer, a failed write or a full
queue, never looks complete: not even with a stock reply behind it.

A response without a status is none of its streamer's: its body is made of the page
of 501, and how that ends is up to the library.
-/
import SmartMetServer.MinimalSpine
import SmartMetServer.Streamers

namespace SmartMet

open ChunkedCoding Exchange

namespace Exchange

variable {srv : Server} {x : Exchange}

/-- The header section of the handler's response. -/
theorem headBytes_of_cons {r : Response} {head : Bytes}
    {rest : List (Message × Response × Bytes)} (h : x.heads = (.handler, r, head) :: rest) :
    x.headBytes = head := by
  unfold headBytes
  rw [h]
  rfl

/-- A chunked exchange in which the server itself has answered: the chunks so
far, and then a stock reply. -/
theorem Sound.out_of_server (h : Sound srv x) (hp : x.path = some .chunked)
    (hs : x.serverBytes ≠ []) :
    x.ended ≠ some .exitOk ∧
      x.out = x.headBytes ++ (encode x.chunks ++ x.serverBytes) ∧
      ∃ r content, x.serverBytes <+: srv.spine.headerSection r ++ content := by
  obtain ⟨hrefused, hserver⟩ := h.server (by rw [hp]; simp) hs
  obtain ⟨hended, hbytes⟩ := h.refusal hrefused hp
  refine ⟨hended, ?_, hserver⟩
  rw [out_eq h.ordered, hbytes, List.append_assoc]

/-- A stock reply does not begin like a chunk. -/
theorem Sound.head_of_server (h : Sound srv x) (hp : x.path = some .chunked)
    (hs : x.serverBytes ≠ []) (hhead : ∀ r, (srv.spine.headerSection r).head? = some 'H') :
    ∃ t, x.serverBytes = 'H' :: t := by
  obtain ⟨-, -, r, content, hpre⟩ := h.out_of_server hp hs
  cases hsec : srv.spine.headerSection r with
  | nil =>
    have := hhead r
    rw [hsec] at this
    cases this
  | cons c t =>
    have hc := hhead r
    rw [hsec, List.head?_cons, Option.some.injEq] at hc
    cases hb : x.serverBytes with
    | nil => exact absurd hb hs
    | cons d u =>
      rw [hsec, hb, List.cons_append, List.cons_prefix_cons] at hpre
      exact ⟨u, by rw [hpre.1, hc]⟩

/-- What follows the header section decodes to a complete message only if it is
one. -/
theorem Sound.complete_of_decode (h : Sound srv x) (hp : x.path = some .chunked)
    (hhead : ∀ r, (srv.spine.headerSection r).head? = some 'H') {content left : Bytes}
    (hd : decode (x.out.drop x.headBytes.length) = some (content, left)) :
    x.ended = some .exitOk ∧ x.failed = false ∧ content = x.chunks.flatten ∧ left = [] := by
  by_cases hs : x.serverBytes = []
  · have hout : x.out = x.handlerBytes := by
      rw [out_eq h.ordered, hs, List.append_nil]
    rw [hout] at hd
    by_cases hlen : x.headBytes.length ≤ x.handlerBytes.length
    · -- the header section is out
      obtain ⟨body, hbody⟩ : ∃ body, x.handlerBytes = x.headBytes ++ body :=
        let ⟨t, ht⟩ := List.prefix_of_prefix_length_le (List.prefix_append _ _) (h.chunked hp) hlen
        ⟨t, ht.symm⟩
      rw [hbody, List.drop_left] at hd
      have hpre : body <+: encode x.chunks ++
          if x.ended = some .exitOk then lastChunk else [] := by
        have := h.chunked hp
        rw [hbody] at this
        exact (List.prefix_append_right_inj _).mp this
      by_cases he : x.ended = some .exitOk
      · rw [if_pos he] at hpre
        obtain ⟨hall, hcontent, hleft⟩ := decode_of_prefix hpre hd
        refine ⟨he, ?_, hcontent, hleft⟩
        cases hf : x.failed with
        | false => rfl
        | true => exact absurd (by rw [hbody, hall]) (h.truncated hp hf)
      · rw [if_neg he, List.append_nil] at hpre
        rw [decode_encode_none hpre] at hd
        cases hd
    · rw [List.drop_eq_nil_of_le (by omega),
        @decode_encode_none [] _ List.nil_prefix] at hd
      cases hd
  · obtain ⟨-, hout, -⟩ := h.out_of_server hp hs
    obtain ⟨t, ht⟩ := h.head_of_server hp hs hhead
    rw [hout, List.drop_left, ht, decode_encode_of_head x.chunks (by decide) (by decide)] at hd
    cases hd

/-- A whole chunked response. -/
theorem Sound.decode_of_complete (h : Sound srv x) (hc : Complete x)
    (hp : x.path = some .chunked) (he : x.ended = some .exitOk) (hf : x.failed = false) :
    decode (x.out.drop x.headBytes.length) = some (x.chunks.flatten, []) := by
  have hs : x.serverBytes = [] := by
    by_contra hs
    exact (h.out_of_server hp hs).1 he
  rw [out_eq h.ordered, hs, List.append_nil, hc hp he hf, List.drop_left]
  have := decode_encode x.chunks []
  rwa [List.append_nil] at this

end Exchange

namespace AsyncConnection

variable (srv : Server)

/-- A chunked response that is over is complete. -/
theorem complete_of_over {s : AsyncConnection} (h : Reachable srv s) {x : Exchange}
    (hx : x ∈ exchanges s.world.trace)
    (hover : x ∈ past s.world.trace ∨ s.world.outstanding = []) : Complete x := by
  have hinv := inv_reachable srv h
  by_cases hpast : x ∈ past s.world.trace
  · exact (hinv.1.past x hpast).complete
  · have hout := hover.resolve_left hpast
    rw [(mem_exchanges.mp hx).resolve_left hpast]
    rcases hinv.2 with ⟨-, hov⟩ | ⟨a, ha, -⟩
    · exact hov.complete
    · rw [hout] at ha
      cases ha

/-- **Chunked round trip with visible truncation.**  A chunked response whose status
the handler has set begins with the one header section built for it.  What follows
decodes to a complete message only if the streamer has ended well and no write has
failed, and then to the concatenated chunks of the streamer with nothing left over; and
once the exchange is over it decodes so if these two hold.  A header section is assumed
to begin with the `H` of the protocol's name. -/
theorem chunked_round_trip {s : AsyncConnection} (h : Reachable srv s)
    (hhead : ∀ r, (srv.spine.headerSection r).head? = some 'H') {x : Exchange}
    (hx : x ∈ exchanges s.world.trace) (hp : x.path = some .chunked)
    (hset : ∀ h, x.handled = some h → h.status ≠ none) :
    ∃ r head rest, x.heads = (.handler, r, head) :: rest ∧ (∀ p ∈ rest, p.1 ≠ .handler) ∧
      (x.out <+: head ∨ head <+: x.out) ∧
      (∀ content left, decode (x.out.drop head.length) = some (content, left) →
        x.streamEnd = some .exitOk ∧ x.failed = false ∧ content = x.streamed.flatten ∧
          left = []) ∧
      (x ∈ past s.world.trace ∨ s.world.outstanding = [] →
        x.streamEnd = some .exitOk → x.failed = false →
        decode (x.out.drop head.length) = some (x.streamed.flatten, [])) := by
  have hinv := inv_reachable srv h
  have hsound := sound_exchanges srv hinv hx
  -- with a status set nothing has taken the place of the stream
  have hgenuine : x.Genuine := by
    refine (genuine_exchange srv h hx).resolve_right fun hrep => ?_
    obtain ⟨-, r, hr, hstatus⟩ := hrep.unset
    exact hset r hr hstatus
  obtain ⟨r, head, rest, hheads⟩ := hsound.headed (by rw [hp]; simp) (by rw [hp]; simp)
  have hhb := headBytes_of_cons hheads
  rw [hgenuine.streamed, hgenuine.streamEnd]
  refine ⟨r, head, rest, hheads, ?_, ?_, ?_, ?_⟩
  · have := hsound.one_head
    rw [hheads] at this
    exact this
  · rw [← hhb]
    by_cases hs : x.serverBytes = []
    · rw [out_eq hsound.ordered, hs, List.append_nil]
      exact List.prefix_or_prefix_of_prefix (hsound.chunked hp) (List.prefix_append _ _)
    · -- a page behind the chunks is behind the header section all the more
      rw [(hsound.out_of_server hp hs).2.1]
      exact Or.inr (List.prefix_append _ _)
  · intro content left hd
    rw [← hhb] at hd
    exact hsound.complete_of_decode hp hhead hd
  · intro hover he hf
    rw [← hhb]
    exact hsound.decode_of_complete (complete_of_over srv h hx hover) hp he hf

/-- A chunk and the end of the stream; the first write sends a part of the header
section. -/
def chunkedRun : List Event :=
  [.receive 0 "GET /x HTTP/1.1\r\nHost: h\r\n\r\n".toList, .runRead 0 MinimalSpine.answers,
    .runTask 0 { MinimalSpine.answers with
      handler := .returned true
        { status := some 200, content := .stream 0, chunked := true, version := "1.1".toList } false
      content := some "hello".toList },
    .writeSome 0 10 MinimalSpine.answers, .writeSome 0 96 MinimalSpine.answers,
    .runTask 0 { MinimalSpine.answers with streamingStatus := .exitOk },
    .writeSome 0 5 MinimalSpine.answers]

theorem chunked_round_trip_hello :
    ∃ s x head, runFrom MinimalSpine.server (start MinimalSpine.server) chunkedRun = some s ∧
      past s.world.trace = [x] ∧
      decode (x.out.drop head) = some ("hello".toList, []) := by
  obtain ⟨s, hs, hp⟩ := MinimalSpine.reached chunkedRun
    (fun s => (past s.world.trace).length == 1 && (past s.world.trace).all fun x =>
      x.path == some .chunked && x.streamEnd == some .exitOk && !x.failed &&
        x.streamed == ["hello".toList] &&
        x.handled.any fun (r : Response) => r.status == some 200) (by decide +kernel)
  obtain ⟨hone, hall⟩ := (Bool.and_eq_true _ _).mp hp
  obtain ⟨x, hx⟩ := List.length_eq_one_iff.mp (beq_iff_eq.mp hone)
  have hmem : x ∈ past s.world.trace := by
    rw [hx]
    exact List.mem_singleton.mpr rfl
  have hp := List.all_eq_true.mp hall x hmem
  simp only [Bool.and_eq_true, Bool.not_eq_true', beq_iff_eq, Option.any_eq_true] at hp
  obtain ⟨⟨⟨⟨hpath, hended⟩, hfailed⟩, hchunks⟩, q, hq, hstatus⟩ := hp
  obtain ⟨r, head, rest, -, -, -, -, hdecode⟩ := chunked_round_trip MinimalSpine.server
    ⟨_, hs⟩ MinimalSpine.headerSection_head (mem_exchanges.mpr (Or.inl hmem)) hpath
    fun h hh => by
      rw [hq] at hh
      obtain rfl := Option.some.inj hh
      rw [hstatus]
      simp
  refine ⟨s, x, head.length, hs, hx, ?_⟩
  rw [hdecode (Or.inl hmem) hended hfailed, hchunks]
  rfl

/-- The handler has left the status of a chunked stream unset, and all is written. -/
def statuslessRun : List Event :=
  [.receive 0 "GET /x HTTP/1.1\r\nHost: h\r\n\r\n".toList, .runRead 0 MinimalSpine.answers,
    .runTask 0 { MinimalSpine.answers with
      handler := .returned true
        { content := .stream 0, chunked := true, version := "1.1".toList } false
      content := some "hello".toList },
    .writeSome 0 101 MinimalSpine.answers]

/-- **The page of 501 ends for its streamer**: the client reads a complete message, and
the streamer was not asked once. -/
theorem chunked_replaced :
    ∃ s x r head rest, Reachable MinimalSpine.server s ∧ x ∈ exchanges s.world.trace ∧
      x.path = some .chunked ∧ x.heads = (.handler, r, head) :: rest ∧
      decode (x.out.drop head.length) = some ([], []) ∧ x.streamEnd = none ∧
      x.streamed = [] := by
  obtain ⟨s, hs, hp⟩ := MinimalSpine.reached statuslessRun
    (fun s => (past s.world.trace).any fun x => x.path == some .chunked &&
      x.streamEnd == none && x.streamed == [] && x.heads.length == 1 && x.heads.all fun p =>
        p.1 == .handler && x.out.drop p.2.2.length == lastChunk)
    (by decide +kernel)
  simp only [List.any_eq_true, List.all_eq_true, Bool.and_eq_true, beq_iff_eq] at hp
  obtain ⟨x, hx, ⟨⟨⟨hpath, hend⟩, hstreamed⟩, hone⟩, hall⟩ := hp
  obtain ⟨⟨m, r, head⟩, hheads⟩ := List.length_eq_one_iff.mp hone
  obtain ⟨rfl, hbody⟩ := hall (m, r, head) (by rw [hheads]; exact List.mem_singleton.mpr rfl)
  have hdecode : decode (x.out.drop head.length) = some ([], []) := by
    rw [hbody]
    exact decode_encode [] []
  exact ⟨s, x, r, head, [], ⟨_, hs⟩, mem_exchanges.mpr (Or.inl hx), hpath, hheads, hdecode, hend,
    hstreamed⟩

end AsyncConnection

end SmartMet
