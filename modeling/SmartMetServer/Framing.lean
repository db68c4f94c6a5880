/-
# Reuse implies exact framing

A connection is re-armed only behind a response that the client can tell the end
of: the announced bytes, or a terminated chunked body.
-/
import SmartMetServer.MinimalSpine
import SmartMetServer.Transcript

namespace SmartMet

open Exchange

namespace Exchange

/-- The exchanges the framing is promised for: no write failed, the request was
no HEAD, the status was set and permits content, and the handler has put no
transfer coding on a response that is sent without one. -/
structure Framable (x : Exchange) (m : Message) (r : Response) : Prop where
  failed : x.failed = false
  method : ∀ q ∈ x.requests, q.method ≠ .head
  content : statusHasNoBody r.status = false
  status : m = .handler → ∀ h, x.handled = some h → h.status.isSome
  plain : x.path ≠ some .chunked → ∀ h, x.handled = some h →
    h.getHeader "Transfer-Encoding".toList = none

/-- Only a reply without content can be the one to `OPTIONS *`. -/
theorem Framable.proper {srv : Server} {x : Exchange} {m : Message} {r : Response}
    (h : Framable x m r)
    (hoptions : statusHasNoBody srv.spine.stockOptionsResponse.status = true)
    (hm : m = .options → r.status = srv.spine.stockOptionsResponse.status) : Proper x m r := by
  refine ⟨h.failed, h.method, ?_, h.content, h.status, h.plain⟩
  intro he
  have := h.content
  rw [hm he, hoptions] at this
  cases this

end Exchange

namespace AsyncConnection

variable (srv : Server)

/-- **Reuse implies exact framing.**  If the connection was re-armed behind an
exchange, its response is one header section and the body the section frames;
the response is none of a gateway, a stream has given exactly the announced
number of bytes, and a chunked stream has ended well.  The reply to `OPTIONS *`
is assumed to be one without content. -/
theorem reuse_framed {s : AsyncConnection} (h : Reachable srv s)
    (hoptions : statusHasNoBody srv.spine.stockOptionsResponse.status = true) {x : Exchange}
    (hx : x ∈ past s.world.trace) :
    (∃ m r head, x.heads = [(m, r, head)] ∧
      (Framable x m r → head = srv.spine.headerSection r ∧
        ∃ body, x.out = head ++ body ∧ r.Frames body)) ∧
    x.path ≠ some .gateway ∧
    (x.path = some .stream → ∃ r head, x.heads = [(.handler, r, head)] ∧
      r.getHeader "Content-Length".toList = some (toDecimal x.chunks.flatten.length)) ∧
    (x.path = some .chunked → x.ended = some .exitOk) := by
  -- an exchange that was re-armed behind is complete: that is part of the invariant
  have hdone := (inv_reachable srv h).1.past x hx
  obtain ⟨m, r, head, hheads, hm, hproper⟩ := hdone.framed
  refine ⟨⟨m, r, head, hheads, ?_⟩, hdone.path, hdone.exact, hdone.ended⟩
  exact fun hf => hproper (hf.proper hoptions hm)

/-- A buffered response of a handler, written in two parts, on a connection that
goes on. -/
def bufferedRun : List Event :=
  [.receive 0 "GET /x HTTP/1.1\r\nHost: h\r\n\r\n".toList, .runRead 0 MinimalSpine.answers,
    .runTask 0 { MinimalSpine.answers with
      handler := .returned true { status := some 200, content := .buffer "hello".toList } false },
    .writeSome 0 10 MinimalSpine.answers, .writeSome 0 82 MinimalSpine.answers]

theorem reuse_framed_buffered :
    ∃ s x m r head, runFrom MinimalSpine.server (start MinimalSpine.server) bufferedRun = some s ∧
      past s.world.trace = [x] ∧ x.heads = [(m, r, head)] ∧
      ∃ body, x.out = head ++ body ∧ r.Frames body := by
  obtain ⟨s, hs, hp⟩ := MinimalSpine.reached bufferedRun
    (fun s => (past s.world.trace).length == 1 && (past s.world.trace).all fun x =>
      !x.failed && x.requests.all (·.method != .head) &&
        x.heads.all (fun p => !statusHasNoBody p.2.1.status) &&
        x.handled.all fun h => h.status.isSome && (h.getHeader "Transfer-Encoding".toList).isNone)
    (by decide +kernel)
  obtain ⟨hone, hall⟩ := (Bool.and_eq_true _ _).mp hp
  obtain ⟨x, hx⟩ := List.length_eq_one_iff.mp (beq_iff_eq.mp hone)
  have hmem : x ∈ past s.world.trace := by
    rw [hx]
    exact List.mem_singleton.mpr rfl
  have hp := List.all_eq_true.mp hall x hmem
  simp only [Bool.and_eq_true, Bool.not_eq_true', List.all_eq_true, bne_iff_ne,
    Option.all_eq_true, Option.isNone_iff_eq_none] at hp
  obtain ⟨⟨⟨hfailed, hmethod⟩, hcontent⟩, hhandled⟩ := hp
  obtain ⟨⟨m, r, head, hheads, hframed⟩, -⟩ := reuse_framed MinimalSpine.server ⟨_, hs⟩
    (by decide) hmem
  refine ⟨s, x, m, r, head, hs, hx, hheads, (hframed ⟨hfailed, hmethod, ?_, ?_, ?_⟩).2⟩
  · exact hcontent (m, r, head) (by rw [hheads]; exact List.mem_singleton.mpr rfl)
  · exact fun _ h hh => (hhandled h hh).1
  · exact fun _ h hh => (hhandled h hh).2

end AsyncConnection

end SmartMet
