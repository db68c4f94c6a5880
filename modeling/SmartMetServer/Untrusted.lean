/-
# Requests that could not be read

The server answers a request it cannot read, or will not read, itself.  Such a
reply announces the end of the connection, the socket is closed behind it, and
the rest of the client's stream is neither given to a handler nor answered.

What carries this is `Reading.keepAlive`: while a request is read the connection
is not persistent, whatever the requests before it have negotiated.
-/
import SmartMetServer.MinimalSpine
import SmartMetServer.Transcript

namespace SmartMet

open Exchange

namespace AsyncConnection

variable (srv : Server)

/-- Once the server has refused to read on, the socket is closed. -/
theorem Inv.closed_of_rejecting {s : AsyncConnection} (h : Inv srv s)
    (hr : Rejecting srv s.exchange) : s.world.socket = .closed := by
  have hwaiting : Waiting srv s.bare → s.world.socket = .closed := by
    intro hw
    by_contra hopen
    exact (hw.live hopen).not_rejecting srv hr
  have hnone : s.exchange.dispatched ≠ [] → s.world.socket = .closed := fun hd =>
    absurd hr.1 hd
  obtain ⟨-, ⟨-, hov⟩ | ⟨x, -, hp⟩⟩ := h
  · rcases hov.quiet with hq | ⟨-, hd⟩
    · exact hwaiting hq
    · exact hnone hd
  · rcases x with _ | _ | bytes | ⟨pool, _ | _ | _⟩ | ⟨_ | _ | _ | _, buffer⟩
    · exact hwaiting (show Reading srv s.bare from hp).toWaiting
    · exact hwaiting (show Reading srv s.bare from hp).toWaiting
    · exact hwaiting (show Reading srv s.bare from hp).toWaiting
    · exact hwaiting (show Queued srv s.bare from hp).toWaiting
    · exact hnone hp.1.dispatched
    · exact hnone hp.1.dispatched
    · exact hnone hp.1.dispatched
    · exact hnone hp.1.dispatched
    · exact hnone hp.1.dispatched
    · exact hnone hp.1.dispatched

/-- **Untrusted framing ends the connection.**  A reply with one of the statuses
`untrusted` to a request no handler was called for announces the end of the
connection; it belongs to the last exchange, the socket is closed, and in no run
from there is another handler called or another byte sent. -/
theorem untrusted_ends_connection {s : AsyncConnection} (h : Reachable srv s) {x : Exchange}
    (hx : x ∈ exchanges s.world.trace) (hd : x.dispatched = []) {st : Status}
    (hst : st ∈ untrusted srv) {r : Response} {head : Bytes}
    (hp : (.stock st, r, head) ∈ x.heads) :
    r.getHeader "Connection".toList = some "close".toList ∧
      head = srv.spine.headerSection r ∧
      x ∉ past s.world.trace ∧ s.world.socket = .closed ∧
      ∀ es s', runFrom srv s es = some s' → s'.world.socket = .closed ∧
        dispatchedOf s'.world.trace = dispatchedOf s.world.trace ∧
        wireOf s'.world.trace = wireOf s.world.trace := by
  have hinv := inv_reachable srv h
  have hrej : Rejecting srv x := ⟨hd, st, hst, _, hp, rfl⟩
  -- a rejected request is in no exchange that was re-armed behind
  have hpast : x ∉ past s.world.trace := fun hmem => (hinv.1.past x hmem).accepted hrej
  have hcur : x = current s.world.trace := (mem_exchanges.mp hx).resolve_left hpast
  have hclosed : s.world.socket = .closed := by
    rw [hcur] at hrej
    exact hinv.closed_of_rejecting srv hrej
  refine ⟨(sound_exchanges srv hinv hx).closing hd st hst _ hp rfl,
    head_eq srv h hx hp, hpast, hclosed, ?_⟩
  intro es s' hrun
  obtain ⟨hs', new, hnew, hquiet⟩ := quiet_run srv hclosed hrun
  refine ⟨hs', ?_, ?_⟩
  · have := dispatchedOf_eq_nil hquiet
    unfold dispatchedOf at this ⊢
    rw [hnew, flatMap_reverse_append, this, List.append_nil]
  · have := wireOf_eq_nil hquiet
    unfold wireOf at this ⊢
    rw [hnew, flatMap_reverse_append, this, List.append_nil]

/-- A request without a `Host` field. -/
def missingHostRun : List Event :=
  [.receive 0 "GET /a HTTP/1.1\r\n\r\nGET /x HTTP/1.1\r\nHost: h\r\n\r\n".toList,
    .runRead 0 MinimalSpine.answers]

theorem untrusted_missingHost :
    ∃ s, runFrom MinimalSpine.server (start MinimalSpine.server) missingHostRun = some s ∧
      (wireOf s.world.trace).length = 2 ∧ s.world.socket = .closed := by
  obtain ⟨s, hs, hp⟩ := MinimalSpine.reached missingHostRun
    (fun s => (wireOf s.world.trace).length == 2 &&
      s.exchange.dispatched.isEmpty && s.exchange.heads.map Prod.fst == [.stock .badRequest])
    (by decide +kernel)
  simp only [Bool.and_eq_true, beq_iff_eq, List.isEmpty_iff] at hp
  obtain ⟨⟨hw, hd⟩, hh⟩ := hp
  obtain ⟨⟨m, r, head⟩, hheads, rfl⟩ := List.map_eq_singleton_iff.mp hh
  have hx : s.exchange ∈ exchanges s.world.trace := mem_exchanges.mpr (Or.inr rfl)
  have hmem : (.stock .badRequest, r, head) ∈ s.exchange.heads := by
    rw [hheads]
    exact List.mem_singleton.mpr rfl
  exact ⟨s, hs, hw, (untrusted_ends_connection MinimalSpine.server ⟨_, hs⟩ hx hd
    (List.mem_cons_self) hmem).2.2.2.1⟩

end AsyncConnection

end SmartMet
