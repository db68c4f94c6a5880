/-
# What a handler sees of a request

The request a handler is called with is the one that was parsed, without the
fields that concern the connection of the client, and never a HEAD.
-/
import SmartMetServer.MinimalSpine
import SmartMetServer.Origins

namespace SmartMet

namespace AsyncConnection

/-- The method of a HEAD is hidden from the handler. -/
theorem HandsOn.method_ne {q r : Request} (h : HandsOn q r) : r.method ≠ .head := by
  rw [h.method]
  split
  · simp
  · assumption

/-- **What a handler sees of a request.**  The request a handler is called with is the
only request of its exchange, without the hop-by-hop fields and without the fields the
client's `Connection` list names, the server's own field apart; that field is there
exactly when the method was HEAD, and everything else is as it was received. -/
theorem request_of_handler {srv : Server} {s : AsyncConnection} (h : Reachable srv s)
    {x : Exchange} (hx : x ∈ exchanges s.world.trace) {r : Request} (hr : r ∈ x.dispatched) :
    ∃ q, x.requests = [q] ∧ HandsOn q r ∧ r.method ≠ .head := by
  obtain ⟨-, ht⟩ := traced_reachable srv h
  rcases (ht.answered x hx).dispatched with hd | ⟨q, ip, hq, hd⟩
  · rw [hd] at hr
    cases hr
  · rw [hd] at hr
    obtain rfl := List.mem_singleton.mp hr
    have hon := handsOn_handedOn q ip
    exact ⟨q, hq, hon, hon.method_ne⟩

/-- A HEAD whose `Connection` field names the server's own field, and its handler. -/
def listedRun : List Event :=
  [.receive 0 ("HEAD /x HTTP/1.1\r\nHost: h\r\n" ++
      "Connection: , x-tag,X-SmartMet-Original-Method\r\nX-Tag: 1\r\n\r\n").toList,
    .runRead 0 MinimalSpine.answers,
    .runTask 0 { MinimalSpine.answers with handler := .threw }]

theorem request_of_handler_listed :
    ∃ s, runFrom MinimalSpine.server (start MinimalSpine.server) listedRun = some s ∧
      ∃ q r, s.exchange.requests = [q] ∧ s.exchange.dispatched = [r] ∧ HandsOn q r ∧
        r.method ≠ .head := by
  obtain ⟨s, hs, hp⟩ := MinimalSpine.reached listedRun
    (fun s => s.exchange.dispatched.length == 1) (by decide +kernel)
  obtain ⟨r, hr⟩ := List.length_eq_one_iff.mp (by simpa using hp : s.exchange.dispatched.length = 1)
  obtain ⟨q, hq, hon, hm⟩ := request_of_handler (x := s.exchange) ⟨_, hs⟩
    (mem_exchanges.mpr (Or.inr rfl)) (by rw [hr]; exact List.mem_singleton.mpr rfl)
  exact ⟨s, hs, q, r, hq, hr, hon, hm⟩

/-- The field the server names a HEAD in is handed on though the client's list names
it. -/
theorem listed_field_handed_on :
    ∃ s, runFrom MinimalSpine.server (start MinimalSpine.server) listedRun = some s ∧
      ∃ q r name, s.exchange.requests = [q] ∧ s.exchange.dispatched = [r] ∧
        name ∈ listedFields q.headers ∧ r.headers.get name = some "HEAD".toList := by
  obtain ⟨s, hs, hp⟩ := MinimalSpine.reached listedRun
    (fun s => s.exchange.requests.length == 1 && s.exchange.dispatched.length == 1 &&
      s.exchange.requests.all (fun q => (listedFields q.headers).contains originalMethod) &&
      s.exchange.dispatched.all fun r => r.headers.get originalMethod == some "HEAD".toList)
    (by decide +kernel)
  simp only [Bool.and_eq_true, beq_iff_eq, List.all_eq_true] at hp
  obtain ⟨⟨⟨hq, hr⟩, hlisted⟩, hfield⟩ := hp
  obtain ⟨q, hq⟩ := List.length_eq_one_iff.mp hq
  obtain ⟨r, hr⟩ := List.length_eq_one_iff.mp hr
  refine ⟨s, hs, q, r, originalMethod, hq, hr, ?_, ?_⟩
  · exact List.contains_iff_mem.mp (hlisted q (by rw [hq]; exact List.mem_singleton.mpr rfl))
  · exact hfield r (by rw [hr]; exact List.mem_singleton.mpr rfl)

end AsyncConnection

end SmartMet
