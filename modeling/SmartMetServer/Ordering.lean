/-
# One activity, and what follows for the order of the bytes

A connection hands a single token on from handler to handler: at most one read,
posted call, pool task or write is outstanding.  So the exchanges follow each
other on the wire in the order of their requests, and inside an exchange every
message is in one piece.
-/
import SmartMetServer.MinimalSpine
import SmartMetServer.Transcript

namespace SmartMet

open Exchange

/-- What stands on the wire between two pieces of a message belongs to it. -/
def InOnePiece (wire : List (Message × Bytes)) : Prop :=
  ∀ (before between after : List (Message × Bytes)) (p q : Message × Bytes),
    wire = before ++ p :: between ++ q :: after → p.1 = q.1 → ∀ o ∈ between, o.1 = p.1

/-- Messages that follow each other in order are in one piece each. -/
theorem Ordered.inOnePiece {wire : List (Message × Bytes)} (h : Ordered wire) :
    InOnePiece wire := by
  rintro before between after p q rfl hpq o ho
  have hpair := (List.pairwise_append.mp h)
  obtain ⟨hfront, -, hcross⟩ := hpair
  obtain ⟨-, hpo, -⟩ := List.pairwise_append.mp hfront
  have h1 : p.1.rank < o.1.rank ∨ p.1 = o.1 := (List.pairwise_cons.mp hpo).1 o ho
  have h2 : o.1.rank < q.1.rank ∨ o.1 = q.1 :=
    hcross o (List.mem_append_right _ (List.mem_cons_of_mem _ ho)) q List.mem_cons_self
  rcases h1 with h1 | h1
  · rcases h2 with h2 | h2
    · rw [hpq] at h1
      omega
    · rw [h2, hpq]
  · exact h1.symm

namespace AsyncConnection

variable (srv : Server)

/-- At most one activity is outstanding. -/
theorem Inv.outstanding_length {s : AsyncConnection} (h : Inv srv s) :
    s.world.outstanding.length ≤ 1 := by
  rcases h.2 with ⟨ho, -⟩ | ⟨a, ho, -⟩
  · rw [ho]
    exact Nat.zero_le 1
  · rw [ho]
    exact Nat.le_refl 1

/-- **One activity per connection.**  In every reachable state at most one
activity is outstanding besides the timer's waits; the wire is that of the
exchanges one after the other, in the order in which their requests were parsed,
and in every exchange each response stands in one piece. -/
theorem one_activity {s : AsyncConnection} (h : Reachable srv s) :
    s.world.outstanding.length ≤ 1 ∧
      wireOf s.world.trace = (exchanges s.world.trace).flatMap Exchange.wire ∧
      parsedOf s.world.trace = (exchanges s.world.trace).flatMap Exchange.requests ∧
      (∀ x ∈ past s.world.trace, x.requests.length = 1) ∧
      ∀ x ∈ exchanges s.world.trace, x.requests.length ≤ 1 ∧ InOnePiece x.wire := by
  have hinv := inv_reachable srv h
  refine ⟨hinv.outstanding_length srv, (flatMap_wire _).symm, (flatMap_requests _).symm, ?_, ?_⟩
  · exact fun x hx => (hinv.1.past x hx).request
  · intro x hx
    have hs := sound_exchanges srv hinv hx
    exact ⟨hs.one_request, hs.ordered.inOnePiece⟩

/-- Two requests in one read: the second is read by a posted call. -/
def pipelinedRun : List Event :=
  [.receive 0 "GET /a HTTP/1.1\r\nHost: h\r\n\r\nGET /x HTTP/1.1\r\nHost: h\r\n\r\n".toList,
    .runRead 0 MinimalSpine.answers, .runRead 0 MinimalSpine.answers]

theorem one_activity_pipelined :
    ∃ s, runFrom MinimalSpine.server (start MinimalSpine.server) pipelinedRun = some s ∧
      (parsedOf s.world.trace).length = 2 ∧ s.world.outstanding.length ≤ 1 := by
  obtain ⟨s, hs, hp⟩ := MinimalSpine.reached pipelinedRun
    (fun s => (parsedOf s.world.trace).length == 2) (by decide +kernel)
  exact ⟨s, hs, by simpa using hp, (one_activity MinimalSpine.server ⟨_, hs⟩).1⟩

end AsyncConnection

end SmartMet
