/-
# The version a reply speaks

A reply has the version that was negotiated for its request, and only a stream that its
handler has marked chunked is sent in chunks.  Such a response keeps the version the
library has given it; to an HTTP/1.0 request it is the last one of its connection.
-/
import SmartMetServer.Bodies
import SmartMetServer.OwnBodies
import SmartMetServer.Terms

namespace SmartMet

open Exchange

namespace AsyncConnection

variable (srv : Server)

/-- The response behind a header section is marked chunked. -/
def Marked (old : List Obs) (m : Message) (r : Response) : Prop :=
  (m ≠ .handler ∧ r.chunked = true) ∨
    (m = .handler ∧ ∃ h, (current old).handled = some h ∧ h.chunked = true)

/-- A header section speaks the version of the request it answers. -/
structure Speaks (old : List Obs) (m : Message) (r : Response) : Prop where
  version : ∀ q ∈ (current old).requests, Marked old m r ∨
    r.version = (negotiateVersion srv.spine q.version).text ∨
    m = .stock .requestTimeout ∧ r.version = HttpVersion.v1_0.text ∧
      (current old).peerUnknown = true
  closing : ∀ q ∈ (current old).requests, Marked old m r →
    negotiateVersion srv.spine q.version = .v1_0 →
    r.getHeader "Connection".toList = some "close".toList
  coding : r.getHeader "Transfer-Encoding".toList ≠ none → Coded srv (current old)

variable {srv}

theorem Origin.coding {old : List Obs} {m : Message} {r : Response} (h : Origin srv old m r)
    (hc : r.getHeader "Transfer-Encoding".toList ≠ none) : Coded srv (current old) := by
  obtain ⟨s, a, hs, ⟨-, rfl⟩ | ⟨-, path, hh, hp, -, hroute, rfl⟩⟩ := h
  · refine hs.coding ?_
    rw [← (sameBody_setServerHeaders srv a s).field _ transferEncoding_not_mem]
    exact hc
  · by_cases hchunked : path = .chunked
    · subst hchunked
      exact Or.inl ⟨hp, _, hh, chunked_of_replyPath hroute.symm⟩
    · refine hs.coding ?_
      rw [← (sameBody_setServerHeaders srv a s).field _ transferEncoding_not_mem]
      exact coding_sentResponse hchunked _ hc

variable (srv)

end AsyncConnection

end SmartMet
