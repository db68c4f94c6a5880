/-
# Reading a stream of responses (RFC 9112 6.3)

A client reads the responses on a connection one after the other: a header section,
then the body whose extent the section announces.  Interim responses are skipped,
and the client knows which of its requests asked for a header section alone.

* `takeBody_append` : what follows a body does not change it;
* `readFinal_bytes` : a response is found behind its interim responses;
* `readAll_bytes` : the responses of a stream are read back, and what follows them
  is left over.
-/
import SmartMetServer.ChunkedCoding

namespace ResponseReader

open ChunkedCoding

/-- How the end of a body is found. -/
inductive Extent where
  | empty
  | length (n : ℕ)
  | chunked
  deriving DecidableEq, Repr

/-- The content of the body at the front of a stream, and what follows it. -/
def takeBody : Extent → List Char → Option (List Char × List Char)
  | .empty, s => some ([], s)
  | .length n, s => if n ≤ s.length then some (s.take n, s.drop n) else none
  | .chunked, s => decode s

theorem takeBody_append {e : Extent} {s c r : List Char} (h : takeBody e s = some (c, r))
    (t : List Char) : takeBody e (s ++ t) = some (c, r ++ t) := by
  cases e with
  | empty =>
    obtain ⟨rfl, rfl⟩ := Prod.mk.inj (Option.some.inj h)
    rfl
  | length n =>
    simp only [takeBody] at h ⊢
    split at h
    · rename_i hn
      obtain ⟨rfl, rfl⟩ := Prod.mk.inj (Option.some.inj h)
      have hle : n ≤ (s ++ t).length := by
        rw [List.length_append]
        omega
      rw [if_pos hle, List.take_append_of_le_length hn, List.drop_append_of_le_length hn]
    · cases h
  | chunked => exact decode_append h t

/-- A client: how it finds a header section, which responses are interim ones, and
what a section announces to a request, which may have asked for the section alone. -/
structure Client (H : Type*) where
  readHead : List Char → Option (H × List Char)
  interim : H → Bool
  extent : Bool → H → Option Extent

namespace Client

variable {H : Type*} (k : Client H)

/-- The final response at the front of a stream, behind fewer than `fuel` interim
responses, and what follows it. -/
def readFinal (asked : Bool) : ℕ → List Char → Option ((H × List Char) × List Char)
  | 0, _ => none
  | fuel + 1, s =>
    match k.readHead s with
    | none => none
    | some (h, t) =>
      if k.interim h then readFinal asked fuel t
      else
        match k.extent asked h with
        | none => none
        | some e => (takeBody e t).map fun p => ((h, p.1), p.2)

/-- The responses to a list of requests, and what follows them. -/
def readAll : List Bool → List Char → Option (List (H × List Char) × List Char)
  | [], s => some ([], s)
  | asked :: rest, s =>
    match k.readFinal asked (s.length + 1) s with
    | none => none
    | some (m, t) => (readAll rest t).map fun p => (m :: p.1, p.2)

end Client

/-! ## Responses as they are sent -/

/-- A response on the wire, the request it answers, and what it is read as. -/
structure OnWire (H : Type*) where
  asked : Bool
  interims : List (List Char)
  head : List Char
  body : List Char
  value : H × List Char

namespace OnWire

variable {H : Type*}

/-- What is sent: the interim responses, the header section and the body. -/
def bytes (m : OnWire H) : List Char := m.interims.flatten ++ (m.head ++ m.body)

/-- The client can read the parts of the response. -/
structure Readable (k : Client H) (m : OnWire H) : Prop where
  interims : ∀ i ∈ m.interims, i ≠ [] ∧
    ∃ h, k.interim h = true ∧ ∀ t, k.readHead (i ++ t) = some (h, t)
  head : ∀ t, k.readHead (m.head ++ t) = some (m.value.1, t)
  final : k.interim m.value.1 = false
  body : ∃ e, k.extent m.asked m.value.1 = some e ∧ takeBody e m.body = some (m.value.2, [])

variable {k : Client H} {m : OnWire H}

/-- **One response** is found behind its interim responses. -/
theorem Readable.readFinal_bytes (h : m.Readable k) (t : List Char) (n : ℕ) :
    k.readFinal m.asked (m.interims.length + 1 + n) (m.bytes ++ t) = some (m.value, t) := by
  obtain ⟨e, he, hbody⟩ := h.body
  have hfinal : k.readFinal m.asked (n + 1) (m.head ++ m.body ++ t) = some (m.value, t) := by
    simp only [Client.readFinal]
    rw [List.append_assoc, h.head]
    dsimp only
    rw [h.final, if_neg (by simp), he]
    dsimp only
    rw [takeBody_append hbody]
    rfl
  have hskip : ∀ is : List (List Char),
      (∀ i ∈ is, ∃ h, k.interim h = true ∧ ∀ t, k.readHead (i ++ t) = some (h, t)) →
      k.readFinal m.asked (is.length + (n + 1)) (is.flatten ++ (m.head ++ m.body ++ t)) =
        some (m.value, t) := by
    intro is
    induction is with
    | nil =>
      intro _
      rw [List.length_nil, Nat.zero_add]
      exact hfinal
    | cons i is ih =>
      intro his
      obtain ⟨⟨hi, hint, hread⟩, his⟩ := List.forall_mem_cons.mp his
      rw [List.length_cons, Nat.succ_add, List.flatten_cons, List.append_assoc]
      simp only [Client.readFinal]
      rw [hread]
      dsimp only
      rw [hint, if_pos rfl]
      exact ih his
  have hall := hskip m.interims fun i hi => (h.interims i hi).2
  unfold bytes
  rw [List.append_assoc, show m.interims.length + 1 + n = m.interims.length + (n + 1) by omega]
  exact hall

theorem Readable.length_interims_le (h : m.Readable k) : m.interims.length ≤ m.bytes.length := by
  have hone : ∀ is : List (List Char), (∀ i ∈ is, i ≠ []) → is.length ≤ is.flatten.length := by
    intro is
    induction is with
    | nil => exact fun _ => Nat.le_refl 0
    | cons i is ih =>
      intro his
      obtain ⟨hi, his⟩ := List.forall_mem_cons.mp his
      have hpos := List.length_pos_iff.mpr hi
      have hle := ih his
      rw [List.flatten_cons, List.length_append, List.length_cons]
      omega
  have hle := hone m.interims fun i hi => (h.interims i hi).1
  unfold bytes
  rw [List.length_append]
  omega

/-- **A stream of responses** is read back. -/
theorem readAll_bytes {ms : List (OnWire H)} (h : ∀ m ∈ ms, m.Readable k) (t : List Char) :
    k.readAll (ms.map asked) (ms.flatMap bytes ++ t) = some (ms.map value, t) := by
  induction ms with
  | nil => rfl
  | cons m ms ih =>
    obtain ⟨hm, hms⟩ := List.forall_mem_cons.mp h
    have hle := hm.length_interims_le
    rw [List.map_cons, List.map_cons, List.flatMap_cons, List.append_assoc]
    simp only [Client.readAll]
    let n := (m.bytes ++ (ms.flatMap bytes ++ t)).length - m.interims.length
    have hfuel : (m.bytes ++ (ms.flatMap bytes ++ t)).length + 1 = m.interims.length + 1 + n := by
      have hlen : m.interims.length ≤ (m.bytes ++ (ms.flatMap bytes ++ t)).length := by
        rw [List.length_append]
        omega
      omega
    rw [hfuel, hm.readFinal_bytes]
    dsimp only
    rw [ih hms]
    rfl

end OnWire

end ResponseReader
