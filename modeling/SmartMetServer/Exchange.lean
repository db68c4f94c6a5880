/-
# Exchanges

What the synchronous writes leave in the trace, and the properties of one
exchange the later modules are about: the order of the messages on the wire, the
framing of a response, and the shapes of a streamed body.
-/
import SmartMetServer.Step

namespace SmartMet

open ChunkedCoding

/-! ## The trace -/

@[simp] theorem World.emit_trace (w : World) (o : Obs) : (w.emit o).trace = o :: w.trace := rfl

@[simp] theorem World.emit_socket (w : World) (o : Obs) : (w.emit o).socket = w.socket := rfl

@[simp] theorem World.emit_outstanding (w : World) (o : Obs) :
    (w.emit o).outstanding = w.outstanding := rfl

@[simp] theorem World.emit_waits (w : World) (o : Obs) : (w.emit o).waits = w.waits := rfl

@[simp] theorem World.emit_shutdownRequested (w : World) (o : Obs) :
    (w.emit o).shutdownRequested = w.shutdownRequested := rfl

/-- An event that does not re-arm the connection belongs to the exchange under
way. -/
theorem current_cons {o : Obs} (h : o ≠ .rearmed) (t : List Obs) :
    current (o :: t) = (current t).observe o := by
  cases o <;> first | rfl | exact absurd rfl h

/-- An event that re-arms nothing leaves the past. -/
theorem past_cons {o : Obs} (h : o ≠ .rearmed) (t : List Obs) : past (o :: t) = past t := by
  cases o <;> first | rfl | exact absurd rfl h

/-! ## Synchronous writes -/

/-- The three ways of a synchronous write. -/
theorem World.write_cases (w : World) (m : Message) (b : Bytes) (o : WriteOutcome) :
    (w.writeFails b o = false ∧ b = [] ∧ w.write m b o = w) ∨
    (w.writeFails b o = false ∧ w.socket = .open ∧ w.write m b o = w.emit (.wrote m b)) ∨
    (w.writeFails b o = true ∧ w.socket = .open ∧ ∃ n, w.write m b o =
      { (w.emit (.wrote m (b.dropLast.take n))).emit (.writeError m) with socket := .broken }) ∨
    (w.writeFails b o = true ∧ w.socket ≠ .open ∧ w.write m b o = w.emit (.writeError m)) := by
  by_cases hb : b = []
  · subst hb
    exact Or.inl ⟨rfl, rfl, rfl⟩
  · have hb' : b.isEmpty = false := by simpa using hb
    refine Or.inr ?_
    unfold World.write World.writeFails
    rw [hb']
    cases hs : w.socket with
    | «open» =>
      cases o with
      | done => exact Or.inl ⟨rfl, rfl, rfl⟩
      | failed n => exact Or.inr (Or.inl ⟨rfl, rfl, n, rfl⟩)
    | broken => exact Or.inr (Or.inr ⟨rfl, by simp, by cases o <;> rfl⟩)
    | closed => exact Or.inr (Or.inr ⟨rfl, by simp, by cases o <;> rfl⟩)

/-- What writes of `bytes` as the message `m` do to the world: some of the bytes
go out in order, all of them unless an error is recorded. -/
structure Delivers (m : Message) (bytes : Bytes) (w w' : World) : Prop where
  outstanding : w'.outstanding = w.outstanding
  waits : w'.waits = w.waits
  shutdownRequested : w'.shutdownRequested = w.shutdownRequested
  socket : w'.socket = w.socket ∨ w.socket = .open ∧ w'.socket = .broken
  trace : ∃ new, w'.trace = new ++ w.trace ∧
    ∀ o ∈ new, (∃ b, o = .wrote m b) ∨ o = .writeError m
  past : past w'.trace = past w.trace
  current : ∃ extra f, current w'.trace =
      { current w.trace with wire := (current w.trace).wire ++ extra, failed := f } ∧
    (∀ p ∈ extra, p.1 = m) ∧
    (extra.flatMap Prod.snd <+: bytes) ∧
    (f = false → extra.flatMap Prod.snd = bytes ∧ (current w.trace).failed = false) ∧
    (w.socket ≠ .open → extra = [])

/-- A single write delivers; a write that does not fail records no error. -/
theorem World.write_delivers (w : World) (m : Message) (b : Bytes) (o : WriteOutcome) :
    Delivers m b w (w.write m b o) := by
  rcases w.write_cases m b o with ⟨-, rfl, h⟩ | ⟨-, hs, h⟩ | ⟨-, hs, n, h⟩ | ⟨-, hs, h⟩
  · rw [h]
    exact ⟨rfl, rfl, rfl, Or.inl rfl, ⟨[], rfl, by simp⟩, rfl,
      [], (SmartMet.current w.trace).failed, by simp, by simp, by simp,
      fun hf => ⟨rfl, hf⟩, fun _ => rfl⟩
  · rw [h]
    refine ⟨rfl, rfl, rfl, Or.inl rfl, ⟨[.wrote m b], rfl, by simp⟩, rfl,
      [(m, b)], (SmartMet.current w.trace).failed, rfl, by simp, by simp, ?_, ?_⟩
    · exact fun hf => ⟨by simp, hf⟩
    · exact fun hc => absurd hs hc
  · rw [h]
    refine ⟨rfl, rfl, rfl, Or.inr ⟨hs, rfl⟩,
      ⟨[.writeError m, .wrote m (b.dropLast.take n)], rfl, by simp⟩, rfl,
      [(m, b.dropLast.take n)], true, rfl, by simp, ?_, by simp, ?_⟩
    · simpa using (List.take_prefix n _).trans (List.dropLast_prefix b)
    · exact fun hc => absurd hs hc
  · rw [h]
    exact ⟨rfl, rfl, rfl, Or.inl rfl, ⟨[.writeError m], rfl, by simp⟩, rfl,
      [], true, by simp [SmartMet.current, Exchange.observe], by simp, by simp, by simp,
      fun _ => rfl⟩

/-- A write fails when it records an error. -/
theorem World.failed_of_writeFails {w : World} {m : Message} {b : Bytes} {o : WriteOutcome}
    (h : w.writeFails b o = true) : (SmartMet.current (w.write m b o).trace).failed = true := by
  rcases w.write_cases m b o with ⟨h', -⟩ | ⟨h', -⟩ | ⟨-, -, n, e⟩ | ⟨-, -, e⟩
  · rw [h] at h'; cases h'
  · rw [h] at h'; cases h'
  · rw [e]; rfl
  · rw [e]; rfl

/-- A write that succeeds fails no exchange, and leaves the socket. -/
theorem World.failed_of_not_writeFails {w : World} {m : Message} {b : Bytes} {o : WriteOutcome}
    (h : w.writeFails b o = false) :
    (SmartMet.current (w.write m b o).trace).failed = (SmartMet.current w.trace).failed ∧
      (w.write m b o).socket = w.socket := by
  rcases w.write_cases m b o with ⟨-, -, e⟩ | ⟨-, -, e⟩ | ⟨h', -⟩ | ⟨h', -⟩
  · rw [e]; exact ⟨rfl, rfl⟩
  · rw [e]; exact ⟨rfl, rfl⟩
  · rw [h] at h'; cases h'
  · rw [h] at h'; cases h'

/-- Two writes of one message deliver a prefix of both: after the first has
failed the second sends nothing. -/
theorem World.write_write_delivers (w : World) (m : Message) (b c : Bytes)
    (o o' : WriteOutcome) : Delivers m (b ++ c) w ((w.write m b o).write m c o') := by
  have h1 := w.write_delivers m b o
  have h2 := (w.write m b o).write_delivers m c o'
  obtain ⟨x1, f1, e1, t1, p1, d1, s1⟩ := h1.current
  obtain ⟨x2, f2, e2, t2, p2, d2, s2⟩ := h2.current
  obtain ⟨n1, hn1, hn1'⟩ := h1.trace
  obtain ⟨n2, hn2, hn2'⟩ := h2.trace
  refine ⟨h2.outstanding.trans h1.outstanding, h2.waits.trans h1.waits,
    h2.shutdownRequested.trans h1.shutdownRequested, ?_, ?_, h2.past.trans h1.past, ?_⟩
  · rcases h1.socket with hs1 | ⟨hs1, hs1'⟩
    · rw [← hs1]; exact h2.socket
    · rcases h2.socket with hs2 | ⟨hs2, -⟩
      · exact Or.inr ⟨hs1, hs2.trans hs1'⟩
      · rw [hs1'] at hs2; cases hs2
  · refine ⟨n2 ++ n1, by rw [hn2, hn1, List.append_assoc], ?_⟩
    intro o ho
    rcases List.mem_append.mp ho with ho | ho
    · exact hn2' o ho
    · exact hn1' o ho
  · refine ⟨x1 ++ x2, f2, ?_, ?_, ?_, ?_, ?_⟩
    · rw [e2, e1]
      simp [List.append_assoc]
    · intro p hp
      rcases List.mem_append.mp hp with hp | hp
      · exact t1 p hp
      · exact t2 p hp
    · rw [List.flatMap_append]
      -- either the first write was complete, or the socket took nothing more
      rcases hf : w.writeFails b o with _ | _
      · have hx1 : x1.flatMap Prod.snd = b := by
          rcases w.write_cases m b o with ⟨-, rfl, e⟩ | ⟨-, -, e⟩ | ⟨h', -⟩ | ⟨h', -⟩
          · simpa using p1
          · rw [e] at e1
            have := congrArg Exchange.wire e1
            simp only [World.emit_trace, current_cons (o := .wrote m b) (by simp),
              Exchange.observe] at this
            have hx : x1 = [(m, b)] := (List.append_cancel_left this).symm
            simp [hx]
          · rw [hf] at h'; cases h'
          · rw [hf] at h'; cases h'
        rw [hx1]
        exact List.prefix_append_right_inj b |>.mpr p2
      · have hclosed : (w.write m b o).socket ≠ .open := by
          rcases w.write_cases m b o with ⟨h', -⟩ | ⟨h', -⟩ | ⟨-, -, n, e⟩ | ⟨-, hs, e⟩
          · rw [hf] at h'; cases h'
          · rw [hf] at h'; cases h'
          · rw [e]; simp
          · rw [e]; exact hs
        rw [s2 hclosed]
        simpa using p1.trans (List.prefix_append b c)
    · intro h
      obtain ⟨hx2, hf1⟩ := d2 h
      rw [e1] at hf1
      obtain ⟨hx1, hf⟩ := d1 hf1
      exact ⟨by rw [List.flatMap_append, hx1, hx2], hf⟩
    · intro hs
      have hs' : (w.write m b o).socket ≠ .open := by
        rcases h1.socket with h | ⟨h, h'⟩
        · rw [h]; exact hs
        · exact absurd h hs
      rw [s1 hs, s2 hs']
      rfl

/-! ## The messages of an exchange -/

/-- The place of a message in an exchange: interim responses first, then what a
handler has answered, then the server's own replies. -/
def Message.rank : Message → ℕ
  | .interim => 0
  | .handler => 1
  | .options => 2
  | .stock _ => 3

/-- Messages follow each other in order, each in one piece. -/
def Ordered (wire : List (Message × Bytes)) : Prop :=
  wire.Pairwise fun p q => p.1.rank < q.1.rank ∨ p.1 = q.1

/-- More bytes of a message that comes behind all others. -/
theorem Ordered.append {wire extra : List (Message × Bytes)} {m : Message} (h : Ordered wire)
    (hw : ∀ p ∈ wire, p.1.rank < m.rank ∨ p.1 = m) (hx : ∀ p ∈ extra, p.1 = m) :
    Ordered (wire ++ extra) := by
  refine List.pairwise_append.mpr ⟨h, ?_, ?_⟩
  · refine List.pairwise_of_forall_mem_list ?_
    intro p hp q hq
    exact Or.inr ((hx p hp).trans (hx q hq).symm)
  · intro p hp q hq
    rw [hx q hq]
    exact hw p hp

namespace Exchange

/-- The bytes of the response of the handler. -/
def handlerBytes (x : Exchange) : Bytes :=
  x.wire.flatMap fun p => if p.1 = .handler then p.2 else []

/-- The bytes of the server's own replies. -/
def serverBytes (x : Exchange) : Bytes :=
  x.wire.flatMap fun p => if p.1 = .handler ∨ p.1 = .interim then [] else p.2

/-- The header section of the response of the handler. -/
def headBytes (x : Exchange) : Bytes :=
  match x.heads.head? with
  | some (.handler, _, head) => head
  | _ => []

/-- The bytes of a handler's response go before those of the server's own. -/
theorem out_eq {x : Exchange} (h : Ordered x.wire) :
    x.out = x.handlerBytes ++ x.serverBytes := by
  unfold out handlerBytes serverBytes
  generalize x.wire = wire at h
  induction wire with
  | nil => rfl
  | cons p wire ih =>
    obtain ⟨hp, hw⟩ := List.pairwise_cons.mp h
    simp only [List.flatMap_cons]
    rw [ih hw]
    by_cases hi : p.1 = .interim
    · simp [hi]
    by_cases hh : p.1 = .handler
    · simp [hh]
    -- nothing of a handler comes behind a reply of the server's own
    have hnone : wire.flatMap (fun q => if q.1 = .handler then q.2 else []) = [] := by
      refine List.flatMap_eq_nil_iff.mpr ?_
      intro q hq
      refine if_neg ?_
      intro hqm
      rcases hp q hq with hlt | heq
      · rw [hqm] at hlt
        rcases hm : p.1 with _ | _ | _ | st <;> simp_all [Message.rank]
      · exact hh (heq.trans hqm)
    simp [hi, hh, hnone]

/-- No byte of the handler's was sent, -/
theorem handlerBytes_eq_nil {x : Exchange} (h : ∀ p ∈ x.wire, p.1 ≠ .handler) :
    x.handlerBytes = [] :=
  List.flatMap_eq_nil_iff.mpr fun p hp => if_neg (h p hp)

/-- and none of the server's own. -/
theorem serverBytes_eq_nil {x : Exchange}
    (h : ∀ p ∈ x.wire, p.1 = .handler ∨ p.1 = .interim) : x.serverBytes = [] :=
  List.flatMap_eq_nil_iff.mpr fun p hp => if_pos (h p hp)

end Exchange

end SmartMet
