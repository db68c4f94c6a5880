/-
# What has been read is looked at

A connection that waits for more bytes of its client has looked at the header
section it holds, if it holds a whole one.  `Looked` says so for any property of
the buffer that `handleIncompleteRequest` settles; bytes left over behind a
request are looked at in the posted call of `handleRead`.
-/
import SmartMetServer.Reassembly

namespace SmartMet

/-- More bytes of the client are on their way. -/
def Activity.Waits : Activity → Prop
  | .handshake => True
  | .read => True
  | .handleRead bytes => bytes ≠ []
  | _ => False

namespace Exchange

/-- The interim responses of an exchange. -/
def interims (x : Exchange) : List Bytes :=
  x.wire.flatMap fun p => if p.1 = .interim then [p.2] else []

theorem interims_observe {x : Exchange} {o : Obs} (h : ∀ b, o ≠ .wrote .interim b) :
    (x.observe o).interims = x.interims := by
  unfold interims
  cases o with
  | wrote m b =>
    have hm : m ≠ .interim := by
      rintro rfl
      exact h b rfl
    show (x.wire ++ [(m, b)]).flatMap _ = _
    rw [List.flatMap_append, List.flatMap_singleton, if_neg hm]
    exact List.append_nil _
  | _ => rfl

theorem interims_reply {x : Exchange} {m : Message} {r : Response} {head whole : Bytes} {w : World}
    {extra : List (Message × Bytes)} {f : Bool} (hm : m ≠ .interim) (hs : Sends m whole w extra f) :
    (x.reply m r head extra f).interims = x.interims := by
  have hnone : extra.flatMap (fun p => if p.1 = .interim then [p.2] else []) = [] := by
    refine List.flatMap_eq_nil_iff.mpr ?_
    intro p hp
    exact if_neg (fun h => hm ((hs.message p hp).symm.trans h))
  show (x.wire ++ extra).flatMap _ = _
  rw [List.flatMap_append, hnone]
  exact List.append_nil _

end Exchange

namespace AsyncConnection

variable (srv : Server)

/-- A connection that reads has looked at what it holds: `P` says what has been
found of the buffer, whether the expectation was looked at, and what the client
was told meanwhile. -/
def Heard (P : Activity → Bytes → Bool → List Bytes → Prop) (s : AsyncConnection) : Prop :=
  ∀ y, s.world.outstanding = [y] → ¬ y.Works →
    P y s.itsBuffer s.itsExpectHandled s.exchange.interims

/-- `P` holds where nothing has been looked at, and of the bytes on their way. -/
structure Hears (P : Activity → Bytes → Bool → List Bytes → Prop) : Prop where
  start : P .handshake [] false []
  handshake : ∀ b f ms, P .handshake b f ms → P .read b f ms
  receive : ∀ b f ms bytes, bytes ≠ [] → P .read b f ms → P (.handleRead bytes) b f ms
  idle : P .read [] false []
  leftover : ∀ b, P (.handleRead []) b false []

section Heard

variable {P : Activity → Bytes → Bool → List Bytes → Prop}

theorem heard_start (hP : Hears P) : Heard P (start srv) := by
  intro y hy _
  unfold start at hy ⊢
  dsimp only at hy ⊢
  split at hy
  · rename_i henc
    rw [if_pos henc]
    obtain rfl := List.singleton_inj.mp (show [Activity.handshake] = [y] from hy)
    exact hP.start
  · rename_i henc
    rw [if_neg henc]
    obtain rfl := List.singleton_inj.mp (show [Activity.read] = [y] from hy)
    exact hP.idle

/-- A re-armed connection has looked at nothing. -/
theorem heard_finishResponse (hP : Hears P) {s : AsyncConnection}
    (ho : s.world.outstanding = []) : Heard P (finishResponse srv s) := by
  intro y hy _
  unfold finishResponse at hy ⊢
  split at hy
  · rename_i hreuse
    rw [if_pos hreuse]
    unfold resumeReading at hy ⊢
    split at hy
    · rename_i hempty
      rw [if_pos hempty]
      have hy' : s.world.outstanding ++ [Activity.read] = [y] := hy
      rw [ho] at hy'
      obtain rfl := List.singleton_inj.mp hy'
      have hnil : (armForNextRequest srv (resetRequestState s)).itsBuffer = [] :=
        List.isEmpty_iff.mp hempty
      show P .read (armForNextRequest srv (resetRequestState s)).itsBuffer false []
      rw [hnil]
      exact hP.idle
    · rename_i hempty
      rw [if_neg hempty]
      have hy' : s.world.outstanding ++ [Activity.handleRead []] = [y] := hy
      rw [ho] at hy'
      obtain rfl := List.singleton_inj.mp hy'
      exact hP.leftover _
  · rw [ho] at hy
    cases hy

theorem Heard.of_frame {s t : AsyncConnection} (h : Heard P s)
    (ho : t.world.outstanding = s.world.outstanding) (hb : t.itsBuffer = s.itsBuffer)
    (he : t.itsExpectHandled = s.itsExpectHandled)
    (hx : t.exchange.interims = s.exchange.interims) : Heard P t := by
  intro y hy hw
  rw [hb, he, hx]
  exact h y (ho.symm.trans hy) hw

theorem heard_of_none {s : AsyncConnection} (ho : s.world.outstanding = []) : Heard P s := by
  intro y hy
  rw [ho] at hy
  cases hy

/-- Behind a request nothing has been looked at. -/
theorem heard_of_ends (hP : Hears P) {A : Message → Prop} {s : AsyncConnection} {x : Outcome}
    (h : x.Ends A s) (ho : s.world.outstanding = []) (a : Answers) : Heard P (x.run srv a) := by
  cases x with
  | stop t =>
    rcases h with h | ⟨z, hz, h⟩
    · exact heard_of_none (h.trans ho)
    · intro y hy hw
      have hy' : t.world.outstanding = [y] := hy
      rw [h, ho] at hy'
      obtain rfl := List.singleton_inj.mp hy'
      exact absurd hz hw
  | reply m t books =>
    have hnone : t.world.outstanding = [] := h.2.trans ho
    obtain ⟨hkeep, hbuf, hexp⟩ := keep_fields books (sendSimpleReply srv a m t)
    have hx := congrArg Exchange.interims (logOnly_keep books (sendSimpleReply srv a m t)).exchange
    refine Heard.of_frame ?_ hkeep hbuf hexp hx
    rcases sendSimpleReply_ends srv a m t with heq | ⟨u, -, hu, -, heq⟩
    · rw [heq]
      exact heard_of_none hnone
    · rw [heq]
      split
      · exact heard_finishResponse srv hP (hu.trans hnone)
      · exact heard_of_none (hu.trans hnone)
  | finish t => exact heard_finishResponse srv hP (Eq.trans h ho)

/-- The reply of the timer's handler is no interim response. -/
theorem interims_handleTimer (a : Answers) (err : ErrorCode) (generation : ℕ)
    (s : AsyncConnection) :
    ((Tail.handleTimer srv a err generation s).run srv a).exchange.interims
      = s.exchange.interims := by
  unfold Tail.handleTimer
  split
  · rfl
  split
  · rfl
  dsimp only
  split
  · rfl
  · obtain ⟨r, e, w, heq, -, -, hin⟩ := sendStockReply_closing srv a .requestTimeout
      (s := { s with hasTimedOut := true, itsKeepAlive := false }) rfl
    show (sendStockReply srv a _ _).exchange.interims = _
    rw [heq]
    obtain ⟨extra, f, hx, hs⟩ := hin.current
    show (current w.trace).interims = _
    rw [hx]
    exact Exchange.interims_reply (by simp) hs

variable {srv}

/-- **One step** of a connection that looks at the beginning of a request when it
leaves it incomplete. -/
theorem Heard.step (hP : Hears P) {s s' : AsyncConnection} {e : Event} (hinv : Inv srv s)
    (h : Heard P s) (hstep : step srv s e = some s')
    (hread : ∀ i a bytes t u, e = .runRead i a →
      s.world.outstanding[i]? = some (.handleRead bytes) → s.world.shutdownRequested = false →
      ¬ TooLarge srv (s.itsBuffer ++ bytes) →
      srv.spine.parseOneRequest (s.itsBuffer ++ bytes) = .incomplete →
      Fetched srv s t → t.itsBuffer = s.itsBuffer ++ bytes →
      Tail.handleIncompleteRequest srv a t = .stop (startRead u) →
      P .read (s.itsBuffer ++ bytes) u.itsExpectHandled u.exchange.interims) :
    Heard P s' := by
  obtain ⟨x, hx, rfl⟩ := exists_outcome srv hstep
  -- a step of the reply path waits for nothing, or for the next request
  by_cases hr : e.Resumes
  · obtain ⟨i, z, hi, hends⟩ := ends_step srv hx hr
    obtain ⟨-, -, -, hnone⟩ := hinv.held_release hi
    exact heard_of_ends srv hP hends hnone e.answers
  cases e with
  | handshake i ok =>
    simp only [Tail.step, AsyncConnection.step] at hx
    split at hx
    · rename_i hi
      obtain rfl := Option.some.inj hx
      obtain ⟨ho, -, -, hnone⟩ := hinv.held_release hi
      show Heard P (handleHandshake ok (s.release i))
      unfold handleHandshake
      split
      · intro y hy _
        have hy' : (s.release i).world.outstanding ++ [Activity.read] = [y] := hy
        rw [hnone] at hy'
        obtain rfl := List.singleton_inj.mp hy'
        exact hP.handshake _ _ _ (h .handshake ho id)
      · exact heard_of_none hnone
    · cases hx
  | receive i bytes =>
    simp only [Tail.step, AsyncConnection.step] at hx
    split at hx
    · rename_i hi
      split at hx
      · rename_i hb
        obtain rfl := Option.some.inj hx
        obtain ⟨ho, -, -, hnone⟩ := hinv.held_release hi
        intro y hy _
        have hy' : (s.release i).world.outstanding ++ [Activity.handleRead bytes] = [y] := hy
        rw [hnone] at hy'
        obtain rfl := List.singleton_inj.mp hy'
        exact hP.receive _ _ _ _ hb.1 (h .read ho id)
      · cases hx
    · cases hx
  | runRead i a =>
    simp only [Tail.step] at hx
    split at hx
    · rename_i bytes hi
      obtain rfl := Option.some.inj hx
      obtain ⟨t, hf, hcase⟩ := hinv.runRead_cases hi a
      have hnone := hf.common.outstanding
      -- a refusal leaves nothing outstanding
      have hrefuse : ∀ st (u : AsyncConnection), u.itsKeepAlive = false →
          u.world.outstanding = [] →
          Heard P ((Tail.sendStockReply srv a st u).run srv a) := fun st u hk hu =>
        heard_of_none ((outstanding_sendStockReply srv hk a).trans hu)
      show Heard P ((Tail.handleRead srv a .success bytes (s.release i)).run srv a)
      rcases hcase with ⟨-, hx⟩ | ⟨-, -, hx⟩ | ⟨hshut, hsize, hr, hb, hx⟩
      · rw [hx]
        exact hrefuse _ t hf.keepAlive hnone
      · rw [hx]
        exact hrefuse _ t hf.keepAlive hnone
      rw [hx]
      unfold Tail.parseBuffer
      rw [hb]
      cases hp : srv.spine.parseOneRequest (s.itsBuffer ++ bytes) with
      | complete r n =>
        let rest := (s.itsBuffer ++ bytes).drop n
        let v : AsyncConnection :=
          { t with itsRequest := r, itsBuffer := rest, itsReceivedBytes := rest.length }
        exact heard_of_ends srv hP (s := v) (ends_handleParsedRequest srv a v) hnone a
      | failed => exact hrefuse _ t hf.keepAlive hnone
      | incomplete =>
        -- reading goes on: what was found of the buffer is `hread`'s to say
        have hgo : ∀ u, Tail.handleIncompleteRequest srv a t = .stop (startRead u) →
            Heard P (Outcome.run srv a (Tail.handleIncompleteRequest srv a t)) := by
          intro u hu
          have hP' := hread i a bytes t u rfl hi hshut hsize hp hf hb hu
          have hs := stretch_handleIncompleteRequest srv a t
          rw [hu] at hs ⊢
          have hbu : u.itsBuffer = s.itsBuffer ++ bytes := hs.buffer.trans hb
          intro y hy hw
          have hlast : u.world.outstanding ++ [Activity.read] = [] ++ [y] := hy
          obtain ⟨-, hread⟩ := List.append_inj' hlast rfl
          obtain rfl := List.singleton_inj.mp hread
          show P .read u.itsBuffer u.itsExpectHandled u.exchange.interims
          rw [hbu]
          exact hP'
        show Heard P (Outcome.run srv a (Tail.handleIncompleteRequest srv a t))
        rcases handleIncompleteRequest_cases srv a t with
          ⟨-, heq⟩ | ⟨-, ⟨-, heq⟩ | ⟨-, -, heq⟩ | ⟨-, -, -, u, -, heq | ⟨hu, heq⟩⟩⟩
        · rw [heq]
          exact hrefuse _ _ rfl hnone
        · exact hgo _ heq
        · rw [heq]
          exact hrefuse _ _ rfl hnone
        · exact hgo _ heq
        · rw [heq]
          exact heard_of_none (hu.trans hnone)
    · cases hx
  | timerExpires =>
    simp only [Tail.step, AsyncConnection.step] at hx
    split at hx
    · obtain rfl := Option.some.inj hx
      exact h
    · cases hx
  | runTimer generation a =>
    simp only [Tail.step] at hx
    split at hx
    · rename_i w hw
      obtain rfl := Option.some.inj hx
      let v : AsyncConnection := { s with world.waits := s.world.waits.erase w }
      let err : ErrorCode := if w.status = .aborted then .operationAborted else .success
      obtain ⟨ho, hb, he⟩ := handleTimer_frame srv a err generation v
      exact Heard.of_frame h ho hb he (interims_handleTimer srv a err generation v)
    · cases hx
  | requestShutdown =>
    obtain rfl := Option.some.inj hx
    exact h
  | _ => exact absurd trivial hr

end Heard

/-- The same without the interim responses. -/
def Looked (P : Activity → Bytes → Bool → Prop) (s : AsyncConnection) : Prop :=
  ∀ y, s.world.outstanding = [y] → ¬ y.Works → P y s.itsBuffer s.itsExpectHandled

/-- `P` holds where nothing has been looked at, and of the bytes on their way. -/
structure Watches (P : Activity → Bytes → Bool → Prop) : Prop where
  start : P .handshake [] false
  handshake : ∀ b f, P .handshake b f → P .read b f
  receive : ∀ b f bytes, bytes ≠ [] → P .read b f → P (.handleRead bytes) b f
  idle : P .read [] false
  leftover : ∀ b, P (.handleRead []) b false

theorem Watches.hears {P : Activity → Bytes → Bool → Prop} (hP : Watches P) :
    Hears fun y b f _ => P y b f where
  start := hP.start
  handshake b f _ := hP.handshake b f
  receive b f _ := hP.receive b f
  idle := hP.idle
  leftover := hP.leftover

/-- A connection that waits for bytes holds no bad header section. -/
def Screens (Bad : Bytes → Prop) (y : Activity) (buffer : Bytes) (_ : Bool) : Prop :=
  y.Waits → (find crlfcrlf buffer 0).isSome → ¬ Bad buffer

theorem watches_screens (Bad : Bytes → Prop) : Watches (Screens Bad) where
  start _ h := absurd h (by decide)
  handshake _ _ h := h
  receive _ _ _ _ h := fun _ => h trivial
  idle _ h := absurd h (by decide)
  leftover _ h := absurd rfl h

theorem looked_start {P : Activity → Bytes → Bool → Prop} (hP : Watches P) :
    Looked P (start srv) := heard_start srv hP.hears

variable {srv}

theorem Looked.step {P : Activity → Bytes → Bool → Prop} (hP : Watches P)
    {s s' : AsyncConnection} {e : Event} (hinv : Inv srv s) (h : Looked P s)
    (hstep : step srv s e = some s')
    (hread : ∀ i a bytes t u, e = .runRead i a →
      s.world.outstanding[i]? = some (.handleRead bytes) → s.world.shutdownRequested = false →
      ¬ TooLarge srv (s.itsBuffer ++ bytes) →
      srv.spine.parseOneRequest (s.itsBuffer ++ bytes) = .incomplete →
      Fetched srv s t → t.itsBuffer = s.itsBuffer ++ bytes →
      Tail.handleIncompleteRequest srv a t = .stop (startRead u) →
      P .read (s.itsBuffer ++ bytes) u.itsExpectHandled) :
    Looked P s' := Heard.step hP.hears hinv h hstep hread

/-! ## Bad header sections -/

/-- More bytes make no header section good or bad. -/
def HeadOnly (Bad : Bytes → Prop) : Prop :=
  ∀ b c, (find crlfcrlf b 0).isSome → (Bad (b ++ c) ↔ Bad b)

/-- A bad header section at the front is new: it was not there when the buffer was
looked at. -/
theorem fresh_of_bad {Bad : Bytes → Prop} (hbad : HeadOnly Bad) {s : AsyncConnection}
    (hinv : Inv srv s) (h : Looked (Screens Bad) s) {i : ℕ} {bytes : Bytes}
    (hi : s.world.outstanding[i]? = some (.handleRead bytes)) (hb : Bad (s.itsBuffer ++ bytes)) :
    bytes = [] ∨ find crlfcrlf s.itsBuffer 0 = none := by
  by_contra hnot
  obtain ⟨hne, hblank⟩ := not_or.mp hnot
  have hsome : (find crlfcrlf s.itsBuffer 0).isSome := Option.isSome_iff_ne_none.mpr hblank
  obtain ⟨ho, -, -, -⟩ := hinv.held_release hi
  exact h (.handleRead bytes) ho id hne hsome ((hbad _ bytes hsome).mp hb)

/-- The header section at the front is that of the message. -/
theorem bad_iff {Bad : Bytes → Prop} (hbad : HeadOnly Bad) {s c b m : Bytes} {k : ℕ}
    (hparse : StreamFraming.Stable srv.spine.parseOneRequest)
    (hm : StreamFraming.MessageAt srv.spine.parseOneRequest (s ++ c) k m)
    (hb : StreamFraming.behind srv.spine.parseOneRequest k s = some b)
    (hblank : (find crlfcrlf b 0).isSome) (hblank' : (find crlfcrlf m 0).isSome) :
    Bad b ↔ Bad m := by
  obtain ⟨-, rest, hrest⟩ := hm
  rw [StreamFraming.behind_append hparse c hb] at hrest
  rw [← hbad b c hblank, ← hbad m rest hblank', Option.some.inj hrest]

/-- A read behind which the request has not arrived whole ends as
`handleIncompleteRequest` does. -/
theorem Inv.runRead_incomplete {s s' : AsyncConnection} (h : Inv srv s) {i : ℕ} {a : Answers}
    {bytes : Bytes} (hi : s.world.outstanding[i]? = some (.handleRead bytes))
    (hshut : s.world.shutdownRequested = false) (hsize : ¬ TooLarge srv (s.itsBuffer ++ bytes))
    (hp : srv.spine.parseOneRequest (s.itsBuffer ++ bytes) = .incomplete)
    (hstep : step srv s (.runRead i a) = some s') :
    ∃ t, Fetched srv s t ∧ Reading srv t ∧ t.itsBuffer = s.itsBuffer ++ bytes ∧
      s' = (Tail.handleIncompleteRequest srv a t).run srv a := by
  obtain ⟨o, ho, rfl⟩ := exists_outcome srv hstep
  simp only [Tail.step, hi, Option.some.injEq] at ho
  obtain ⟨t, hf, hcase⟩ := h.runRead_cases hi a
  rcases hcase with ⟨hs, -⟩ | ⟨-, hl, -⟩ | ⟨-, -, hr, hb, heq⟩
  · rw [hs] at hshut
    cases hshut
  · exact absurd hl hsize
  refine ⟨t, hf, hr, hb, ?_⟩
  rw [heq] at ho
  unfold Tail.parseBuffer at ho
  rw [hb, hp] at ho
  rw [← ho]
  rfl

/-- A refusal of what was read: the reply is the last of the exchange, no handler was
called in it, and the socket is closed. -/
theorem Reading.refused_with {s t u : AsyncConnection} (hr : Reading srv t) (hf : Fetched srv s t)
    (a : Answers) (st : Status) (hu : u.world = t.world) (hk : u.itsKeepAlive = false) :
    (∃ r head, (sendStockReply srv a st u).exchange.heads
        = s.exchange.heads ++ [(.stock st, r, head)]) ∧
      (sendStockReply srv a st u).exchange.dispatched = [] ∧
      (sendStockReply srv a st u).world.socket = .closed ∧
      (sendStockReply srv a st u).world.outstanding = [] := by
  obtain ⟨r, e, w, heq, -, -, hin⟩ := sendStockReply_closing srv a st hk
  obtain ⟨extra, f, hx, -⟩ := hin.current
  have hexchange : current u.world.trace = t.exchange := congrArg (fun w => current w.trace) hu
  rw [heq]
  refine ⟨⟨r, srv.spine.headerSection r, ?_⟩, ?_, rfl, ?_⟩
  · show (current w.trace).heads = _
    rw [hx, hexchange, hf.exchange]
    rfl
  · show (current w.trace).dispatched = _
    rw [hx, hexchange]
    exact hr.direct.dispatched
  · have houtstanding : u.world.outstanding = t.world.outstanding := congrArg World.outstanding hu
    exact hin.outstanding.trans (houtstanding.trans hf.common.outstanding)

end AsyncConnection

end SmartMet
