/-
# The size limit of a request

`handleRead` compares the limit with all that is buffered, before it knows where
the request at the front ends.  A request over the limit is never parsed; one
that keeps it is refused only when the bytes behind it are counted as its own.
-/
import SmartMetServer.OwnReplies
import SmartMetServer.Reassembly

namespace SmartMet

open StreamFraming

/-- The exchange was answered with this status by the server itself. -/
def Exchange.AnsweredWith (x : Exchange) (st : Status) : Prop := ∃ p ∈ x.heads, p.1 = .stock st

namespace AsyncConnection

variable (srv : Server)

/-- A read brings more than the limit, and the request at the front keeps it. -/
def CrowdedOut (s : AsyncConnection) : Event → Prop
  | .runRead i _ =>
    ∃ bytes, s.world.outstanding[i]? = some (.handleRead bytes) ∧
      s.world.shutdownRequested = false ∧ TooLarge srv (s.itsBuffer ++ bytes) ∧
      ∃ r n, srv.spine.parseOneRequest (s.itsBuffer ++ bytes) = .complete r n ∧
        n ≤ srv.itsMaxRequestSize
  | _ => False

/-- Only messages over the limit were answered with 413. -/
def RefusedOnly (stream : Bytes) (k : ℕ) (x : Exchange) : Prop :=
  x.AnsweredWith .requestEntityTooLarge →
    ∀ m, MessageAt srv.spine.parseOneRequest stream k m → srv.itsMaxRequestSize < m.length

variable {srv}

theorem refusedOnly_of_trail {stream : Bytes} {A : Obs → Prop} {s t : AsyncConnection}
    (h : EachExchange (RefusedOnly srv stream) s.world.trace) (ht : Trail A s t)
    (hA : ∀ o, A o → ∀ r head, o ≠ .rendered (.stock .requestEntityTooLarge) r head) :
    EachExchange (RefusedOnly srv stream) t.world.trace := by
  obtain ⟨new, hnew, hev⟩ := ht.events
  rw [hnew]
  refine h.append (fun k => ?_) ?_
  · rintro ⟨p, hp, -⟩
    cases hp
  intro o ho _ k x hx
  have hno := hA o (hev o ho).1
  cases o with
  | rendered m r head =>
    rintro ⟨p, hp, hm⟩
    rcases List.mem_append.mp hp with hp | hp
    · exact hx ⟨p, hp, hm⟩
    · obtain rfl := List.mem_singleton.mp hp
      exact absurd (congrArg (Obs.rendered · r head) hm) (hno r head)
  | _ => exact hx

/-- The last call of a step that is not refused for its size. -/
theorem refusedOnly_run {stream : Bytes} {x : Outcome} {a : Answers}
    (h : EachExchange (RefusedOnly srv stream) x.state.world.trace)
    (hx : x.Says (· ≠ .stock .requestEntityTooLarge)) :
    EachExchange (RefusedOnly srv stream) (x.run srv a).world.trace := by
  refine refusedOnly_of_trail h (trail_run srv a x) ?_
  rintro o ho r head rfl
  cases x with
  | stop s => exact ho
  | reply m s books =>
    rcases ho with (⟨_, ho⟩ | ⟨_, ho⟩ | ho | ho | ho | ⟨_, _, ho⟩) | ho
    · exact hx (Obs.rendered.inj ho).1.symm
    all_goals cases ho
  | finish s =>
    rcases ho with ho | ⟨_, _, ho⟩
    · cases ho
    · cases ho

/-- A request over the limit is answered with 413, and with it the exchange. -/
theorem refusedOnly_tooLarge {stream : Bytes} {t : AsyncConnection} {a : Answers}
    (h : EachExchange (RefusedOnly srv stream) t.world.trace) (hk : t.itsKeepAlive = false)
    (hsize : ∀ m, MessageAt srv.spine.parseOneRequest stream (past t.world.trace).length m →
      srv.itsMaxRequestSize < m.length) :
    EachExchange (RefusedOnly srv stream)
      ((Tail.sendStockReply srv a .requestEntityTooLarge t).run srv a).world.trace := by
  obtain ⟨r, e, w, heq, -, -, hin⟩ := sendStockReply_closing srv a .requestEntityTooLarge hk
  show EachExchange _ (sendStockReply srv a .requestEntityTooLarge t).world.trace
  rw [heq]
  refine EachExchange.cons (t := w.trace) (eachExchange_iff.mpr ?_) (by simp) ?_
  · rw [hin.past]
    exact ⟨(eachExchange_iff.mp h).1, fun _ => hsize⟩
  · rw [hin.past]
    exact fun _ => hsize

/-- **One step**: a message that keeps the limit is not answered with 413, if the
step crowds none out. -/
theorem refusedOnly_step {stream : Bytes} (hparse : Stable srv.spine.parseOneRequest)
    {s s' : AsyncConnection} {e : Event} (hinv : Inv srv s) (hre : Reassembled srv s)
    (hstream : receivedOf s.world.trace <+: stream)
    (h : EachExchange (RefusedOnly srv stream) s.world.trace) (hg : ¬ CrowdedOut srv s e)
    (hstep : step srv s e = some s') :
    EachExchange (RefusedOnly srv stream) s'.world.trace := by
  obtain ⟨x, hx, rfl⟩ := exists_outcome srv hstep
  -- the statuses of the shutdown and of high load are none of HTTP's
  have hshutdown : srv.spine.shutdown ≠ Status.requestEntityTooLarge := by
    intro h
    have := srv.spine.shutdown_local
    rw [h] at this
    exact absurd this (by decide)
  have hload : srv.spine.highLoad ≠ Status.requestEntityTooLarge := by
    intro h
    have := srv.spine.highLoad_local
    rw [h] at this
    exact absurd this (by decide)
  -- the limit is looked at in a read only
  by_cases he : ∃ i a, e = .runRead i a
  · obtain ⟨i, a, rfl⟩ := he
    simp only [Tail.step] at hx
    split at hx
    · rename_i bytes hi
      obtain rfl := Option.some.inj hx
      obtain ⟨-, hbehind⟩ := hre.behind_eq hinv hi
      obtain ⟨t, hf, hcase⟩ := hinv.runRead_cases hi a
      have ht : EachExchange (RefusedOnly srv stream) t.world.trace := by
        refine refusedOnly_of_trail h hf.trail ?_
        rintro o ⟨_, _, rfl⟩ r head
        simp
      show EachExchange _ ((Tail.handleRead srv a .success bytes (s.release i)).run srv a).world.trace
      rcases hcase with ⟨-, hx⟩ | ⟨hshut, hsize, hx⟩ | ⟨-, -, -, -, hx⟩
      · rw [hx]
        exact refusedOnly_run (x := Tail.sendStockReply srv a _ t) ht
          fun h => hshutdown (Message.stock.inj h)
      · rw [hx]
        refine refusedOnly_tooLarge ht hf.keepAlive ?_
        rw [hf.past]
        intro m hm
        obtain ⟨later, rfl⟩ := hstream
        obtain ⟨-, -, hwhole⟩ := hm.parse_eq hparse hbehind
        -- a message within the limit would be complete here, which `hg` excludes
        by_contra hle
        have hsize' := hsize.2
        obtain ⟨r, hr⟩ := hwhole (by omega)
        exact hg ⟨bytes, hi, hshut, hsize, r, m.length, hr, by omega⟩
      · rw [hx]
        refine refusedOnly_run (refusedOnly_of_trail ht (trail_parseBuffer srv a t) ?_) ?_
        · rintro o (⟨_, rfl⟩ | rfl | ⟨_, rfl⟩ | rfl) r head
          all_goals simp
        · refine (says_parseBuffer srv a t).mono ?_
          rintro m (rfl | ⟨st, hst, rfl⟩) hm
          · cases hm
          · obtain rfl := Message.stock.inj hm
            simp only [readStatuses, List.mem_cons, List.not_mem_nil, or_false] at hst
            rcases hst with hst | hst | hst | hst | hst | hst
            · exact absurd hst (by decide)
            · exact absurd hst (by decide)
            · exact absurd hst (by decide)
            · exact hload hst.symm
            · exact absurd hst (by decide)
            · exact absurd hst (by decide)
    · cases hx
  · refine refusedOnly_run (refusedOnly_of_trail h (trail_step srv hx) ?_) ?_
    · rintro o ho r head rfl
      exact absurd (rendered_of_stepEvent srv ho) (by simp)
    · refine (says_step srv hx fun i a h => he ⟨i, a, h⟩).mono ?_
      rintro m ⟨st, hst, rfl⟩ hm
      obtain rfl := Message.stock.inj hm
      simp only [otherStatuses, List.mem_cons, List.not_mem_nil, or_false] at hst
      rcases hst with hst | hst | hst | hst
      · exact absurd hst (by decide)
      · exact absurd hst (by decide)
      · exact absurd hst (by decide)
      · exact hshutdown hst.symm

/-! ## Whole runs -/

/-- **The size limit judges the request**, in every run that crowds none out:
a message that keeps the limit is not answered with 413, and a message over the
limit is given to no handler. -/
theorem size_limit_of_request {s : AsyncConnection} {es : List Event} {ms : List Bytes}
    (hmax : 0 < srv.itsMaxRequestSize) (hparse : Stable srv.spine.parseOneRequest)
    (hms : ∀ m ∈ ms, Encodes srv.spine.parseOneRequest m)
    (hg : Transition.Along (step srv) (fun s e => ¬ CrowdedOut srv s e) (start srv) es)
    (hrun : runFrom srv (start srv) es = some s) (hstream : es.flatMap Event.arrived <+: ms.flatten)
    {k : ℕ} {x : Exchange} {m : Bytes} (hx : (exchanges s.world.trace)[k]? = some x)
    (hm : ms[k]? = some m) :
    (m.length ≤ srv.itsMaxRequestSize → ¬ x.AnsweredWith .requestEntityTooLarge) ∧
      (srv.itsMaxRequestSize < m.length → x.dispatched = []) := by
  have hat := messageAt_flatten hparse hms hm
  let Good : Bytes → Prop := fun m => m.length ≤ srv.itsMaxRequestSize
  obtain ⟨-, -, -, hparsed, hrefused⟩ := stream_run
    (Q := fun s => EachExchange (ParsedOnly srv Good ms.flatten) s.world.trace ∧
      EachExchange (RefusedOnly srv ms.flatten) s.world.trace) hparse
    ⟨eachExchange_start srv fun hne => absurd rfl hne,
      eachExchange_start srv fun ⟨p, hp, _⟩ => by cases hp⟩
    (by
      intro u e u' hinv hre hstream' hstream hq hgu hstep
      refine ⟨parsedOnly_step hparse hinv hre hstream hq.1 ?_ hstep,
        refusedOnly_step hparse hinv hre hstream hq.2 hgu hstep⟩
      intro i a bytes m r _ hi _ hsize _ hpre
      by_contra hle
      have hlen := hpre.length_le
      exact hsize ⟨hmax, by show srv.itsMaxRequestSize < _; simp only [Good] at hle; omega⟩)
    hg hrun hstream
  refine ⟨fun hle h413 => ?_, fun hlt => ?_⟩
  · have := hrefused k x hx h413 m hat
    omega
  · by_contra hd
    have hmem : x ∈ exchanges s.world.trace := List.mem_of_getElem? hx
    have := hparsed k x hx (requests_of_dispatched srv ⟨es, hrun⟩ hmem hd) m hat
    simp only [Good] at this
    omega

/-- A server with a limit of 40 bytes, and a request of 28. -/
def smallServer : Server := { MinimalSpine.server with itsMaxRequestSize := 40 }

/-- A request that keeps within that limit. -/
def smallRequest : Bytes := "GET /x HTTP/1.1\r\nHost: h\r\n\r\n".toList

theorem encodes_smallRequest : Encodes smallServer.spine.parseOneRequest smallRequest := by
  have h : (match MinimalSpine.parseBodyless smallRequest with
      | .complete _ n => n == smallRequest.length
      | _ => false) = true := by decide +kernel
  unfold Encodes
  show ∃ a, MinimalSpine.parseBodyless smallRequest = _
  split at h
  · rename_i a n hp
    exact ⟨a, by rw [hp, beq_iff_eq.mp h]⟩
  · cases h

theorem size_limit_of_request_small :
    ∃ s, runFrom smallServer (start smallServer)
        [.receive 0 smallRequest, .runRead 0 MinimalSpine.answers] = some s ∧
      ∀ x, (exchanges s.world.trace)[0]? = some x → ¬ x.AnsweredWith .requestEntityTooLarge := by
  refine ⟨_, rfl, fun x hx => ?_⟩
  refine (@size_limit_of_request smallServer _
    [.receive 0 smallRequest, .runRead 0 MinimalSpine.answers] [smallRequest] (by decide)
    MinimalSpine.stable_parseBodyless ?_ ?_ rfl (by decide) 0 x _ hx rfl).1 (by decide)
  · intro m hm
    obtain rfl := List.mem_singleton.mp hm
    exact encodes_smallRequest
  · refine ⟨id, fun s₁ h₁ => ⟨?_, fun _ _ => trivial⟩⟩
    obtain rfl := Option.some.inj h₁
    rintro ⟨bytes, hi, -, ⟨-, hlong⟩, -⟩
    obtain rfl : smallRequest = bytes := Activity.handleRead.inj (Option.some.inj hi)
    exact absurd hlong (by decide)

/-- **A request is refused for the bytes behind it**: two requests of 28 bytes
arrive in one read, and the first is answered with 413. -/
theorem small_request_refused :
    ∃ s x, runFrom smallServer (start smallServer)
        [.receive 0 (smallRequest ++ smallRequest), .runRead 0 MinimalSpine.answers] = some s ∧
      Encodes smallServer.spine.parseOneRequest smallRequest ∧
      smallRequest.length ≤ smallServer.itsMaxRequestSize ∧
      (exchanges s.world.trace)[0]? = some x ∧ x.AnsweredWith .requestEntityTooLarge := by
  obtain ⟨s, hs, hp⟩ := (Option.any_eq_true _ _).mp (show (runFrom smallServer (start smallServer)
    [.receive 0 (smallRequest ++ smallRequest), .runRead 0 MinimalSpine.answers]).any
    (fun s => match (exchanges s.world.trace)[0]? with
      | some x => x.heads.any fun p => p.1 == .stock .requestEntityTooLarge
      | none => false) = true from by decide +kernel)
  split at hp
  · rename_i x hx
    obtain ⟨p, hp, hm⟩ := List.any_eq_true.mp hp
    exact ⟨s, x, hs, encodes_smallRequest, by decide, hx, p, hp, by simpa using hm⟩
  · cases hp

end AsyncConnection

end SmartMet
