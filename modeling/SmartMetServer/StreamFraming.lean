/-
# Cutting a byte stream into messages

A message parser looks at the front of a byte string and finds a complete
message there, or an error, or too little.  Applying it again and again to what
each message leaves over cuts a whole stream into messages.

A parser is *stable* when a message found in a byte string is found, with the
same extent, in every extension of it.  Then it makes no difference how much of
the stream is at hand when the parser is applied: `messages_of_prefix`.
-/
import Mathlib.Data.List.Basic

namespace StreamFraming

variable {α β : Type*}

/-- What a parser says about the front of a byte string. -/
inductive Parsed (α : Type*) where
  | complete (message : α) (consumed : ℕ)
  | failed
  | incomplete
  deriving DecidableEq, Repr

/-- The stability of a parser under more input. -/
structure Stable (parse : List β → Parsed α) : Prop where
  /-- A message takes at least one byte and no more than there are. -/
  consumed_pos : ∀ b a n, parse b = .complete a n → 0 < n
  consumed_le : ∀ b a n, parse b = .complete a n → n ≤ b.length
  /-- More bytes behind a complete message change neither it nor its extent. -/
  complete_append : ∀ b c a n, parse b = .complete a n → parse (b ++ c) = .complete a n
  /-- More bytes do not repair an error. -/
  failed_append : ∀ b c, parse b = .failed → parse (b ++ c) = .failed

/-- The messages at the front of a stream, at most `fuel` of them. -/
def messagesUpTo (parse : List β → Parsed α) : ℕ → List β → List α
  | 0, _ => []
  | fuel + 1, s =>
    match parse s with
    | .complete a n => a :: messagesUpTo parse fuel (s.drop n)
    | .failed => []
    | .incomplete => []

/-- The messages of a stream.  Each takes a byte at least, so the length of the
stream bounds their number. -/
def messages (parse : List β → Parsed α) (s : List β) : List α :=
  messagesUpTo parse s.length s

/-- Fuel beyond the length of the stream makes no difference. -/
theorem messagesUpTo_eq {parse : List β → Parsed α} (hp : Stable parse) :
    ∀ (fuel : ℕ) (s : List β), s.length ≤ fuel →
      messagesUpTo parse fuel s = messagesUpTo parse s.length s := by
  intro fuel
  induction fuel using Nat.strongRecOn with
  | ind fuel ih =>
    intro s hs
    cases fuel with
    | zero =>
      have h0 : s.length = 0 := by omega
      rw [h0]
    | succ k =>
      cases hlen : s.length with
      | zero =>
        obtain rfl := List.length_eq_zero_iff.mp hlen
        simp only [messagesUpTo]
        cases hps : parse ([] : List β) with
        | complete a n =>
          have h1 := hp.consumed_pos _ _ _ hps
          have h2 := hp.consumed_le _ _ _ hps
          simp only [List.length_nil] at h2
          omega
        | failed => rfl
        | incomplete => rfl
      | succ m =>
        simp only [messagesUpTo]
        cases hps : parse s with
        | complete a n =>
          have h1 := hp.consumed_pos _ _ _ hps
          have h2 := hp.consumed_le _ _ _ hps
          have hd : (s.drop n).length = s.length - n := List.length_drop
          simp only
          rw [ih k (by omega) (s.drop n) (by omega), ih m (by omega) (s.drop n) (by omega)]
        | failed => rfl
        | incomplete => rfl

/-- A stream that starts with a message. -/
theorem messages_complete {parse : List β → Parsed α} (hp : Stable parse) {s : List β}
    {a : α} {n : ℕ} (h : parse s = .complete a n) :
    messages parse s = a :: messages parse (s.drop n) := by
  have h1 := hp.consumed_pos _ _ _ h
  have h2 := hp.consumed_le _ _ _ h
  have hd : (s.drop n).length = s.length - n := List.length_drop
  unfold messages
  cases hlen : s.length with
  | zero => omega
  | succ k =>
    simp only [messagesUpTo, h]
    rw [messagesUpTo_eq hp k (s.drop n) (by omega)]

/-! ## Messages cut off a stream -/

/-- The messages `as` were cut off the front of a stream, and `rest` is left. -/
inductive Cut (parse : List β → Parsed α) : List β → List α → List β → Prop where
  | nothing (s : List β) : Cut parse s [] s
  | message {s : List β} {a : α} {n : ℕ} {as : List α} {rest : List β}
      (h : parse s = .complete a n) (h' : Cut parse (s.drop n) as rest) :
      Cut parse s (a :: as) rest

namespace Cut

variable {parse : List β → Parsed α} {s rest : List β} {as : List α}

/-- One more message. -/
theorem snoc (h : Cut parse s as rest) {a : α} {n : ℕ} (ha : parse rest = .complete a n) :
    Cut parse s (as ++ [a]) (rest.drop n) := by
  induction h with
  | nothing s => exact message ha (nothing _)
  | message hm _ ih => exact message hm (ih ha)

/-- More of the stream has arrived. -/
theorem append (hp : Stable parse) (h : Cut parse s as rest) (c : List β) :
    Cut parse (s ++ c) as (rest ++ c) := by
  induction h with
  | nothing s => exact nothing _
  | message hm _ ih =>
    refine message (hp.complete_append _ c _ _ hm) ?_
    rw [List.drop_append_of_le_length (hp.consumed_le _ _ _ hm)]
    exact ih

/-- What was cut off are the first messages of the stream. -/
theorem messages_eq (hp : Stable parse) (h : Cut parse s as rest) :
    messages parse s = as ++ messages parse rest := by
  induction h with
  | nothing s => rfl
  | message hm _ ih => rw [messages_complete hp hm, ih, List.cons_append]

end Cut

/-- The whole of a byte string is one message. -/
def Encodes (parse : List β → Parsed α) (m : List β) : Prop := ∃ a, parse m = .complete a m.length

/-- The message at the front of a stream of messages. -/
theorem Encodes.front {parse : List β → Parsed α} (hp : Stable parse) {m b c rest : List β}
    (hm : Encodes parse m) (hb : b ++ c = m ++ rest) {a : α} {n : ℕ}
    (h : parse b = .complete a n) : n = m.length := by
  obtain ⟨a', ha'⟩ := hm
  have h1 := hp.complete_append _ c _ _ h
  have h2 := hp.complete_append _ rest _ _ ha'
  rw [hb, h2] at h1
  exact (Parsed.complete.inj h1).2.symm

/-! ## The messages by their places -/

/-- What stands behind the first `k` messages of a stream. -/
def behind (parse : List β → Parsed α) : ℕ → List β → Option (List β)
  | 0, s => some s
  | k + 1, s =>
    match parse s with
    | .complete _ n => behind parse k (s.drop n)
    | .failed => none
    | .incomplete => none

/-- More of the stream does not move the messages. -/
theorem behind_append {parse : List β → Parsed α} (hp : Stable parse) {k : ℕ}
    {s rest : List β} (c : List β) (h : behind parse k s = some rest) :
    behind parse k (s ++ c) = some (rest ++ c) := by
  induction k generalizing s with
  | zero =>
    obtain rfl := Option.some.inj h
    rfl
  | succ k ih =>
    simp only [behind] at h ⊢
    cases hm : parse s with
    | incomplete => simp [hm] at h
    | failed => simp [hm] at h
    | complete a n =>
      rw [hm] at h
      rw [hp.complete_append _ c _ _ hm]
      dsimp only
      rw [List.drop_append_of_le_length (hp.consumed_le _ _ _ hm)]
      exact ih h

/-- What is left when messages have been cut off stands behind them. -/
theorem Cut.behind_eq {parse : List β → Parsed α} {s rest : List β} {as : List α}
    (h : Cut parse s as rest) : behind parse as.length s = some rest := by
  induction h with
  | nothing s => rfl
  | message hm _ ih =>
    simp only [List.length_cons, behind, hm]
    exact ih

/-- `m` is the message behind the first `k` messages of a stream, as the client
has encoded it. -/
def MessageAt (parse : List β → Parsed α) (s : List β) (k : ℕ) (m : List β) : Prop :=
  Encodes parse m ∧ ∃ rest, behind parse k s = some (m ++ rest)

/-- The messages of a stream that is made of messages. -/
theorem messageAt_flatten {parse : List β → Parsed α} (hp : Stable parse) {ms : List (List β)}
    (hms : ∀ m ∈ ms, Encodes parse m) {k : ℕ} {m : List β} (h : ms[k]? = some m) :
    MessageAt parse ms.flatten k m := by
  induction ms generalizing k with
  | nil => simp at h
  | cons b ms ih =>
    obtain ⟨hb, hms⟩ := List.forall_mem_cons.mp hms
    cases k with
    | zero =>
      obtain rfl := Option.some.inj h
      exact ⟨hb, ms.flatten, rfl⟩
    | succ k =>
      obtain ⟨hm, rest, hrest⟩ := ih hms h
      refine ⟨hm, rest, ?_⟩
      obtain ⟨a, ha⟩ := hb
      have hcomplete : parse (b ++ ms.flatten) = .complete a b.length :=
        hp.complete_append _ _ _ _ ha
      simp only [List.flatten_cons, behind, hcomplete]
      rw [List.drop_left]
      exact hrest

/-- A message that has arrived at the front of the stream is the one the parser
finds; one that has not arrived whole is not taken for an error. -/
theorem MessageAt.parse_eq {parse : List β → Parsed α} (hp : Stable parse) {k : ℕ}
    {s c b m : List β} (hm : MessageAt parse (s ++ c) k m) (hb : behind parse k s = some b) :
    parse b ≠ .failed ∧ (∀ a n, parse b = .complete a n → n = m.length ∧ m <+: b) ∧
      (m.length ≤ b.length → ∃ a, parse b = .complete a m.length) := by
  obtain ⟨henc, rest, hrest⟩ := hm
  have heq : b ++ c = m ++ rest := by
    rw [behind_append hp c hb] at hrest
    exact Option.some.inj hrest
  obtain ⟨a, ha⟩ := id henc
  have hwhole : parse (b ++ c) = .complete a m.length := by
    rw [heq]
    exact hp.complete_append _ rest _ _ ha
  have hprefix : m.length ≤ b.length → m <+: b := by
    intro hlen
    have hfront : m <+: b ++ c := by
      rw [heq]
      exact List.prefix_append m rest
    exact List.prefix_of_prefix_length_le hfront (List.prefix_append b c) hlen
  refine ⟨?_, ?_, ?_⟩
  · intro hf
    rw [hp.failed_append _ c hf] at hwhole
    cases hwhole
  · intro a' n h
    have hn := henc.front hp heq h
    refine ⟨hn, hprefix ?_⟩
    rw [← hn]
    exact hp.consumed_le _ _ _ h
  · intro hlen
    obtain ⟨d, hd⟩ := hprefix hlen
    refine ⟨a, ?_⟩
    rw [← hd]
    exact hp.complete_append _ d _ _ ha

end StreamFraming
