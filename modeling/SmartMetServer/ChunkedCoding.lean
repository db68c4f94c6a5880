/-
# The chunked transfer coding (RFC 9112 7.1)

An encoder of single chunks, a decoder of whole bodies, and the facts that make
truncation visible.

* `decode_encode` : encoded chunks followed by the last chunk decode to the
  concatenated chunks, and what comes after them is left over;
* `decode_append` : the decoder never revises a complete message;
* `decode_of_prefix` : nothing shorter than a whole encoding is complete;
* `decode_encode_of_head` : nor are chunks that something else follows.

The decoder reports a message (its content and what is left over) or nothing;
it accepts chunk extensions and a trailer section.
-/
import Mathlib.Data.List.Basic

namespace ChunkedCoding

/-! ## Hexadecimal numerals -/

/-- The value of a hexadecimal digit, in either case. -/
def hexValue (c : Char) : Option ℕ :=
  if '0' ≤ c ∧ c ≤ '9' then some (c.toNat - '0'.toNat)
  else if 'a' ≤ c ∧ c ≤ 'f' then some (c.toNat - 'a'.toNat + 10)
  else if 'A' ≤ c ∧ c ≤ 'F' then some (c.toNat - 'A'.toNat + 10)
  else none

/-- The usual lower-case hexadecimal numeral. -/
def toHex (n : ℕ) : List Char := Nat.toDigits 16 n

/-- The number a text stands for when all of it is hexadecimal digits. -/
def hexNumber : ℕ → List Char → Option ℕ
  | acc, [] => some acc
  | acc, c :: cs =>
    match hexValue c with
    | some v => hexNumber (16 * acc + v) cs
    | none => none

theorem hexValue_digitChar : ∀ d, d < 16 → hexValue (Nat.digitChar d) = some d := by
  decide

theorem hexNumber_append {acc n : ℕ} {l m : List Char} (h : hexNumber acc l = some n) :
    hexNumber acc (l ++ m) = hexNumber n m := by
  induction l generalizing acc with
  | nil =>
    obtain rfl := Option.some.inj h
    rfl
  | cons c cs ih =>
    simp only [hexNumber, List.cons_append] at h ⊢
    cases hc : hexValue c with
    | none => simp [hc] at h
    | some v =>
      simp only [hc] at h
      exact ih h

/-- A numeral reads back as its number. -/
theorem hexNumber_toHex (n : ℕ) : hexNumber 0 (toHex n) = some n := by
  induction n using Nat.strongRecOn with
  | ind n ih =>
    by_cases hlt : n < 16
    · have h : toHex n = [Nat.digitChar n] := Nat.toDigits_of_lt_base hlt
      simp [h, hexNumber, hexValue_digitChar n hlt]
    · have h : toHex n = toHex (n / 16) ++ [Nat.digitChar (n % 16)] :=
        Nat.toDigits_of_base_le (by omega) (by omega)
      rw [h, hexNumber_append (ih (n / 16) (by omega))]
      simp only [hexNumber, hexValue_digitChar (n % 16) (by omega)]
      congr 1
      omega

theorem hexNumber_isSome_of_mem {acc n : ℕ} {l : List Char} (h : hexNumber acc l = some n) :
    ∀ c ∈ l, (hexValue c).isSome := by
  induction l generalizing acc with
  | nil => simp
  | cons d ds ih =>
    simp only [hexNumber] at h
    cases hd : hexValue d with
    | none => simp [hd] at h
    | some v =>
      simp only [hd] at h
      intro c hc
      rcases List.mem_cons.mp hc with rfl | hc
      · simp [hd]
      · exact ih h c hc

/-- The characters of a numeral are hexadecimal digits. -/
theorem isSome_hexValue_of_mem_toHex {n : ℕ} {c : Char} (hc : c ∈ toHex n) :
    (hexValue c).isSome :=
  hexNumber_isSome_of_mem (hexNumber_toHex n) c hc

/-- A numeral ends where a character that is no digit stands. -/
theorem takeWhile_toHex (n : ℕ) (t : List Char) (ht : ∀ c ∈ t.head?, hexValue c = none) :
    (toHex n ++ t).takeWhile (fun c => (hexValue c).isSome) = toHex n ∧
      (toHex n ++ t).dropWhile (fun c => (hexValue c).isSome) = t := by
  have hall : ∀ c ∈ toHex n, (hexValue c).isSome := fun c hc => isSome_hexValue_of_mem_toHex hc
  rw [List.takeWhile_append_of_pos hall, List.dropWhile_append_of_pos hall]
  cases t with
  | nil => simp
  | cons c cs =>
    have hc : hexValue c = none := ht c (by simp)
    simp [hc]

/-! ## Lines -/

/-- The first line and what follows its CR LF. -/
def takeLine : List Char → Option (List Char × List Char)
  | [] => none
  | [_] => none
  | c :: d :: t =>
    if c = '\r' ∧ d = '\n' then some ([], t)
    else (takeLine (d :: t)).map fun p => (c :: p.1, p.2)

theorem takeLine_append {s l t : List Char} (h : takeLine s = some (l, t)) (q : List Char) :
    takeLine (s ++ q) = some (l, t ++ q) := by
  induction s generalizing l t with
  | nil => simp [takeLine] at h
  | cons c s ih =>
    cases s with
    | nil => simp [takeLine] at h
    | cons d s =>
      simp only [takeLine, List.cons_append] at h ⊢
      split at h
      · rename_i hcd
        rw [if_pos hcd]
        simp only [Option.some.injEq, Prod.mk.injEq] at h ⊢
        exact ⟨h.1, by rw [← h.2]⟩
      · rename_i hcd
        rw [if_neg hcd]
        simp only [Option.map_eq_some_iff, Prod.mk.injEq, Prod.exists] at h ⊢
        obtain ⟨l', t', h', rfl, rfl⟩ := h
        exact ⟨l', t' ++ q, ih h', rfl, rfl⟩

/-- A text without CR, ended by CR LF, is one line. -/
theorem takeLine_line (l t : List Char) (hl : '\r' ∉ l) :
    takeLine (l ++ '\r' :: '\n' :: t) = some (l, t) := by
  induction l with
  | nil => simp [takeLine]
  | cons c cs ih =>
    have hc : c ≠ '\r' := fun h => hl (by simp [h])
    have hcs : '\r' ∉ cs := fun h => hl (by simp [h])
    cases cs with
    | nil => simp [takeLine, hc]
    | cons d ds =>
      have h := ih hcs
      simp only [List.cons_append] at h ⊢
      simp [takeLine, hc, h]

theorem length_lt_of_takeLine {s l t : List Char} (h : takeLine s = some (l, t)) :
    t.length < s.length := by
  induction s generalizing l t with
  | nil => simp [takeLine] at h
  | cons c s ih =>
    cases s with
    | nil => simp [takeLine] at h
    | cons d s =>
      simp only [takeLine] at h
      split at h
      · simp only [Option.some.injEq, Prod.mk.injEq] at h
        rw [← h.2, List.length_cons, List.length_cons]
        omega
      · simp only [Option.map_eq_some_iff, Prod.mk.injEq, Prod.exists] at h
        obtain ⟨l', t', h', rfl, rfl⟩ := h
        have := ih h'
        simp only [List.length_cons] at this ⊢
        omega

/-- The first character of the first line is the first character of the text. -/
theorem head_of_takeLine {c : Char} {s l t : List Char} (hc : c ≠ '\r')
    (h : takeLine (c :: s) = some (l, t)) : l.head? = some c := by
  cases s with
  | nil => simp [takeLine] at h
  | cons d s =>
    simp only [takeLine] at h
    rw [if_neg (fun hcd => hc hcd.1)] at h
    simp only [Option.map_eq_some_iff, Prod.mk.injEq, Prod.exists] at h
    obtain ⟨l', t', -, rfl, rfl⟩ := h
    rfl

/-! ## Chunks -/

/-- The size a chunk-size line announces; an extension may follow it. -/
def readSize (line : List Char) : Option ℕ :=
  let digits := line.takeWhile fun c => (hexValue c).isSome
  let extension := (line.dropWhile fun c => (hexValue c).isSome).dropWhile
    fun c => c = ' ' || c = '\t'
  if digits = [] then none
  else if extension.head?.all (· = ';') then hexNumber 0 digits
  else none

/-- The trailer section is skipped up to its empty line. -/
def skipTrailer : ℕ → List Char → Option (List Char)
  | 0, _ => none
  | fuel + 1, s =>
    match takeLine s with
    | none => none
    | some ([], rest) => some rest
    | some (_ :: _, rest) => skipTrailer fuel rest

/-- The decoder, with fuel for the chunks and the trailer lines. -/
def decodeUpTo : ℕ → List Char → Option (List Char × List Char)
  | 0, _ => none
  | fuel + 1, s =>
    match takeLine s with
    | none => none
    | some (line, rest) =>
      match readSize line with
      | none => none
      | some 0 => (skipTrailer (fuel + 1) rest).map fun r => ([], r)
      | some (n + 1) =>
        match takeLine (rest.drop (n + 1)) with
        | some ([], rest') =>
          (decodeUpTo fuel rest').map fun p => (rest.take (n + 1) ++ p.1, p.2)
        | _ => none

/-- The content of a complete chunked body and what follows the body; nothing
when the body is malformed or not complete. -/
def decode (s : List Char) : Option (List Char × List Char) := decodeUpTo (s.length + 1) s

/-- One chunk on the wire. -/
def encodeChunk (c : List Char) : List Char :=
  toHex c.length ++ ['\r', '\n'] ++ c ++ ['\r', '\n']

/-- The last chunk, and the empty trailer section. -/
def lastChunk : List Char := ['0', '\r', '\n', '\r', '\n']

/-- Chunks on the wire.  An empty chunk stands for nothing: its encoding would
be the last chunk. -/
def encode (cs : List (List Char)) : List Char :=
  (cs.filter (· ≠ [])).flatMap encodeChunk

@[simp] theorem encode_nil : encode [] = [] := rfl

theorem encode_append (cs ds : List (List Char)) : encode (cs ++ ds) = encode cs ++ encode ds := by
  simp [encode, List.filter_append, List.flatMap_append]

theorem encode_empty (cs : List (List Char)) : encode ([] :: cs) = encode cs := by
  simp [encode]

theorem encode_cons {c : List Char} (hc : c ≠ []) (cs : List (List Char)) :
    encode (c :: cs) = encodeChunk c ++ encode cs := by
  simp [encode, hc]

/-! ## The decoder inverts the encoder -/

theorem not_mem_toHex (n : ℕ) : '\r' ∉ toHex n := by
  intro h
  have := isSome_hexValue_of_mem_toHex h
  simp [hexValue] at this

theorem readSize_toHex (n : ℕ) : readSize (toHex n) = some n := by
  have h := takeWhile_toHex n [] (by simp)
  simp only [List.append_nil] at h
  have hne : toHex n ≠ [] := Nat.toDigits_ne_nil
  simp [readSize, h.1, h.2, hne, hexNumber_toHex]

theorem skipTrailer_mono {fuel fuel' : ℕ} {s r : List Char} (h : skipTrailer fuel s = some r)
    (hle : fuel ≤ fuel') : skipTrailer fuel' s = some r := by
  induction fuel generalizing fuel' s with
  | zero => simp [skipTrailer] at h
  | succ f ih =>
    obtain ⟨k, rfl⟩ : ∃ k, fuel' = k + 1 := ⟨fuel' - 1, by omega⟩
    simp only [skipTrailer] at h ⊢
    cases hl : takeLine s with
    | none => simp [hl] at h
    | some p =>
      obtain ⟨l, rest⟩ := p
      cases l with
      | nil => simpa [hl] using h
      | cons a as =>
        simp only [hl] at h
        exact ih h (by omega)

/-- More fuel changes nothing about a complete message. -/
theorem decodeUpTo_mono {fuel fuel' : ℕ} {s : List Char} {p : List Char × List Char}
    (h : decodeUpTo fuel s = some p) (hle : fuel ≤ fuel') : decodeUpTo fuel' s = some p := by
  induction fuel generalizing fuel' s p with
  | zero => simp [decodeUpTo] at h
  | succ f ih =>
    obtain ⟨k, rfl⟩ : ∃ k, fuel' = k + 1 := ⟨fuel' - 1, by omega⟩
    simp only [decodeUpTo] at h ⊢
    cases hl : takeLine s with
    | none => simp [hl] at h
    | some q =>
      obtain ⟨line, rest⟩ := q
      simp only [hl] at h ⊢
      cases hn : readSize line with
      | none => simp [hn] at h
      | some n =>
        cases n with
        | zero =>
          simp only [hn, Option.map_eq_some_iff] at h ⊢
          obtain ⟨r, hr, rfl⟩ := h
          exact ⟨r, skipTrailer_mono hr (by omega), rfl⟩
        | succ n =>
          simp only [hn] at h ⊢
          cases hl' : takeLine (rest.drop (n + 1)) with
          | none => simp [hl'] at h
          | some q' =>
            obtain ⟨l', rest'⟩ := q'
            cases l' with
            | cons a as => simp [hl'] at h
            | nil =>
              simp only [hl', Option.map_eq_some_iff] at h ⊢
              obtain ⟨p', hp', rfl⟩ := h
              exact ⟨p', ih hp' (by omega), rfl⟩

/-- Every line takes a byte at least, so the length of the text is fuel enough. -/
theorem skipTrailer_enough {fuel : ℕ} {s r : List Char} (h : skipTrailer fuel s = some r) :
    skipTrailer s.length s = some r := by
  induction fuel generalizing s with
  | zero => simp [skipTrailer] at h
  | succ f ih =>
    simp only [skipTrailer] at h
    cases hl : takeLine s with
    | none => simp [hl] at h
    | some p =>
      obtain ⟨l, rest⟩ := p
      have hlen := length_lt_of_takeLine hl
      obtain ⟨k, hk⟩ : ∃ k, s.length = k + 1 := ⟨s.length - 1, by omega⟩
      rw [hk]
      simp only [skipTrailer, hl]
      cases l with
      | nil => simpa [hl] using h
      | cons a as =>
        simp only [hl] at h
        exact skipTrailer_mono (ih h) (by omega)

theorem decodeUpTo_enough {fuel : ℕ} {s : List Char} {p : List Char × List Char}
    (h : decodeUpTo fuel s = some p) : decode s = some p := by
  unfold decode
  induction fuel generalizing s p with
  | zero => simp [decodeUpTo] at h
  | succ f ih =>
    simp only [decodeUpTo] at h ⊢
    cases hl : takeLine s with
    | none => simp [hl] at h
    | some q =>
      obtain ⟨line, rest⟩ := q
      have hlen := length_lt_of_takeLine hl
      simp only [hl] at h ⊢
      cases hn : readSize line with
      | none => simp [hn] at h
      | some n =>
        cases n with
        | zero =>
          simp only [hn, Option.map_eq_some_iff] at h ⊢
          obtain ⟨r, hr, rfl⟩ := h
          exact ⟨r, skipTrailer_mono (skipTrailer_enough hr) (by omega), rfl⟩
        | succ n =>
          simp only [hn] at h ⊢
          cases hl' : takeLine (rest.drop (n + 1)) with
          | none => simp [hl'] at h
          | some q' =>
            obtain ⟨l', rest'⟩ := q'
            have hlen' := length_lt_of_takeLine hl'
            simp only [List.length_drop] at hlen'
            cases l' with
            | cons a as => simp [hl'] at h
            | nil =>
              simp only [hl', Option.map_eq_some_iff] at h ⊢
              obtain ⟨p', hp', rfl⟩ := h
              exact ⟨p', decodeUpTo_mono (ih hp') (by omega), rfl⟩

theorem skipTrailer_append {fuel : ℕ} {s r : List Char} (h : skipTrailer fuel s = some r)
    (q : List Char) : skipTrailer fuel (s ++ q) = some (r ++ q) := by
  induction fuel generalizing s with
  | zero => simp [skipTrailer] at h
  | succ f ih =>
    simp only [skipTrailer] at h ⊢
    cases hl : takeLine s with
    | none => simp [hl] at h
    | some p =>
      obtain ⟨l, rest⟩ := p
      rw [takeLine_append hl q]
      cases l with
      | nil =>
        simp only [hl, Option.some.injEq] at h
        simp [h]
      | cons a as =>
        simp only [hl] at h
        exact ih h

theorem decodeUpTo_append {fuel : ℕ} {s c r : List Char} (h : decodeUpTo fuel s = some (c, r))
    (q : List Char) : decodeUpTo fuel (s ++ q) = some (c, r ++ q) := by
  induction fuel generalizing s c r with
  | zero => simp [decodeUpTo] at h
  | succ f ih =>
    simp only [decodeUpTo] at h ⊢
    cases hl : takeLine s with
    | none => simp [hl] at h
    | some p =>
      obtain ⟨line, rest⟩ := p
      rw [takeLine_append hl q]
      simp only [hl] at h ⊢
      cases hn : readSize line with
      | none => simp [hn] at h
      | some n =>
        cases n with
        | zero =>
          simp only [hn, Option.map_eq_some_iff, Prod.mk.injEq] at h ⊢
          obtain ⟨r', hr, rfl, rfl⟩ := h
          exact ⟨r' ++ q, skipTrailer_append hr q, rfl, rfl⟩
        | succ n =>
          simp only [hn] at h ⊢
          cases hl' : takeLine (rest.drop (n + 1)) with
          | none => simp [hl'] at h
          | some q' =>
            obtain ⟨l', rest'⟩ := q'
            cases l' with
            | cons a as => simp [hl'] at h
            | nil =>
              simp only [hl', Option.map_eq_some_iff, Prod.mk.injEq, Prod.exists] at h
              obtain ⟨c', r', hp', rfl, rfl⟩ := h
              -- the chunk's bytes are all there, or no CR LF would follow them
              have hlen : n + 1 ≤ rest.length := by
                have := length_lt_of_takeLine hl'
                simp only [List.length_drop] at this
                omega
              rw [List.drop_append_of_le_length hlen, List.take_append_of_le_length hlen,
                takeLine_append hl' q]
              simp [ih hp']

/-- The decoder never revises a complete message: more bytes are left over. -/
theorem decode_append {s c r : List Char} (h : decode s = some (c, r)) (q : List Char) :
    decode (s ++ q) = some (c, r ++ q) := by
  unfold decode at h ⊢
  exact decodeUpTo_mono (decodeUpTo_append h q) (by simp)

theorem decodeUpTo_encodeChunk {c : List Char} (hc : c ≠ []) (fuel : ℕ) (t : List Char) :
    decodeUpTo (fuel + 1) (encodeChunk c ++ t) =
      (decodeUpTo fuel t).map fun p => (c ++ p.1, p.2) := by
  obtain ⟨n, hn⟩ : ∃ n, c.length = n + 1 :=
    ⟨c.length - 1, by have := List.length_pos_iff.mpr hc; omega⟩
  have hline : takeLine (encodeChunk c ++ t)
      = some (toHex c.length, c ++ ('\r' :: '\n' :: t)) := by
    have := takeLine_line (toHex c.length) (c ++ ('\r' :: '\n' :: t)) (not_mem_toHex _)
    simpa [encodeChunk, List.append_assoc] using this
  have hend : takeLine ((c ++ ('\r' :: '\n' :: t)).drop (n + 1)) = some ([], t) := by
    rw [← hn, List.drop_left]
    exact takeLine_line [] t (by simp)
  have htake : (c ++ ('\r' :: '\n' :: t)).take (n + 1) = c := by
    rw [← hn, List.take_left]
  simp only [decodeUpTo, hline, readSize_toHex]
  rw [hn]
  simp only [hend, htake]

theorem length_encodeChunk_pos (c : List Char) : 0 < (encodeChunk c).length := by
  simp only [encodeChunk, List.length_append, List.length_cons]
  omega

/-- One chunk in front of a body contributes its bytes to the content. -/
theorem decode_encodeChunk_append {c : List Char} (hc : c ≠ []) (t : List Char) :
    decode (encodeChunk c ++ t) = (decode t).map fun p => (c ++ p.1, p.2) := by
  have hpos := length_encodeChunk_pos c
  cases hd : decode t with
  | some p =>
    -- the fuel left after the chunk is enough for the rest
    have hle : t.length + 1 ≤ (encodeChunk c ++ t).length := by
      simp only [List.length_append]
      omega
    have ht : decodeUpTo (encodeChunk c ++ t).length t = some p := decodeUpTo_mono hd hle
    unfold decode
    rw [decodeUpTo_encodeChunk hc, ht]
  | none =>
    -- and what it would find there, `decode` would have found
    cases hu : decodeUpTo (encodeChunk c ++ t).length t with
    | none =>
      unfold decode
      rw [decodeUpTo_encodeChunk hc, hu]
    | some p =>
      rw [decodeUpTo_enough hu] at hd
      cases hd

/-- Encoded chunks in front of a body contribute their bytes to its content. -/
theorem decode_encode_append (cs : List (List Char)) (t : List Char) :
    decode (encode cs ++ t) = (decode t).map fun p => (cs.flatten ++ p.1, p.2) := by
  induction cs with
  | nil => simp
  | cons c cs ih =>
    by_cases hc : c = []
    · subst hc
      rw [encode_empty, ih]
      simp
    · rw [encode_cons hc, List.append_assoc, decode_encodeChunk_append hc, ih]
      cases decode t with
      | none => rfl
      | some p => simp [List.append_assoc]

theorem decode_lastChunk (t : List Char) : decode (lastChunk ++ t) = some ([], t) := by
  have h : decodeUpTo 1 lastChunk = some ([], []) := by decide
  have h' := decode_append (decodeUpTo_enough h) t
  simpa using h'

/-- **Round trip.**  Encoded chunks and the last chunk decode to the concatenated
chunks; the bytes behind them are left over. -/
theorem decode_encode (cs : List (List Char)) (t : List Char) :
    decode (encode cs ++ lastChunk ++ t) = some (cs.flatten, t) := by
  rw [List.append_assoc, decode_encode_append, decode_lastChunk]
  simp

/-- **Truncation is visible.**  A complete message at the front of an encoding is
the whole encoding. -/
theorem decode_of_prefix {cs : List (List Char)} {s c r : List Char}
    (hs : s <+: encode cs ++ lastChunk) (h : decode s = some (c, r)) :
    s = encode cs ++ lastChunk ∧ c = cs.flatten ∧ r = [] := by
  obtain ⟨q, hq⟩ := hs
  have h1 := decode_append h q
  have h2 := decode_encode cs []
  rw [List.append_nil] at h2
  rw [hq, h2] at h1
  simp only [Option.some.injEq, Prod.mk.injEq] at h1
  obtain ⟨rfl, hr⟩ := h1
  have hrq := List.append_eq_nil_iff.mp hr.symm
  rw [hrq.2, List.append_nil] at hq
  exact ⟨hq, rfl, hrq.1⟩

/-- Chunks followed by what starts with no digit are no complete message. -/
theorem decode_encode_of_head {c : Char} {t : List Char} (cs : List (List Char))
    (hc : hexValue c = none) (hr : c ≠ '\r') : decode (encode cs ++ c :: t) = none := by
  have h : decode (c :: t) = none := by
    unfold decode
    simp only [decodeUpTo]
    cases hl : takeLine (c :: t) with
    | none => rfl
    | some p =>
      obtain ⟨line, rest⟩ := p
      have hhead := head_of_takeLine hr hl
      cases line with
      | nil => simp at hhead
      | cons d ds =>
        obtain rfl : d = c := by simpa using hhead
        simp [readSize, hc]
  rw [decode_encode_append, h]
  rfl

/-- The chunks alone are no complete message: the last chunk is missing. -/
theorem decode_encode_none {cs : List (List Char)} {s : List Char} (hs : s <+: encode cs) :
    decode s = none := by
  cases h : decode s with
  | none => rfl
  | some p =>
    obtain ⟨c, r⟩ := p
    have hall := decode_of_prefix (hs.trans (List.prefix_append _ lastChunk)) h
    have hlen := hs.length_le
    rw [hall.1, List.length_append] at hlen
    have hlast : lastChunk.length = 5 := rfl
    omega

end ChunkedCoding
