/-
# What the string scanning finds

`find`, `findFirstNotOf` and `findLastNotOf` by what they find, and from that
the loop of `hasHeaderToken`: it looks at the tokens of a comma separated list,
`hasHeaderToken_iff`.
-/
import Mathlib.Data.List.Find
import SmartMetServer.TokenList
import SmartMetServer.Utility

namespace SmartMet

/-! ## Positions -/

/-- The first occurrence of a pattern from a position on: what is found is the
pattern, and nothing before it is. -/
theorem find_eq_some {pat s : Bytes} {pos i : ℕ} :
    find pat s pos = some i ↔
      i ≤ s.length ∧ pos ≤ i ∧ pat <+: s.drop i ∧ ∀ j < i, pos ≤ j → ¬ pat <+: s.drop j := by
  have hpat : ∀ j, (pat.isPrefixOf (s.drop j) = false ↔ ¬ pat <+: s.drop j) := by
    intro j
    rw [← List.isPrefixOf_iff_prefix, Bool.not_eq_true]
  unfold find
  rw [List.find?_range_eq_some]
  simp only [Bool.and_eq_true, decide_eq_true_eq, List.isPrefixOf_iff_prefix, List.mem_range,
    Nat.lt_succ_iff, Bool.not_eq_true', Bool.and_eq_false_imp, hpat]
  constructor
  · rintro ⟨⟨h1, h2⟩, h3, h4⟩
    exact ⟨h3, h1, h2, h4⟩
  · rintro ⟨h3, h1, h2, h4⟩
    exact ⟨⟨h1, h2⟩, h3, h4⟩

theorem find_eq_none {pat s : Bytes} {pos : ℕ} :
    find pat s pos = none ↔ ∀ j ≤ s.length, pos ≤ j → ¬ pat <+: s.drop j := by
  unfold find
  rw [List.find?_range_eq_none]
  refine forall_congr' fun j => ?_
  rw [Nat.lt_succ_iff, Bool.not_eq_true', ← Bool.not_eq_true, Bool.and_eq_true,
    List.isPrefixOf_iff_prefix, decide_eq_true_eq, not_and]

/-- More bytes do not move the first occurrence. -/
theorem find_append {pat s : Bytes} {pos i : ℕ} (c : Bytes) (h : find pat s pos = some i) :
    find pat (s ++ c) pos = some i := by
  obtain ⟨hi, hpos, hp, hn⟩ := find_eq_some.mp h
  have hlen : i + pat.length ≤ s.length := by
    have := hp.length_le
    rw [List.length_drop] at this
    omega
  refine find_eq_some.mpr ⟨?_, hpos, ?_, ?_⟩
  · rw [List.length_append]
    omega
  · rw [List.drop_append_of_le_length hi]
    exact hp.trans (List.prefix_append _ _)
  · intro j hj hposj hpre
    rw [List.drop_append_of_le_length (by omega)] at hpre
    refine hn j hj hposj (List.prefix_of_prefix_length_le hpre (List.prefix_append _ _) ?_)
    rw [List.length_drop]
    omega

/-- A pattern is found in what contains it. -/
theorem find_isSome {pat s : Bytes} : (find pat s 0).isSome ↔ pat <:+: s := by
  constructor
  · intro h
    obtain ⟨i, hi⟩ := Option.isSome_iff_exists.mp h
    obtain ⟨-, -, hp, -⟩ := find_eq_some.mp hi
    exact hp.isInfix.trans (List.drop_suffix _ _).isInfix
  · rintro ⟨l, r, rfl⟩
    rw [Option.isSome_iff_ne_none]
    intro hnone
    refine find_eq_none.mp hnone l.length ?_ (Nat.zero_le _) ?_
    · simp only [List.length_append]
      omega
    · rw [List.append_assoc, List.drop_left]
      exact List.prefix_append _ _

/-- A one-character pattern is found at that character. -/
theorem singleton_prefix_drop {c : Char} {s : Bytes} {i : ℕ} :
    [c] <+: s.drop i ↔ s[i]? = some c := by
  rw [← List.head?_drop]
  cases s.drop i with
  | nil => simp
  | cons d t => simp [List.cons_prefix_cons, eq_comm]

theorem findFirstNotOf_eq_some {set s : Bytes} {pos i : ℕ}
    (h : findFirstNotOf set s pos = some i) :
    pos ≤ i ∧ i < s.length ∧ (∀ c ∈ s[i]?, c ∉ set) ∧
      ∀ j < i, pos ≤ j → ∀ c ∈ s[j]?, c ∈ set := by
  unfold findFirstNotOf at h
  obtain ⟨hp, hlt, hn⟩ := List.find?_range_eq_some.mp h
  rw [List.mem_range] at hlt
  simp only [Bool.and_eq_true, decide_eq_true_eq] at hp
  refine ⟨hp.1, hlt, ?_, ?_⟩
  · intro c hc
    have hany := hp.2
    rw [hc] at hany
    simpa using hany
  · intro j hj hpos c hc
    have := hn j hj
    rw [hc] at this
    simpa [hpos] using this

theorem findFirstNotOf_eq_none {set s : Bytes} {pos : ℕ} (h : findFirstNotOf set s pos = none) :
    ∀ j, pos ≤ j → ∀ c ∈ s[j]?, c ∈ set := by
  intro j hpos c hc
  unfold findFirstNotOf at h
  have := List.find?_range_eq_none.mp h j (List.getElem?_eq_some_iff.mp hc).1
  rw [hc] at this
  simpa [hpos] using this

/-- The last position below `n` with a property. -/
theorem find?_reverse_range {p : ℕ → Bool} {n i : ℕ} (hi : i < n) (hp : p i = true) :
    ∃ l, (List.range n).reverse.find? p = some l ∧ i ≤ l ∧ l < n ∧ p l = true ∧
      ∀ j, l < j → j < n → p j = false := by
  induction n with
  | zero => omega
  | succ n ih =>
    rw [List.range_succ, List.reverse_append, List.reverse_singleton, List.singleton_append]
    cases hn : p n with
    | true =>
      exact ⟨n, List.find?_cons_of_pos hn, by omega, by omega, hn, fun j h1 h2 => by omega⟩
    | false =>
      have hlt : i < n := by
        rcases Nat.lt_succ_iff_lt_or_eq.mp hi with h | rfl
        · exact h
        · rw [hn] at hp
          cases hp
      obtain ⟨l, hl, h1, h2, h3, h4⟩ := ih hlt
      refine ⟨l, ?_, h1, by omega, h3, ?_⟩
      · rw [List.find?_cons_of_neg (by rw [hn]; simp)]
        exact hl
      · intro j hj hjn
        rcases Nat.lt_succ_iff_lt_or_eq.mp hjn with h | rfl
        · exact h4 j hj h
        · exact hn

theorem findLastNotOf_eq_some {set s : Bytes} {pos i : ℕ} (hi : i ≤ pos) (hs : i < s.length)
    (hc : ∀ c ∈ s[i]?, c ∉ set) :
    ∃ l, findLastNotOf set s pos = some l ∧ i ≤ l ∧ l ≤ pos ∧ l < s.length ∧
      (∀ c ∈ s[l]?, c ∉ set) ∧ ∀ j, l < j → j ≤ pos → ∀ c ∈ s[j]?, c ∈ set := by
  let p : ℕ → Bool := fun i => (s[i]?).any fun c => !set.contains c
  have hp : p i = true := by
    show ((s[i]?).any fun c => !set.contains c) = true
    obtain ⟨c, hci⟩ : ∃ c, s[i]? = some c := ⟨s[i], List.getElem?_eq_getElem hs⟩
    have := hc c hci
    rw [hci]
    simpa using this
  have hlt : i < min (pos + 1) s.length := lt_min (by omega) hs
  obtain ⟨l, hl, h1, h2, h3, h4⟩ := find?_reverse_range hlt hp
  refine ⟨l, hl, h1, by omega, by omega, ?_, ?_⟩
  · intro c hcl
    simp only [p] at h3
    rw [hcl] at h3
    simpa using h3
  · intro j hj hpos c hcj
    have hjn := (List.getElem?_eq_some_iff.mp hcj).1
    have := h4 j hj (by omega)
    simp only [p] at this
    rw [hcj] at this
    simpa using this

/-! ## More bytes behind -/

theorem findFirstNotOf_append {set s : Bytes} {pos i : ℕ} (c : Bytes)
    (h : findFirstNotOf set s pos = some i) : findFirstNotOf set (s ++ c) pos = some i := by
  unfold findFirstNotOf at h ⊢
  obtain ⟨hp, hlt, hn⟩ := List.find?_range_eq_some.mp h
  rw [List.mem_range] at hlt
  refine List.find?_range_eq_some.mpr ⟨?_, ?_, ?_⟩
  · rw [List.getElem?_append_left hlt]
    exact hp
  · rw [List.mem_range, List.length_append]
    omega
  · intro j hj
    rw [List.getElem?_append_left (by omega)]
    exact hn j hj

theorem findLastNotOf_append {set s : Bytes} {pos : ℕ} (c : Bytes) (h : pos < s.length) :
    findLastNotOf set (s ++ c) pos = findLastNotOf set s pos := by
  unfold findLastNotOf
  rw [List.length_append, min_eq_left (by omega : pos + 1 ≤ s.length),
    min_eq_left (by omega : pos + 1 ≤ s.length + c.length)]
  refine List.find?_congr ?_
  intro i hi
  have := List.mem_range.mp (List.mem_reverse.mp hi)
  rw [List.getElem?_append_left (by omega)]

theorem substr_append {s : Bytes} {pos n : ℕ} (c : Bytes) (h : pos + n ≤ s.length) :
    substr (s ++ c) pos n = substr s pos n := by
  unfold substr
  rw [List.drop_append_of_le_length (by omega), List.take_append_of_le_length]
  rw [List.length_drop]
  omega

/-! ## Lists -/

/-- A space or a tab. -/
def isBlank (c : Char) : Bool := blanks.contains c

/-- The tokens of a comma separated header value, in lower case. -/
def options (headerValue : Bytes) : List Bytes :=
  (TokenList.elements ',' isBlank headerValue).map asciiToLower

/-- The characters between two positions. -/
theorem mem_slice {v : Bytes} {pos stop : ℕ} {c : Char} (h : c ∈ (v.take stop).drop pos) :
    ∃ j, pos ≤ j ∧ j < stop ∧ v[j]? = some c := by
  obtain ⟨k, hk⟩ := List.mem_iff_getElem?.mp h
  rw [List.getElem?_drop, List.getElem?_take] at hk
  split at hk
  · rename_i hlt
    exact ⟨pos + k, by omega, hlt, hk⟩
  · cases hk

/-- A text between two positions is cut at a third. -/
theorem slice_append (v : Bytes) {pos mid stop : ℕ} (h₁ : pos ≤ mid) (h₂ : mid ≤ stop)
    (h₃ : stop ≤ v.length) :
    (v.take stop).drop pos = (v.take mid).drop pos ++ (v.take stop).drop mid := by
  have hcut : v.take stop = v.take mid ++ (v.take stop).drop mid := by
    have := (List.take_append_drop mid (v.take stop)).symm
    rwa [List.take_take, Nat.min_eq_left h₂] at this
  have hlen : pos ≤ (v.take mid).length := by
    rw [List.length_take]
    omega
  calc (v.take stop).drop pos
      = (v.take mid ++ (v.take stop).drop mid).drop pos := by rw [← hcut]
    _ = (v.take mid).drop pos ++ (v.take stop).drop mid := List.drop_append_of_le_length hlen

/-- The body of the two list loops: the text between two positions, trimmed. -/
theorem listElement_eq {v : Bytes} {pos stop : ℕ} (hs : stop ≤ v.length) :
    listElement v pos stop =
      if (TokenList.trim isBlank ((v.take stop).drop pos)).isEmpty then none
      else some (TokenList.trim isBlank ((v.take stop).drop pos)) := by
  -- a text of blanks has no token
  have hblank : (∀ j, pos ≤ j → j < stop → ∀ c ∈ v[j]?, c ∈ blanks) →
      TokenList.trim isBlank ((v.take stop).drop pos) = [] := by
    intro h
    refine TokenList.trim_eq_nil ?_
    intro c hc
    obtain ⟨j, h1, h2, h3⟩ := mem_slice hc
    have := h j h1 h2 c h3
    simpa [isBlank] using this
  unfold listElement
  cases hf : findFirstNotOf blanks v pos with
  | none =>
    rw [hblank fun j hj _ => findFirstNotOf_eq_none hf j hj]
    rfl
  | some f =>
    obtain ⟨hpf, hfl, hfc, hfn⟩ := findFirstNotOf_eq_some hf
    dsimp only
    by_cases hfs : f < stop
    · rw [if_pos hfs]
      obtain ⟨l, hl, h1, h2, h3, h4, h5⟩ :=
        findLastNotOf_eq_some (show f ≤ stop - 1 by omega) hfl hfc
      rw [hl]
      -- blanks, the token, blanks
      have hcut : (v.take stop).drop pos =
          (v.take f).drop pos ++ (v.take (l + 1)).drop f ++ (v.take stop).drop (l + 1) := by
        rw [slice_append v hpf (by omega) hs, slice_append v (show f ≤ l + 1 by omega)
          (show l + 1 ≤ stop by omega) hs, List.append_assoc]
      have hsub : substr v f (l - f + 1) = (v.take (l + 1)).drop f := by
        unfold substr
        rw [List.drop_take, show l + 1 - f = l - f + 1 by omega]
      have hlen : ((v.take (l + 1)).drop f).length = l + 1 - f := by
        rw [List.length_drop, List.length_take]
        omega
      have hne : (v.take (l + 1)).drop f ≠ [] := by
        intro h
        rw [h] at hlen
        simp only [List.length_nil] at hlen
        omega
      have hat : ∀ k, k < l + 1 - f → ((v.take (l + 1)).drop f)[k]? = v[f + k]? := by
        intro k hk
        rw [List.getElem?_drop, List.getElem?_take, if_pos (by omega)]
      have htrim : TokenList.trim isBlank ((v.take stop).drop pos) = (v.take (l + 1)).drop f := by
        rw [hcut]
        refine TokenList.trim_append ?_ ?_ ?_ ?_ hne
        · intro c hc
          obtain ⟨j, hj1, hj2, hj3⟩ := mem_slice hc
          simpa [isBlank] using hfn j hj2 hj1 c hj3
        · intro c hc
          obtain ⟨j, hj1, hj2, hj3⟩ := mem_slice hc
          simpa [isBlank] using h5 j (by omega) (by omega) c hj3
        · intro c hc
          rw [List.head?_eq_getElem?, hat 0 (by omega)] at hc
          simpa [isBlank] using hfc c hc
        · intro c hc
          rw [List.getLast?_eq_getElem?, hlen, hat _ (by omega),
            show f + (l + 1 - f - 1) = l by omega] at hc
          simpa [isBlank] using h4 c hc
      rw [htrim]
      simp only [Option.getD_some, hsub]
      rw [if_neg (by simpa using hne)]
    · rw [if_neg hfs, hblank fun j hj hjs => hfn j (by omega) hj]
      rfl

/-- The last token of a list. -/
theorem elements_of_find_none {v : Bytes} {pos : ℕ} (h : find [','] v pos = none) :
    TokenList.elements ',' isBlank (v.drop pos) = (listElement v pos v.length).toList := by
  have hno : ',' ∉ v.drop pos := by
    intro hmem
    obtain ⟨k, hk⟩ := List.mem_iff_getElem?.mp hmem
    rw [List.getElem?_drop] at hk
    have hlt := (List.getElem?_eq_some_iff.mp hk).1
    exact find_eq_none.mp h (pos + k) (by omega) (by omega) (singleton_prefix_drop.mpr hk)
  rw [listElement_eq (Nat.le_refl _), List.take_length, TokenList.elements_of_notMem hno]
  split
  · rfl
  · rfl

/-- A token in front of a comma, and the tokens behind it. -/
theorem elements_of_find_some {v : Bytes} {pos stop : ℕ} (h : find [','] v pos = some stop) :
    pos ≤ stop ∧ stop < v.length ∧ TokenList.elements ',' isBlank (v.drop pos) =
      (listElement v pos stop).toList ++
        TokenList.elements ',' isBlank (v.drop (stop + 1)) := by
  obtain ⟨hsl, hps, hpre, hbefore⟩ := find_eq_some.mp h
  have hat := singleton_prefix_drop.mp hpre
  have hlt := (List.getElem?_eq_some_iff.mp hat).1
  refine ⟨hps, hlt, ?_⟩
  have hcut : v.drop pos = (v.take stop).drop pos ++ ',' :: v.drop (stop + 1) := by
    have h1 := slice_append v hps hsl (Nat.le_refl _)
    rw [List.take_length] at h1
    rw [h1, List.drop_eq_getElem_cons hlt, (List.getElem?_eq_some_iff.mp hat).2]
  have hno : ',' ∉ (v.take stop).drop pos := by
    intro hmem
    obtain ⟨j, h1, h2, h3⟩ := mem_slice hmem
    exact hbefore j h2 h1 (singleton_prefix_drop.mpr h3)
  rw [hcut, TokenList.elements_append_cons, TokenList.elements_of_notMem hno,
    listElement_eq hsl]
  congr 1
  split
  · rfl
  · rfl

/-- One token that is compared with a given one. -/
theorem any_eq_token {e : Option Bytes} {token : Bytes} :
    e.any (fun e => asciiToLower e == token) = true ↔ token ∈ e.toList.map asciiToLower := by
  cases e with
  | none => simp
  | some e =>
    show (asciiToLower e == token) = true ↔ token ∈ [asciiToLower e]
    rw [beq_iff_eq, List.mem_singleton, eq_comm]

/-- The loop from a position on looks at the tokens behind it. -/
theorem hasHeaderTokenFrom_iff {v token : Bytes} {fuel pos : ℕ} (hpos : pos ≤ v.length)
    (hfuel : v.length - pos < fuel) :
    hasHeaderTokenFrom v token fuel pos = true ↔ token ∈ options (v.drop pos) := by
  induction fuel generalizing pos with
  | zero => omega
  | succ fuel ih =>
    unfold hasHeaderTokenFrom
    rw [if_pos hpos]
    cases hf : find [','] v pos with
    | none =>
      have hend : hasHeaderTokenFrom v token fuel (v.length + 1) = false := by
        cases fuel with
        | zero => rfl
        | succ n =>
          unfold hasHeaderTokenFrom
          rw [if_neg (by omega)]
      simp only [Option.getD_none]
      rw [hend, Bool.or_false, any_eq_token, options, elements_of_find_none hf]
    | some stop =>
      obtain ⟨hps, hlt, hcut⟩ := elements_of_find_some hf
      have hrest := ih (show stop + 1 ≤ v.length by omega) (by omega)
      simp only [Option.getD_some]
      rw [Bool.or_eq_true, hrest, any_eq_token, options, options, hcut, List.map_append,
        List.mem_append]

/-- Whether a list has a token. -/
theorem hasHeaderToken_iff {v token : Bytes} :
    hasHeaderToken v token = true ↔ token ∈ options v :=
  hasHeaderTokenFrom_iff (Nat.zero_le _) (by omega)

end SmartMet
