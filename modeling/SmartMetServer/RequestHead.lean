/-
# The raw header section (`source/Utility.cpp`)

`peekRequestHead` reads selected fields straight from the raw bytes, and two
copies of one loop cut a comma separated list.  `std::string::substr` throws
behind the end of the string: `checkedToken`, `checkedListed` and `checkedHead`
are the functions with that exception.

* `list_scanner` : both loops see the elements of the list, and end;
* `peekRequestHead_render` : the fields of a header section that is rendered.
-/
import SmartMetServer.HopByHop

namespace SmartMet

/-! ## The raw bytes of a header section -/

/-- The first line of a header section ends before the section does. -/
theorem find_crlf_of_blankLine {b : Bytes} {stop pos : ℕ} (h : find crlfcrlf b 0 = some stop)
    (hpos : pos ≤ stop) : ∃ eol, find crlf b pos = some eol ∧ pos ≤ eol ∧ eol ≤ stop ∧
      b[eol]? = some '\r' ∧ stop + 4 ≤ b.length := by
  obtain ⟨hlen, -, hp, -⟩ := find_eq_some.mp h
  have hcrlf : crlf <+: b.drop stop :=
    List.IsPrefix.trans (show crlf <+: crlfcrlf by decide) hp
  have hfour : stop + 4 ≤ b.length := by
    have := hp.length_le
    rw [List.length_drop, show crlfcrlf.length = 4 from by decide] at this
    omega
  cases hf : find crlf b pos with
  | none => exact absurd hcrlf (find_eq_none.mp hf stop hlen hpos)
  | some eol =>
    obtain ⟨-, h1, h2, h3⟩ := find_eq_some.mp hf
    refine ⟨eol, rfl, h1, ?_, ?_, hfour⟩
    · by_contra hlt
      exact h3 stop (by omega) hpos hcrlf
    · rw [← singleton_prefix_drop]
      exact List.IsPrefix.trans (show ['\r'] <+: crlf by decide) h2

/-- The loop over the lines looks at nothing behind the header section. -/
theorem peekExpect_append {b : Bytes} {stop : ℕ} (c : Bytes)
    (h : find crlfcrlf b 0 = some stop) (fuel fuel' pos : ℕ) (hf : stop < pos + fuel)
    (hf' : stop < pos + fuel') :
    peekExpect (b ++ c) stop fuel pos = peekExpect b stop fuel' pos := by
  induction fuel generalizing fuel' pos with
  | zero =>
    have : ¬ pos < stop := by omega
    cases fuel' with
    | zero => rfl
    | succ fuel' => simp [peekExpect, this]
  | succ fuel ih =>
    cases fuel' with
    | zero =>
      have : ¬ pos < stop := by omega
      simp [peekExpect, this]
    | succ fuel' =>
      unfold peekExpect
      by_cases hpos : pos < stop
      · rw [if_pos hpos, if_pos hpos]
        obtain ⟨eol, heol, h1, h2, hcr, hfour⟩ := find_crlf_of_blankLine h (Nat.le_of_lt hpos)
        have hnext := ih fuel' (eol + 2) (by omega) (by omega)
        rw [heol, find_append c heol]
        dsimp only
        rw [if_neg (by omega), if_neg (by omega), hnext]
        cases hcolon : find [':'] b pos with
        | none =>
          -- a colon behind the header section belongs to no line of it
          dsimp only
          cases hcolon' : find [':'] (b ++ c) pos with
          | none => rfl
          | some colon =>
            dsimp only
            obtain ⟨-, hle, hp, -⟩ := find_eq_some.mp hcolon'
            have hfar : ¬ colon < eol := by
              intro hlt
              rw [List.drop_append_of_le_length (by omega)] at hp
              refine find_eq_none.mp hcolon colon (by omega) hle
                (List.prefix_of_prefix_length_le hp (List.prefix_append _ _) ?_)
              rw [List.length_drop, List.length_singleton]
              omega
            rw [if_neg (by simp [hfar])]
        | some colon =>
          rw [find_append c hcolon]
          obtain ⟨-, hle, -, -⟩ := find_eq_some.mp hcolon
          dsimp only
          by_cases hlt : colon < eol
          · rw [substr_append c (show pos + (colon - pos) ≤ b.length by omega)]
            split
            · -- the end of the line is no blank
              have hnot : ∀ ch ∈ b[eol]?, ch ∉ blanks := by
                intro ch hch
                rw [hcr] at hch
                obtain rfl := Option.some.inj hch
                decide
              cases hfirst : findFirstNotOf blanks b (colon + 1) with
              | none =>
                exact absurd (findFirstNotOf_eq_none hfirst eol (by omega) _ hcr)
                  (hnot _ hcr)
              | some first =>
                rw [findFirstNotOf_append c hfirst]
                dsimp only
                split
                · rename_i hfl
                  obtain ⟨-, hflen, hfnot, -⟩ := findFirstNotOf_eq_some hfirst
                  obtain ⟨last, hlast, hl1, hl2, hl3, -⟩ :=
                    findLastNotOf_eq_some (show first ≤ eol - 1 by omega) hflen hfnot
                  rw [findLastNotOf_append c (by omega), hlast]
                  exact substr_append c (show first + (last - first + 1) ≤ b.length by omega)
                · rfl
            · rfl
          · rw [if_neg (by simp [hlt]), if_neg (by simp [hlt])]
      · rw [if_neg hpos, if_neg hpos]

/-- **More bytes do not change what is peeked at.** -/
theorem peekRequestHead_append {b : Bytes} (c : Bytes) (h : (find crlfcrlf b 0).isSome) :
    peekRequestHead (b ++ c) = peekRequestHead b := by
  obtain ⟨stop, hstop⟩ := Option.isSome_iff_exists.mp h
  obtain ⟨eol, heol, -, hle, hcr, hfour⟩ := find_crlf_of_blankLine hstop (Nat.zero_le stop)
  have hrfind : rfind "HTTP/".toList (b ++ c) eol = rfind "HTTP/".toList b eol := by
    unfold rfind
    rw [List.length_append, min_eq_left (by omega : eol ≤ b.length),
      min_eq_left (by omega : eol ≤ b.length + c.length)]
    refine List.find?_congr ?_
    intro i hi
    have hi' := List.mem_range.mp (List.mem_reverse.mp hi)
    rw [List.drop_append_of_le_length (by omega)]
    rcases Nat.lt_succ_iff_lt_or_eq.mp hi' with hlt | rfl
    · -- the name of the protocol ends before the header section does
      rw [Bool.eq_iff_iff, List.isPrefixOf_iff_prefix, List.isPrefixOf_iff_prefix]
      refine ⟨fun hp => ?_, fun hp => hp.trans (List.prefix_append _ _)⟩
      refine List.prefix_of_prefix_length_le hp (List.prefix_append _ _) ?_
      rw [List.length_drop, show "HTTP/".toList.length = 5 from by decide]
      omega
    · -- it does not begin with the end of a line
      obtain ⟨t, ht⟩ : ∃ t, b.drop i = '\r' :: t := by
        rw [← List.head?_drop] at hcr
        cases hd : b.drop i with
        | nil => rw [hd] at hcr; cases hcr
        | cons d t =>
          rw [hd] at hcr
          exact ⟨t, by rw [Option.some.inj hcr]⟩
      rw [ht]
      rfl
  unfold peekRequestHead
  rw [hstop, find_append c hstop, heol, find_append c heol]
  simp only [Option.getD_some]
  rw [hrfind, peekExpect_append c hstop _ (b.length + 1) (eol + 2)
    (by rw [List.length_append]; omega) (by omega)]
  cases hv : rfind "HTTP/".toList b eol with
  | none => rfl
  | some versionPos =>
    have hvle : versionPos ≤ eol := by
      unfold rfind at hv
      have := List.mem_range.mp (List.mem_reverse.mp (List.mem_of_find?_eq_some hv))
      omega
    by_cases hshort : versionPos + 5 ≤ eol
    · dsimp only
      rw [substr_append c (show versionPos + 5 + (eol - versionPos - 5) ≤ b.length by omega)]
    · dsimp only
      rw [show eol - versionPos - 5 = 0 by omega]
      simp [substr]

/-! ## Scanning that throws -/

/-- `s.substr(start, stop - start)`, which throws if `start` lies behind the end.
The difference of the positions does not wrap. -/
def slice (s : Bytes) (start stop : ℕ) : Option Bytes :=
  if start ≤ stop ∧ start ≤ s.length then some (substr s start (stop - start)) else none

/-- The text between two positions without the blanks around it, if there is any. -/
def checkedElement (s : Bytes) (pos stop : ℕ) : Option (Option Bytes) :=
  match findFirstNotOf blanks s pos with
  | some first =>
    if first < stop then
      match findLastNotOf blanks s (stop - 1) with
      | some last => (slice s first (last + 1)).map some
      | none => none
    else some none
  | none => some none

/-- `hasHeaderToken` from a position on. -/
def checkedToken (headerValue token : Bytes) : ℕ → ℕ → Option Bool
  | 0, _ => none
  | fuel + 1, pos =>
    if pos ≤ headerValue.length then
      let stop := (find [','] headerValue pos).getD headerValue.length
      match checkedElement headerValue pos stop with
      | none => none
      | some e =>
        if e.any fun e => asciiToLower e == token then some true
        else checkedToken headerValue token fuel (stop + 1)
    else some false

/-- The loop of `stripHopByHopHeaders` from a position on. -/
def checkedListed (connection : Bytes) : ℕ → ℕ → Option (List Bytes)
  | 0, _ => none
  | fuel + 1, pos =>
    if pos ≤ connection.length then
      let stop := (find [','] connection pos).getD connection.length
      match checkedElement connection pos stop with
      | none => none
      | some e => (checkedListed connection fuel (stop + 1)).map (e.toList ++ ·)
    else some []

/-- The loop of `peekRequestHead` over the header lines. -/
def checkedExpect (buffer : Bytes) (stop : ℕ) : ℕ → ℕ → Option Bytes
  | 0, _ => none
  | fuel + 1, pos =>
    if pos < stop then
      match find crlf buffer pos with
      | none => some []
      | some lineEnd =>
        if lineEnd > stop then some []
        else
          match find [':'] buffer pos with
          | some colon =>
            if colon < lineEnd then
              match slice buffer pos colon with
              | none => none
              | some name =>
                if asciiToLower name == "expect".toList then
                  (checkedElement buffer (colon + 1) lineEnd).map fun e => e.getD []
                else checkedExpect buffer stop fuel (lineEnd + 2)
            else checkedExpect buffer stop fuel (lineEnd + 2)
          | none => checkedExpect buffer stop fuel (lineEnd + 2)
    else some []

/-- `peekRequestHead`. -/
def checkedHead (buffer : Bytes) : Option RawRequestHead :=
  match find crlfcrlf buffer 0 with
  | none => some {}
  | some stop =>
    match find crlf buffer 0 with
    | none => none
    | some eol =>
      let version :=
        match rfind "HTTP/".toList buffer eol with
        | some versionPos => slice buffer (versionPos + 5) eol
        | none => some []
      match version, checkedExpect buffer stop (buffer.length + 1) (eol + 2) with
      | some version, some expect =>
        some { complete := true, version := version, expect := expect }
      | _, _ => none

/-! ## Comma separated lists -/

/-- Neither position of an element is out of range. -/
theorem checkedElement_eq (s : Bytes) (pos stop : ℕ) :
    checkedElement s pos stop = some (listElement s pos stop) := by
  unfold checkedElement listElement
  cases hf : findFirstNotOf blanks s pos with
  | none => rfl
  | some first =>
    dsimp only
    by_cases hfs : first < stop
    · obtain ⟨-, hlen, hc, -⟩ := findFirstNotOf_eq_some hf
      obtain ⟨last, hl, hle, -⟩ :=
        findLastNotOf_eq_some (show first ≤ stop - 1 by omega) hlen hc
      rw [if_pos hfs, if_pos hfs, hl]
      dsimp only [Option.getD_some]
      unfold slice
      rw [if_pos ⟨by omega, by omega⟩, show last + 1 - first = last - first + 1 by omega]
      rfl
    · rw [if_neg hfs, if_neg hfs]

/-- The loop from a position on collects the elements behind it, and ends. -/
theorem checkedListed_eq {v : Bytes} {fuel pos : ℕ} (hpos : pos ≤ v.length + 1)
    (hfuel : v.length + 1 - pos < fuel) :
    checkedListed v fuel pos = some (TokenList.elements ',' isBlank (v.drop pos)) := by
  induction fuel generalizing pos with
  | zero => omega
  | succ fuel ih =>
    unfold checkedListed
    by_cases hle : pos ≤ v.length
    · rw [if_pos hle]
      dsimp only
      rw [checkedElement_eq]
      dsimp only
      cases hf : find [','] v pos with
      | none =>
        simp only [Option.getD_none]
        rw [ih (Nat.le_refl _) (by omega), List.drop_eq_nil_of_le (Nat.le_succ _),
          elements_of_find_none hf]
        simp [TokenList.elements_of_notMem, TokenList.trim]
      | some stop =>
        obtain ⟨hps, hlt, hcut⟩ := elements_of_find_some hf
        simp only [Option.getD_some]
        rw [ih (by omega) (by omega), hcut]
        rfl
    · rw [if_neg hle, List.drop_eq_nil_of_le (by omega)]
      simp [TokenList.elements_of_notMem, TokenList.trim]

/-- The loop from a position on finds a token behind it, and ends. -/
theorem checkedToken_eq {v token : Bytes} {fuel pos : ℕ} (hpos : pos ≤ v.length + 1)
    (hfuel : v.length + 1 - pos < fuel) :
    checkedToken v token fuel pos = some (decide (token ∈ options (v.drop pos))) := by
  have hnil : options [] = [] := rfl
  induction fuel generalizing pos with
  | zero => omega
  | succ fuel ih =>
    unfold checkedToken
    by_cases hle : pos ≤ v.length
    · -- the element in front, and the tokens behind it
      obtain ⟨stop, hstop, hle', hcut⟩ : ∃ stop,
          (find [','] v pos).getD v.length = stop ∧ stop + 1 ≤ v.length + 1 ∧ pos ≤ stop ∧
            options (v.drop pos)
              = (listElement v pos stop).toList.map asciiToLower ++ options (v.drop (stop + 1)) := by
        cases hf : find [','] v pos with
        | none =>
          refine ⟨v.length, rfl, Nat.le_refl _, hle, ?_⟩
          rw [List.drop_eq_nil_of_le (Nat.le_succ _), hnil, List.append_nil, options,
            elements_of_find_none hf]
        | some stop =>
          obtain ⟨hps, hlt, hcut⟩ := elements_of_find_some hf
          refine ⟨stop, rfl, by omega, hps, ?_⟩
          rw [options, hcut, List.map_append, options]
      rw [if_pos hle]
      dsimp only
      rw [hstop, checkedElement_eq]
      dsimp only
      rw [hcut.2]
      by_cases hany : (listElement v pos stop).any (fun e => asciiToLower e == token) = true
      · have hmem := any_eq_token.mp hany
        rw [if_pos hany, decide_eq_true (List.mem_append_left _ hmem)]
      · have hmem := fun h => hany (any_eq_token.mpr h)
        rw [if_neg hany, ih (by omega) (by omega)]
        congr 1
        apply decide_eq_decide.mpr
        rw [List.mem_append, or_iff_right hmem]
    · rw [if_neg hle, List.drop_eq_nil_of_le (by omega), hnil]
      rfl

/-- **The list scanner is exact.**  In both copies of the loop every position is in
range and the end is reached.  What is collected are the elements between the
commas, trimmed and not empty, in their order; a token in lower case is found
exactly if it is one of them, case apart. -/
theorem list_scanner (v : Bytes) {token : Bytes} (htoken : asciiToLower token = token) :
    (∀ fuel, v.length + 1 < fuel →
      checkedListed v fuel 0 = some (TokenList.elements ',' isBlank v) ∧
      ∃ found, checkedToken v token fuel 0 = some found ∧
        (found = true ↔ ∃ e ∈ TokenList.elements ',' isBlank v,
          asciiToLower e = asciiToLower token)) ∧
      AsyncConnection.listedFrom v (v.length + 1) 0 = TokenList.elements ',' isBlank v ∧
      (hasHeaderToken v token = true ↔ ∃ e ∈ TokenList.elements ',' isBlank v,
        asciiToLower e = asciiToLower token) := by
  have hmem : token ∈ options v ↔ ∃ e ∈ TokenList.elements ',' isBlank v,
      asciiToLower e = asciiToLower token := by
    rw [htoken]
    exact List.mem_map
  refine ⟨?_, ?_, ?_⟩
  · intro fuel hfuel
    constructor
    · rw [checkedListed_eq (Nat.zero_le _) (by omega), List.drop_zero]
    · refine ⟨_, checkedToken_eq (Nat.zero_le _) (by omega), ?_⟩
      rw [decide_eq_true_iff, List.drop_zero]
      exact hmem
  · rw [AsyncConnection.listedFrom_eq (Nat.zero_le _) (by omega), List.drop_zero]
  · rw [hasHeaderToken_iff]
    exact hmem

/-- A list with empty elements, blanks and a comma at its end. -/
theorem list_scanner_trailing_comma :
    asciiToLower "close".toList = "close".toList ∧
      checkedListed "Keep-Alive ,\t, CLOSE,".toList 25 0
        = some ["Keep-Alive".toList, "CLOSE".toList] ∧
      hasHeaderToken "Keep-Alive ,\t, CLOSE,".toList "close".toList = true := by
  have hlower : asciiToLower "close".toList = "close".toList := by decide
  obtain ⟨hchecked, -, hhas⟩ := list_scanner "Keep-Alive ,\t, CLOSE,".toList hlower
  have helements : TokenList.elements ',' isBlank "Keep-Alive ,\t, CLOSE,".toList
      = ["Keep-Alive".toList, "CLOSE".toList] := by decide +kernel
  refine ⟨hlower, ?_, hhas.mpr ⟨"CLOSE".toList, ?_, by decide⟩⟩
  · rw [(hchecked 25 (by decide)).1, helements]
  · rw [helements]
    exact List.mem_cons_of_mem _ List.mem_cons_self

/-! ## Positions in a header section -/

/-- The loop over the header lines stays within the string, and ends. -/
theorem checkedExpect_eq {b : Bytes} {stop : ℕ} (h : find crlfcrlf b 0 = some stop)
    {fuel pos : ℕ} (hone : 0 < fuel) (hfuel : stop < pos + fuel) :
    checkedExpect b stop fuel pos = some (peekExpect b stop fuel pos) := by
  induction fuel generalizing pos with
  | zero => omega
  | succ fuel ih =>
    unfold checkedExpect peekExpect
    by_cases hpos : pos < stop
    · obtain ⟨lineEnd, hline, h1, h2, -, hfour⟩ := find_crlf_of_blankLine h (Nat.le_of_lt hpos)
      have hnext : checkedExpect b stop fuel (lineEnd + 2) =
          some (peekExpect b stop fuel (lineEnd + 2)) := ih (by omega) (by omega)
      rw [if_pos hpos, if_pos hpos, hline]
      dsimp only
      rw [if_neg (by omega), if_neg (by omega)]
      cases hc : find [':'] b pos with
      | none => exact hnext
      | some colon =>
        obtain ⟨hlen, hle, -⟩ := find_eq_some.mp hc
        dsimp only
        by_cases hlt : colon < lineEnd
        · unfold slice
          rw [if_pos hlt, if_pos ⟨hle, by omega⟩]
          dsimp only
          by_cases hname : asciiToLower (substr b pos (colon - pos)) == "expect".toList
          · rw [if_pos hname, if_pos ((Bool.and_eq_true _ _).mpr ⟨decide_eq_true hlt, hname⟩),
              checkedElement_eq]
            unfold listElement
            cases findFirstNotOf blanks b (colon + 1) with
            | none => rfl
            | some first =>
              dsimp only
              split
              · rfl
              · rfl
          · rw [if_neg hname, if_neg fun h => hname ((Bool.and_eq_true _ _).mp h).2]
            exact hnext
        · rw [if_neg hlt, if_neg (by simp [hlt])]
          exact hnext
    · rw [if_neg hpos, if_neg hpos]

/-- The name of the protocol ends in front of the end of its line. -/
theorem protocol_le {b : Bytes} {eol versionPos : ℕ} (hcr : b[eol]? = some '\r')
    (h : rfind "HTTP/".toList b eol = some versionPos) : versionPos + 5 ≤ eol := by
  unfold rfind at h
  have hmem := List.mem_range.mp (List.mem_reverse.mp (List.mem_of_find?_eq_some h))
  have hfound := List.find?_some h
  have hp := List.isPrefixOf_iff_prefix.mp hfound
  by_contra hlt
  -- one of its five characters would be the carriage return
  obtain ⟨d, hd, hd5⟩ : ∃ d, eol = versionPos + d ∧ d < 5 := ⟨eol - versionPos, by omega, by omega⟩
  have hat : "HTTP/".toList[d]? = some '\r' := by
    obtain ⟨t, ht⟩ := hp
    rw [hd, ← List.getElem?_drop, ← ht, List.getElem?_append_left hd5] at hcr
    exact hcr
  have hmem := List.mem_of_getElem? hat
  exact absurd hmem (by decide)

/-- **No position of `peekRequestHead` is out of range.** -/
theorem checkedHead_eq (b : Bytes) : checkedHead b = some (peekRequestHead b) := by
  unfold checkedHead peekRequestHead
  cases hstop : find crlfcrlf b 0 with
  | none => rfl
  | some stop =>
    obtain ⟨eol, heol, -, hle, hcr, hfour⟩ := find_crlf_of_blankLine hstop (Nat.zero_le stop)
    rw [heol]
    dsimp only [Option.getD_some]
    rw [checkedExpect_eq hstop (Nat.succ_pos _) (by omega)]
    cases hv : rfind "HTTP/".toList b eol with
    | none => rfl
    | some versionPos =>
      have hshort := protocol_le hcr hv
      dsimp only
      unfold slice
      rw [if_pos ⟨hshort, by omega⟩, show eol - (versionPos + 5) = eol - versionPos - 5 by omega]

/-! ## Rendered header sections -/

/-- Header lines, each with the end of its line. -/
def renderLines (lines : List Bytes) : Bytes := lines.flatMap fun l => l ++ crlf

/-- A request line, header lines and the blank line. -/
def renderHead (requestLine : Bytes) (lines : List Bytes) : Bytes :=
  requestLine ++ crlf ++ renderLines lines ++ crlf

/-- The text in front of the first colon of a header line. -/
def fieldName (line : Bytes) : Bytes := line.takeWhile (· != ':')

/-- The value of a header line whose name is `Expect`. -/
def expectValue (line : Bytes) : Option Bytes :=
  if ':' ∈ line ∧ asciiToLower (fieldName line) = "expect".toList then
    some (TokenList.trim isBlank (line.drop ((fieldName line).length + 1)))
  else none

/-- The two characters of a line's end. -/
theorem crlf_eq : crlf = ['\r', '\n'] := by decide

/-- What is left behind a prefix and `k` characters. -/
theorem drop_length_add {α : Type*} (l m : List α) (k : ℕ) :
    (l ++ m).drop (l.length + k) = m.drop k := by
  rw [← List.drop_drop, List.drop_left]

/-- A line that is free of line ends has none in front of its own. -/
theorem not_crlf_in_line {line rest : Bytes} (h : ¬ crlf <:+: line)
    (hrest : rest.head? = some '\r') {k : ℕ} (hk : k < line.length) :
    ¬ crlf <+: (line ++ rest).drop k := by
  intro hp
  rw [List.drop_append_of_le_length (Nat.le_of_lt hk)] at hp
  cases hd : line.drop k with
  | nil =>
    have := congrArg List.length hd
    rw [List.length_drop, List.length_nil] at this
    omega
  | cons c m =>
    rw [hd, crlf_eq] at hp
    obtain ⟨hc, hp⟩ := List.cons_prefix_cons.mp hp
    cases m with
    | nil =>
      -- the line feed would be the first character behind the line
      obtain ⟨t, ht⟩ := hp
      rw [← show ['\n'] ++ t = rest from ht] at hrest
      exact absurd hrest (by simp)
    | cons d m =>
      obtain ⟨hd', -⟩ := List.cons_prefix_cons.mp hp
      have hin : crlf <+: line.drop k := by
        rw [hd, crlf_eq, ← hc, ← hd']
        exact ⟨m, rfl⟩
      exact h (hin.isInfix.trans (List.drop_suffix _ _).isInfix)

/-- The end of a line is found. -/
theorem find_crlf_line (pre : Bytes) {line : Bytes} (rest : Bytes) (h : ¬ crlf <:+: line) :
    find crlf (pre ++ (line ++ (crlf ++ rest))) pre.length
      = some (pre.length + line.length) := by
  refine find_eq_some.mpr ⟨?_, Nat.le_add_right _ _, ?_, ?_⟩
  · simp only [List.length_append]
    omega
  · rw [drop_length_add, List.drop_left]
    exact List.prefix_append _ _
  · intro j hj hpos
    obtain ⟨k, rfl⟩ := Nat.exists_eq_add_of_le hpos
    rw [drop_length_add]
    exact not_crlf_in_line h rfl (by omega)

/-- Behind a line comes the end of a line. -/
theorem head_lines (lines : List Bytes) (rest : Bytes) :
    (lines.flatMap (crlf ++ ·) ++ (crlfcrlf ++ rest)).head? = some '\r' := by
  cases lines with
  | nil => rfl
  | cons l lines => rfl

/-- No blank line stands in front of the one at the end. -/
theorem not_blankLine {line : Bytes} {lines : List Bytes} (rest : Bytes) (hline : ¬ crlf <:+: line)
    (hlines : ∀ l ∈ lines, l ≠ [] ∧ ¬ crlf <:+: l) {k : ℕ}
    (hk : k < (line ++ lines.flatMap (crlf ++ ·)).length) :
    ¬ crlfcrlf <+: (line ++ (lines.flatMap (crlf ++ ·) ++ (crlfcrlf ++ rest))).drop k := by
  have hcrlf : crlf <+: crlfcrlf := by decide
  induction lines generalizing line k with
  | nil =>
    intro hp
    rw [List.flatMap_nil, List.append_nil] at hk
    exact not_crlf_in_line hline (head_lines [] rest) hk (hcrlf.trans hp)
  | cons l lines ih =>
    intro hp
    obtain ⟨⟨hne, hl⟩, hrest⟩ := List.forall_mem_cons.mp hlines
    rcases Nat.lt_or_ge k line.length with hlt | hge
    · exact not_crlf_in_line hline (head_lines (l :: lines) rest) hlt (hcrlf.trans hp)
    · obtain ⟨d, rfl⟩ := Nat.exists_eq_add_of_le hge
      rw [drop_length_add, List.flatMap_cons, List.append_assoc, List.append_assoc] at hp
      rcases d with _ | _ | d
      · -- the next line would begin with the end of a line
        have hnext : crlf <+: (l ++ (lines.flatMap (crlf ++ ·) ++ (crlfcrlf ++ rest))).drop 0 :=
          (List.prefix_append_right_inj crlf).mp hp
        exact not_crlf_in_line hl (head_lines lines rest) (List.length_pos_iff.mpr hne) hnext
      · have h : crlfcrlf <+: '\n' :: (l ++ (lines.flatMap (crlf ++ ·) ++ (crlfcrlf ++ rest))) := hp
        exact absurd (List.cons_prefix_cons.mp h).1 (by decide)
      · refine ih hl hrest ?_ hp
        simp only [List.length_append, List.flatMap_cons, show crlf.length = 2 by decide] at hk ⊢
        omega

/-- The end of a line may stand in front of each line or behind it. -/
theorem crlf_renderLines (lines : List Bytes) :
    crlf ++ renderLines lines = lines.flatMap (crlf ++ ·) ++ crlf := by
  unfold renderLines
  induction lines with
  | nil => rfl
  | cons l lines ih =>
    rw [List.flatMap_cons, List.flatMap_cons, List.append_assoc, List.append_assoc, ← ih]
    simp only [List.append_assoc]

/-- A line takes a character at least. -/
theorem length_le_renderLines (lines : List Bytes) : lines.length ≤ (renderLines lines).length := by
  unfold renderLines
  induction lines with
  | nil => exact Nat.le_refl _
  | cons l lines ih =>
    rw [List.flatMap_cons, List.length_append, List.length_append, List.length_cons,
      show crlf.length = 2 by decide]
    omega

/-- The header section, with the ends of lines in front. -/
theorem renderHead_eq (requestLine : Bytes) (lines : List Bytes) :
    renderHead requestLine lines = requestLine ++ (lines.flatMap (crlf ++ ·) ++ crlfcrlf) := by
  unfold renderHead
  rw [List.append_assoc requestLine, crlf_renderLines, List.append_assoc, List.append_assoc]
  rfl

/-- A line with a colon. -/
theorem fieldName_append {name : Bytes} (value : Bytes) (h : ':' ∉ name) :
    fieldName (name ++ ':' :: value) = name := by
  unfold fieldName
  have hall : ∀ c ∈ name, (c != ':') = true := by
    intro c hc
    simp only [bne_iff_ne, ne_eq]
    rintro rfl
    exact h hc
  rw [List.takeWhile_append_of_pos hall, List.takeWhile_cons_of_neg (by simp), List.append_nil]

/-- A first colon in a line is found, and one behind it does not count. -/
theorem find_colon (pre name rest : Bytes) (h : ':' ∉ name) :
    find [':'] (pre ++ (name ++ ':' :: rest)) pre.length = some (pre.length + name.length) := by
  refine find_eq_some.mpr ⟨?_, Nat.le_add_right _ _, ?_, ?_⟩
  · simp only [List.length_append]
    omega
  · rw [drop_length_add, List.drop_left]
    exact ⟨rest, rfl⟩
  · intro j hj hpos hp
    obtain ⟨k, rfl⟩ := Nat.exists_eq_add_of_le hpos
    rw [drop_length_add, singleton_prefix_drop, List.getElem?_append_left (by omega)] at hp
    exact h (List.mem_of_getElem? hp)

/-- The search for a colon passes a line without one. -/
theorem le_of_find_colon {pre line rest : Bytes} (h : ':' ∉ line) {colon : ℕ}
    (hc : find [':'] (pre ++ (line ++ rest)) pre.length = some colon) :
    pre.length + line.length ≤ colon := by
  obtain ⟨-, hpos, hp, -⟩ := find_eq_some.mp hc
  by_contra hlt
  obtain ⟨k, rfl⟩ := Nat.exists_eq_add_of_le hpos
  rw [drop_length_add, singleton_prefix_drop, List.getElem?_append_left (by omega)] at hp
  exact h (List.mem_of_getElem? hp)

/-- The text behind the colon of a line. -/
theorem drop_take_value (pre name value rest : Bytes) :
    ((pre ++ (name ++ ':' :: value ++ rest)).take (pre.length + (name ++ ':' :: value).length)).drop
      (pre.length + name.length + 1) = value := by
  rw [List.take_length_add_append, List.take_left, Nat.add_assoc, drop_length_add, drop_length_add]
  rfl

/-- The text between two positions, trimmed. -/
theorem listElement_getD {b v : Bytes} {pos stop : ℕ} (hs : stop ≤ b.length)
    (hv : (b.take stop).drop pos = v) :
    (listElement b pos stop).getD [] = TokenList.trim isBlank v := by
  rw [listElement_eq hs, hv]
  split
  · rename_i hempty
    rw [List.isEmpty_iff.mp hempty]
    rfl
  · rfl

/-- The loop over the header lines finds the first one named `Expect`. -/
theorem peekExpect_lines {lines : List Bytes} (rest : Bytes)
    (hlines : ∀ l ∈ lines, l ≠ [] ∧ ¬ crlf <:+: l) {pre : Bytes} {fuel stop : ℕ}
    (hfuel : lines.length < fuel) (hstop : stop + 2 = pre.length + (renderLines lines).length) :
    peekExpect (pre ++ (renderLines lines ++ (crlf ++ rest))) stop fuel pre.length
      = (lines.findSome? expectValue).getD [] := by
  have htwo : crlf.length = 2 := by decide
  induction lines generalizing pre fuel with
  | nil =>
    cases fuel with
    | zero => rfl
    | succ fuel =>
      have hend : stop + 2 = pre.length := hstop
      unfold peekExpect
      rw [if_neg (by omega)]
      rfl
  | cons l lines ih =>
    obtain ⟨⟨hne, hl⟩, hrest⟩ := List.forall_mem_cons.mp hlines
    cases fuel with
    | zero => omega
    | succ fuel =>
      have hlen : (renderLines (l :: lines)).length
          = l.length + 2 + (renderLines lines).length := by
        show ((l ++ crlf) ++ renderLines lines).length = _
        rw [List.length_append, List.length_append, htwo]
      have hpos := List.length_pos_iff.mpr hne
      have hb : renderLines (l :: lines) ++ (crlf ++ rest)
          = l ++ (crlf ++ (renderLines lines ++ (crlf ++ rest))) := by
        show ((l ++ crlf) ++ renderLines lines) ++ _ = _
        simp only [List.append_assoc]
      -- the lines behind this one
      have hnext : peekExpect (pre ++ (l ++ (crlf ++ (renderLines lines ++ (crlf ++ rest)))))
          stop fuel (pre.length + l.length + 2) = (lines.findSome? expectValue).getD [] := by
        have hpre : (pre ++ l ++ crlf).length = pre.length + l.length + 2 := by
          rw [List.length_append, List.length_append, htwo]
        have hgo := @ih hrest (pre ++ l ++ crlf) fuel
          (by rw [List.length_cons] at hfuel; omega) (by rw [hpre]; omega)
        rw [hpre] at hgo
        rw [← hgo]
        simp only [List.append_assoc]
      rw [hb]
      unfold peekExpect
      rw [if_pos (by omega), find_crlf_line pre _ hl]
      dsimp only
      rw [if_neg (by omega), List.findSome?_cons]
      by_cases hcolon : ':' ∈ l
      · obtain ⟨name, value, rfl, hname⟩ := List.eq_append_cons_of_mem hcolon
        have hfirst : fieldName (name ++ ':' :: value) = name := fieldName_append value hname
        have hfind := find_colon pre name
          (value ++ (crlf ++ (renderLines lines ++ (crlf ++ rest)))) hname
        rw [← List.cons_append, ← List.append_assoc name] at hfind
        have hsub : substr (pre ++ (name ++ ':' :: value ++ (crlf ++ (renderLines lines ++
            (crlf ++ rest))))) pre.length (pre.length + name.length - pre.length) = name := by
          unfold substr
          rw [List.drop_left, Nat.add_sub_cancel_left, List.append_assoc, List.take_left]
        have hlt : pre.length + name.length < pre.length + (name ++ ':' :: value).length := by
          rw [List.length_append, List.length_cons]
          omega
        rw [hfind]
        dsimp only
        rw [hsub, decide_eq_true hlt, Bool.true_and]
        unfold expectValue
        rw [hfirst]
        by_cases hexpect : asciiToLower name = "expect".toList
        · rw [if_pos (beq_iff_eq.mpr hexpect), if_pos ⟨hcolon, hexpect⟩]
          have hvalue := listElement_getD (by simp only [List.length_append]; omega)
            (drop_take_value pre name value (crlf ++ (renderLines lines ++ (crlf ++ rest))))
          have hrest : (name ++ ':' :: value).drop (name.length + 1) = value := by
            rw [drop_length_add]
            rfl
          rw [hrest]
          show _ = TokenList.trim isBlank value
          rw [← hvalue]
          unfold listElement
          cases findFirstNotOf blanks (pre ++ (name ++ ':' :: value ++ (crlf ++ (renderLines lines ++
              (crlf ++ rest))))) (pre.length + name.length + 1) with
          | none => rfl
          | some first =>
            dsimp only
            split
            · rfl
            · rfl
        · rw [if_neg (fun h => hexpect (beq_iff_eq.mp h)), if_neg (fun h => hexpect h.2)]
          exact hnext
      · have hnone : expectValue l = none := if_neg fun h => hcolon h.1
        rw [hnone]
        cases hc : find [':'] (pre ++ (l ++ (crlf ++ (renderLines lines ++ (crlf ++ rest)))))
            pre.length with
        | none => exact hnext
        | some colon =>
          have hle := le_of_find_colon hcolon hc
          dsimp only
          rw [decide_eq_false (by omega), Bool.false_and, if_neg Bool.false_ne_true]
          exact hnext

/-- The version of a request line is what stands behind the last `HTTP/`. -/
theorem rfind_protocol {target version rest : Bytes} (hversion : ¬ "HTTP/".toList <:+: version) :
    rfind "HTTP/".toList (target ++ ("HTTP/".toList ++ (version ++ (crlf ++ rest))))
      (target.length + 5 + version.length) = some target.length := by
  have hfive : "HTTP/".toList.length = 5 := by decide
  have hcr : (target ++ ("HTTP/".toList ++ (version ++ (crlf ++ rest))))[
      target.length + 5 + version.length]? = some '\r' := by
    rw [← singleton_prefix_drop, Nat.add_assoc, drop_length_add, ← hfive, drop_length_add,
      List.drop_left]
    exact ⟨'\n' :: rest, rfl⟩
  have hlen := (List.getElem?_eq_some_iff.mp hcr).1
  obtain ⟨l, hl, hle, hlt, hp, -⟩ := find?_reverse_range
    (p := fun i => "HTTP/".toList.isPrefixOf
      ((target ++ ("HTTP/".toList ++ (version ++ (crlf ++ rest)))).drop i))
    (i := target.length) (n := target.length + 5 + version.length + 1) (by omega)
    (by
      rw [List.isPrefixOf_iff_prefix, List.drop_left]
      exact List.prefix_append _ _)
  have hrfind : rfind "HTTP/".toList (target ++ ("HTTP/".toList ++ (version ++ (crlf ++ rest))))
      (target.length + 5 + version.length) = some l := by
    unfold rfind
    rw [min_eq_left (Nat.le_of_lt hlen)]
    exact hl
  have hfits := protocol_le hcr hrfind
  rw [hrfind]
  obtain ⟨d, rfl⟩ := Nat.exists_eq_add_of_le hle
  rw [List.isPrefixOf_iff_prefix, drop_length_add] at hp
  by_contra hd
  have hd0 : d ≠ 0 := by
    rintro rfl
    exact hd rfl
  rcases Nat.lt_or_ge d 5 with hlt5 | hge5
  · -- only the first of the five characters is an `H`
    have hH : "HTTP/".toList[d]? = some 'H' := by
      have h1 := (List.IsPrefix.trans (show ['H'] <+: "HTTP/".toList by decide) hp)
      rwa [singleton_prefix_drop, List.getElem?_append_left (by omega)] at h1
    have hother : ∀ k < 5, k ≠ 0 → "HTTP/".toList[k]? ≠ some 'H' := by decide
    exact hother d hlt5 hd0 hH
  · -- it would be part of the version
    obtain ⟨k, rfl⟩ := Nat.exists_eq_add_of_le hge5
    rw [← hfive, drop_length_add, List.drop_append_of_le_length (by omega)] at hp
    have hin : "HTTP/".toList <+: version.drop k := by
      refine List.prefix_of_prefix_length_le hp (List.prefix_append _ _) ?_
      rw [hfive, List.length_drop]
      omega
    exact hversion (hin.isInfix.trans (List.drop_suffix _ _).isInfix)

/-- The first blank line of a rendered header section ends it. -/
theorem find_blankLine {line : Bytes} {lines : List Bytes} (rest : Bytes) (hline : ¬ crlf <:+: line)
    (hlines : ∀ l ∈ lines, l ≠ [] ∧ ¬ crlf <:+: l) :
    find crlfcrlf (renderHead line lines ++ rest) 0
      = some (line ++ lines.flatMap (crlf ++ ·)).length := by
  have hfront : renderHead line lines ++ rest
      = line ++ (lines.flatMap (crlf ++ ·) ++ (crlfcrlf ++ rest)) := by
    rw [renderHead_eq]
    simp only [List.append_assoc]
  rw [hfront]
  refine find_eq_some.mpr ⟨?_, Nat.zero_le _, ?_, fun j hj _ => not_blankLine rest hline hlines hj⟩
  · simp only [List.length_append]
    omega
  · rw [← List.append_assoc, List.drop_left]
    exact List.prefix_append _ _

/-- What `peekRequestHead` returns of a rendered header section. -/
theorem peekRequestHead_lines {target version : Bytes} {lines : List Bytes} (rest : Bytes)
    (hline : ¬ crlf <:+: target ++ "HTTP/".toList ++ version)
    (hversion : ¬ "HTTP/".toList <:+: version) (hlines : ∀ l ∈ lines, l ≠ [] ∧ ¬ crlf <:+: l) :
    peekRequestHead (renderHead (target ++ "HTTP/".toList ++ version) lines ++ rest)
      = { complete := true
          version := version
          expect := (lines.findSome? expectValue).getD [] } := by
  have hfive : "HTTP/".toList.length = 5 := by decide
  have htwo : crlf.length = 2 := by decide
  have hlen : (target ++ "HTTP/".toList ++ version).length
      = target.length + 5 + version.length := by
    rw [List.length_append, List.length_append, hfive]
  have hstop := find_blankLine rest hline hlines
  generalize hq : target ++ "HTTP/".toList ++ version = line at hline hlen hstop ⊢
  have hlines' : renderHead line lines ++ rest
      = (line ++ crlf) ++ (renderLines lines ++ (crlf ++ rest)) := by
    unfold renderHead
    simp only [List.append_assoc]
  have heol : find crlf (renderHead line lines ++ rest) 0 = some line.length := by
    have hfind := find_crlf_line [] (renderLines lines ++ (crlf ++ rest)) hline
    rw [List.length_nil, Nat.zero_add, List.nil_append, ← List.append_assoc, ← hlines'] at hfind
    exact hfind
  have hprotocol : rfind "HTTP/".toList (renderHead line lines ++ rest) line.length
      = some target.length := by
    have hfind := @rfind_protocol target _ (renderLines lines ++ (crlf ++ rest)) hversion
    rw [hlen, hlines', ← hq]
    simp only [List.append_assoc] at hfind ⊢
    exact hfind
  have hexpect : peekExpect (renderHead line lines ++ rest)
      (line ++ lines.flatMap (crlf ++ ·)).length ((renderHead line lines ++ rest).length + 1)
      (line.length + 2) = (lines.findSome? expectValue).getD [] := by
    have hshift := congrArg List.length (crlf_renderLines lines)
    rw [List.length_append, List.length_append, htwo] at hshift
    have hpre : (line ++ crlf).length = line.length + 2 := by
      rw [List.length_append, htwo]
    rw [hlines', ← hpre]
    refine peekExpect_lines rest hlines ?_ ?_
    · have := length_le_renderLines lines
      simp only [List.length_append]
      omega
    · rw [hpre, List.length_append]
      omega
  have htext : substr (renderHead line lines ++ rest) (target.length + 5)
      (line.length - target.length - 5) = version := by
    unfold substr
    rw [hlen, show target.length + 5 + version.length - target.length - 5 = version.length by omega,
      hlines', ← hq, ← hfive]
    simp only [List.append_assoc]
    rw [drop_length_add, List.drop_left, List.take_left]
  unfold peekRequestHead
  rw [hstop, heol]
  dsimp only [Option.getD_some]
  rw [hprotocol, hexpect]
  dsimp only
  rw [htext]

/-- **`peekRequestHead` agrees with the grammar of a header section.**  No position is
out of range, whatever the bytes are, and the head is complete exactly if there
is a blank line.  Of a rendered header section it returns the version of the
request line, and the value of the first header line named `Expect`; what
follows the blank line has no influence. -/
theorem peekRequestHead_render :
    (∀ buffer, checkedHead buffer = some (peekRequestHead buffer) ∧
      ((peekRequestHead buffer).complete = true ↔ crlfcrlf <:+: buffer)) ∧
    ∀ (target version : Bytes) (lines : List Bytes) (rest : Bytes),
      ¬ crlf <:+: target ++ "HTTP/".toList ++ version → ¬ "HTTP/".toList <:+: version →
      (∀ l ∈ lines, l ≠ [] ∧ ¬ crlf <:+: l) →
      peekRequestHead (renderHead (target ++ "HTTP/".toList ++ version) lines ++ rest)
        = { complete := true
            version := version
            expect := (lines.findSome? expectValue).getD [] } := by
  constructor
  · intro buffer
    refine ⟨checkedHead_eq buffer, ?_⟩
    rw [← find_isSome]
    unfold peekRequestHead
    cases find crlfcrlf buffer 0 with
    | none => simp
    | some stop => simp
  · intro target version lines rest hline hversion hlines
    exact peekRequestHead_lines rest hline hversion hlines

/-- A request with the expectation in capitals, and bytes behind it. -/
theorem peekRequestHead_render_expect :
    peekRequestHead (renderHead "PUT /x HTTP/1.1".toList
      ["Host: h".toList, "EXPECT:\t100-continue ".toList] ++ "Expect: body".toList)
      = { complete := true, version := "1.1".toList, expect := "100-continue".toList } := by
  have hline : ¬ crlf <:+: "PUT /x ".toList ++ "HTTP/".toList ++ "1.1".toList := by decide +kernel
  have hversion : ¬ "HTTP/".toList <:+: "1.1".toList := by decide +kernel
  have hlines : ∀ l ∈ ["Host: h".toList, "EXPECT:\t100-continue ".toList],
      l ≠ [] ∧ ¬ crlf <:+: l := by decide +kernel
  have h := peekRequestHead_render.2 _ _ _ "Expect: body".toList hline hversion hlines
  exact h

end SmartMet
