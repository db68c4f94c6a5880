/-
# The header section in front of a message

`HeadOf` cuts the bytes of a message by the grammar of a header section: a request
line that ends in a version, and the header lines up to the blank line.  Every message
with a version has one (`exists_headOf`), and the scan of the raw bytes sees of it the
version and the first `Expect` field (`HeadOf.peek`).
-/
import SmartMetServer.RequestHead

namespace SmartMet

/-! ## Lines -/

/-- A text is cut at the ends of its lines. -/
theorem exists_lines (text : Bytes) : ∃ (line : Bytes) (lines : List Bytes),
    text = line ++ lines.flatMap (crlf ++ ·) ∧ ¬ crlf <:+: line ∧
      ∀ l ∈ lines, ¬ crlf <:+: l := by
  induction text with
  | nil => exact ⟨[], [], rfl, by decide, fun l hl => by cases hl⟩
  | cons c text ih =>
    obtain ⟨line, lines, rfl, hline, hlines⟩ := ih
    by_cases hend : crlf <+: c :: line
    · -- a line ends here
      obtain ⟨line', hline'⟩ := hend
      refine ⟨[], line' :: lines, ?_, by decide, List.forall_mem_cons.mpr ⟨fun hin => ?_, hlines⟩⟩
      · rw [List.flatMap_cons, List.nil_append, hline']
        rfl
      · obtain ⟨-, hl⟩ := List.cons.inj hline'
        refine hline (hin.trans ?_)
        rw [← hl]
        exact (List.suffix_cons '\n' line').isInfix
    · refine ⟨c :: line, lines, rfl, fun hin => ?_, hlines⟩
      exact (List.infix_cons_iff.mp hin).elim hend hline

/-- The last place of a text in another. -/
theorem exists_last {pat text : Bytes} (hpat : pat ≠ []) (h : pat <:+: text) :
    ∃ front behind, text = front ++ pat ++ behind ∧ ¬ pat <:+: behind := by
  induction text with
  | nil => exact absurd (List.infix_nil.mp h) hpat
  | cons c text ih =>
    by_cases hlater : pat <:+: text
    · obtain ⟨front, behind, rfl, hlast⟩ := ih hlater
      exact ⟨c :: front, behind, rfl, hlast⟩
    · obtain ⟨behind, hb⟩ := (List.infix_cons_iff.mp h).resolve_right hlater
      refine ⟨[], behind, hb.symm, fun hin => hlater (hin.trans ?_)⟩
      obtain ⟨p, pat', rfl⟩ := List.exists_cons_of_ne_nil hpat
      rw [← (List.cons.inj hb).2]
      exact (List.suffix_append pat' behind).isInfix

/-- No line is empty in front of the first blank line. -/
theorem ne_nil_of_lines {line rest : Bytes} {lines : List Bytes}
    (h : find crlfcrlf (line ++ (lines.flatMap (crlf ++ ·) ++ (crlfcrlf ++ rest))) 0
      = some (line ++ lines.flatMap (crlf ++ ·)).length) : ∀ l ∈ lines, l ≠ [] := by
  rintro l hl rfl
  obtain ⟨before, behind, rfl⟩ := List.append_of_mem hl
  obtain ⟨-, -, -, hfirst⟩ := find_eq_some.mp h
  -- the end of the line before and what follows would be a blank line
  refine hfirst (line ++ before.flatMap (crlf ++ ·)).length ?_ (Nat.zero_le _) ?_
  · simp only [List.length_append, List.flatMap_append, List.flatMap_cons,
      show crlf.length = 2 from by decide]
    omega
  · rw [List.flatMap_append, List.flatMap_cons, List.append_assoc, ← List.append_assoc line,
      List.drop_left]
    cases behind with
    | nil => exact ⟨_, rfl⟩
    | cons l' behind => exact ⟨_, rfl⟩

/-! ## The header section of a message -/

/-- In front of `b` is a header section: its request line is `target HTTP/version`, and
these are its header lines. -/
structure HeadOf (b target version : Bytes) (lines : List Bytes) : Prop where
  front : renderHead (target ++ "HTTP/".toList ++ version) lines <+: b
  requestLine : ¬ crlf <:+: target ++ "HTTP/".toList ++ version
  last : ¬ "HTTP/".toList <:+: version
  lines : ∀ l ∈ lines, l ≠ [] ∧ ¬ crlf <:+: l

/-- The values of the `Expect` fields, in their order. -/
def expectFields (lines : List Bytes) : List Bytes := lines.filterMap expectValue

section HeadOf

variable {b c target version : Bytes} {lines : List Bytes}

/-- The blank line is found at the end of the header section. -/
theorem HeadOf.blankLine (h : HeadOf b target version lines) :
    ∃ stop, find crlfcrlf b 0 = some stop ∧
      stop + 4 = (renderHead (target ++ "HTTP/".toList ++ version) lines).length := by
  obtain ⟨rest, rfl⟩ := h.front
  refine ⟨_, find_blankLine rest h.requestLine h.lines, ?_⟩
  rw [renderHead_eq]
  simp only [List.length_append, show crlfcrlf.length = 4 from by decide]
  omega

/-- A header section has an end. -/
theorem HeadOf.isSome (h : HeadOf b target version lines) : (find crlfcrlf b 0).isSome := by
  obtain ⟨stop, hstop, -⟩ := h.blankLine
  rw [hstop]
  rfl

/-- What follows the blank line belongs to no header section. -/
theorem headOf_append (hb : (find crlfcrlf b 0).isSome) :
    HeadOf (b ++ c) target version lines ↔ HeadOf b target version lines := by
  refine ⟨fun h => ⟨?_, h.requestLine, h.last, h.lines⟩, fun h =>
    ⟨h.front.trans (List.prefix_append b c), h.requestLine, h.last, h.lines⟩⟩
  obtain ⟨stop, hstop, hlen⟩ := h.blankLine
  obtain ⟨stop', hstop'⟩ := Option.isSome_iff_exists.mp hb
  obtain rfl := Option.some.inj (hstop.symm.trans (find_append c hstop'))
  have hfits : stop + 4 ≤ b.length := by
    obtain ⟨hle, -, hp, -⟩ := find_eq_some.mp hstop'
    have := hp.length_le
    rw [List.length_drop, show crlfcrlf.length = 4 from by decide] at this
    omega
  exact List.prefix_of_prefix_length_le h.front (List.prefix_append b c) (by omega)

/-- **What the scan of the raw bytes sees**: the version, and the first `Expect` field. -/
theorem HeadOf.peek (h : HeadOf b target version lines) :
    peekRequestHead b = { complete := true
                          version := version
                          expect := (expectFields lines).head?.getD [] } := by
  obtain ⟨rest, rfl⟩ := h.front
  unfold expectFields
  rw [List.head?_filterMap]
  exact peekRequestHead_lines rest h.requestLine h.last h.lines

/-- A version is read from the request line. -/
theorem protocol_of_version {line : Bytes} {lines : List Bytes} {rest : Bytes}
    (hb : find crlfcrlf b 0 = some (line ++ lines.flatMap (crlf ++ ·)).length)
    (heq : b = line ++ (lines.flatMap (crlf ++ ·) ++ (crlfcrlf ++ rest)))
    (hline : ¬ crlf <:+: line) (hversion : (peekRequestHead b).version ≠ []) :
    "HTTP/".toList <:+: line := by
  obtain ⟨more, hmore⟩ : ∃ more, lines.flatMap (crlf ++ ·) ++ (crlfcrlf ++ rest) = crlf ++ more := by
    cases lines with
    | nil => exact ⟨_, rfl⟩
    | cons l lines => exact ⟨_, rfl⟩
  rw [hmore] at heq
  have heol : find crlf b 0 = some line.length := by
    have hfind := find_crlf_line [] more hline
    rw [List.length_nil, Nat.zero_add, List.nil_append, ← heq] at hfind
    exact hfind
  have hcr : b[line.length]? = some '\r' := by
    rw [heq, ← singleton_prefix_drop, List.drop_left]
    exact ⟨'\n' :: more, rfl⟩
  cases hr : rfind "HTTP/".toList b line.length with
  | none =>
    refine absurd ?_ hversion
    unfold peekRequestHead
    rw [hb, heol]
    dsimp only [Option.getD_some]
    rw [hr]
  | some pos =>
    have hfits := protocol_le hcr hr
    unfold rfind at hr
    have hfound := List.find?_some hr
    have hp := List.isPrefixOf_iff_prefix.mp hfound
    rw [heq, List.drop_append_of_le_length (by omega)] at hp
    have hin : "HTTP/".toList <+: line.drop pos := by
      refine List.prefix_of_prefix_length_le hp (List.prefix_append _ _) ?_
      rw [List.length_drop, show "HTTP/".toList.length = 5 from by decide]
      omega
    exact hin.isInfix.trans (List.drop_suffix pos line).isInfix

/-- **A message with a version has a header section.** -/
theorem exists_headOf (hsome : (find crlfcrlf b 0).isSome)
    (hversion : (peekRequestHead b).version ≠ []) :
    ∃ target version lines, HeadOf b target version lines := by
  obtain ⟨stop, hstop⟩ := Option.isSome_iff_exists.mp hsome
  obtain ⟨hle, -, ⟨rest, hrest⟩, -⟩ := find_eq_some.mp hstop
  obtain ⟨line, lines, htext, hline, hlines⟩ := exists_lines (b.take stop)
  have heq : b = line ++ (lines.flatMap (crlf ++ ·) ++ (crlfcrlf ++ rest)) := by
    rw [← List.append_assoc, ← htext, hrest, List.take_append_drop]
  have hlen : stop = (line ++ lines.flatMap (crlf ++ ·)).length := by
    rw [← htext, List.length_take, min_eq_left hle]
  have hfind : find crlfcrlf b 0 = some (line ++ lines.flatMap (crlf ++ ·)).length := by
    rw [hstop, hlen]
  have hprotocol := protocol_of_version hfind heq hline hversion
  obtain ⟨target, version, rfl, hlast⟩ := exists_last (by decide) hprotocol
  have hne : ∀ l ∈ lines, l ≠ [] := by
    have hcut := hfind
    rw [heq] at hcut
    exact ne_nil_of_lines hcut
  refine ⟨target, version, lines, ⟨?_, hline, hlast, fun l hl => ⟨hne l hl, hlines l hl⟩⟩⟩
  rw [heq, renderHead_eq]
  exact ⟨rest, by simp only [List.append_assoc]⟩

end HeadOf

end SmartMet
