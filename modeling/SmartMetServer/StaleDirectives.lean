/-
# The stale directives of `Cache-Control`

`appendStaleDirectives` searches a `Cache-Control` value for two texts, while the
policy it stands for is about directives: `Cacheable`.  The two agree on every value
that is not `Misjudged`, and `stale_directives_follow` says that they agree on no other.
-/
import SmartMetServer.MinimalSpine
import SmartMetServer.ServerHeaders

namespace SmartMet

/-! ## Directives -/

/-- The directives of a `Cache-Control` value. -/
def directives (cc : Bytes) : List Bytes := TokenList.elements ',' isBlank cc

/-- The name of a directive, in lower case. -/
def directiveName (d : Bytes) : Bytes := asciiToLower (d.takeWhile (· != '='))

/-- The value has a directive of this name. -/
def Directs (cc name : Bytes) : Prop := ∃ d ∈ directives cc, directiveName d = name

/-- The value has a stale directive of its own. -/
def DirectsStale (cc : Bytes) : Prop := ∃ d ∈ directives cc, "stale-".toList <+: directiveName d

/-- The values that stale directives belong to. -/
def Cacheable (cc : Bytes) : Prop :=
  Directs cc "max-age".toList ∧ ¬ Directs cc "no-cache".toList ∧
    ¬ Directs cc "no-store".toList ∧ ¬ DirectsStale cc

/-- The texts stand as they should, but not for the directives: `max-age` is part of
something else, the value forbids a cache to store or to reuse the response, or a stale
directive is spelled with capitals. -/
def TakenForCacheable (cc : Bytes) : Prop :=
  "max-age".toList <:+: cc ∧ ¬ "stale-".toList <:+: cc ∧
    (¬ Directs cc "max-age".toList ∨ Directs cc "no-cache".toList ∨
      Directs cc "no-store".toList ∨ DirectsStale cc)

/-- The directives are those of the policy, but `max-age` is spelled with capitals, or
`stale-` is part of something else. -/
def PassedOver (cc : Bytes) : Prop :=
  Cacheable cc ∧ (¬ "max-age".toList <:+: cc ∨ "stale-".toList <:+: cc)

/-- The search by substrings judges the field otherwise than the policy. -/
def Misjudged (cc : Bytes) : Prop := TakenForCacheable cc ∨ PassedOver cc

section Decidable

/-- The search of `find`; the instance of the library evaluates slowly. -/
local instance decidableOccurs (pat s : Bytes) : Decidable (pat <:+: s) :=
  decidable_of_iff _ find_isSome

variable (cc : Bytes)

instance (name : Bytes) : Decidable (Directs cc name) :=
  inferInstanceAs (Decidable (∃ d ∈ directives cc, directiveName d = name))

instance : Decidable (DirectsStale cc) :=
  inferInstanceAs (Decidable (∃ d ∈ directives cc, "stale-".toList <+: directiveName d))

instance : Decidable (Cacheable cc) :=
  inferInstanceAs (Decidable (Directs cc "max-age".toList ∧ ¬ Directs cc "no-cache".toList ∧
    ¬ Directs cc "no-store".toList ∧ ¬ DirectsStale cc))

instance : Decidable (TakenForCacheable cc) :=
  inferInstanceAs (Decidable ("max-age".toList <:+: cc ∧ ¬ "stale-".toList <:+: cc ∧
    (¬ Directs cc "max-age".toList ∨ Directs cc "no-cache".toList ∨
      Directs cc "no-store".toList ∨ DirectsStale cc)))

instance : Decidable (PassedOver cc) :=
  inferInstanceAs (Decidable (Cacheable cc ∧
    (¬ "max-age".toList <:+: cc ∨ "stale-".toList <:+: cc)))

instance : Decidable (Misjudged cc) :=
  inferInstanceAs (Decidable (TakenForCacheable cc ∨ PassedOver cc))

end Decidable

/-- One value of each kind; capitals and blanks do not matter to the policy. -/
example : TakenForCacheable "no-cache, max-age=60".toList ∧
    PassedOver "public ,Max-Age=60".toList ∧
    ¬ Misjudged "public, max-age=60".toList ∧ ¬ Misjudged "No-Cache".toList := by
  decide

theorem toDecimal_isDigit {n : ℕ} {c : Char} (h : c ∈ toDecimal n) : c.isDigit = true :=
  Nat.isDigit_of_mem_toDigits (by decide) (by decide) h

/-- A directive with a number, at the end of a value. -/
theorem directives_append {name : Bytes} (cc : Bytes) (n : ℕ)
    (hname : name.all (fun c => !isBlank c && c != ',') = true) (hne : name ≠ []) :
    directives (cc ++ ',' :: ([' '] ++ (name ++ toDecimal n))) =
      directives cc ++ [name ++ toDecimal n] := by
  have hdigit : ∀ c : Char, c.isDigit = true → isBlank c = false ∧ c ≠ ',' := by
    intro c hc
    constructor
    · rw [← Bool.not_eq_true]
      intro hb
      have hmem : c = ' ' ∨ c = '\t' := by simpa [isBlank, blanks] using hb
      rcases hmem with rfl | rfl
      · exact absurd hc (by decide)
      · exact absurd hc (by decide)
    · rintro rfl
      exact absurd hc (by decide)
  have hall : ∀ c ∈ name ++ toDecimal n, isBlank c = false ∧ c ≠ ',' := by
    intro c hc
    rcases List.mem_append.mp hc with hc | hc
    · simpa using List.all_eq_true.mp hname c hc
    · exact hdigit c (toDecimal_isDigit hc)
  refine TokenList.elements_append_token cc ?_ ?_ ?_ ?_ ?_
  · intro c hc
    obtain rfl := List.mem_singleton.mp hc
    decide
  · intro hc
    rcases List.mem_append.mp hc with hc | hc
    · exact absurd hc (by decide)
    · exact (hall _ hc).2 rfl
  · intro c hc
    exact (hall c (List.mem_of_mem_head? hc)).1
  · intro c hc
    exact (hall c (List.mem_of_getLast? hc)).1
  · intro h
    exact hne (List.append_eq_nil_iff.mp h).1

namespace AsyncConnection

variable (srv : Server)

/-! ## What is appended -/

/-- The stale directives that are enabled. -/
def staleDirectives : List Bytes :=
  (if srv.staleWhileRevalidate > 0 then
    ["stale-while-revalidate=".toList ++ toDecimal srv.staleWhileRevalidate] else []) ++
  if srv.staleIfError > 0 then ["stale-if-error=".toList ++ toDecimal srv.staleIfError] else []

/-- A value with the enabled directives at its end. -/
def withStale (cc : Bytes) : Bytes :=
  let updated :=
    if srv.staleWhileRevalidate > 0 then
      cc ++ ", stale-while-revalidate=".toList ++ toDecimal srv.staleWhileRevalidate
    else cc
  if srv.staleIfError > 0 then
    updated ++ ", stale-if-error=".toList ++ toDecimal srv.staleIfError
  else updated

theorem staleDirectives_ne_nil :
    staleDirectives srv ≠ [] ↔ srv.staleWhileRevalidate > 0 ∨ srv.staleIfError > 0 := by
  unfold staleDirectives
  by_cases hwhile : srv.staleWhileRevalidate > 0
  · rw [if_pos hwhile]
    exact iff_of_true (List.cons_ne_nil _ _) (Or.inl hwhile)
  · by_cases herror : srv.staleIfError > 0
    · rw [if_neg hwhile, if_pos herror]
      exact iff_of_true (List.cons_ne_nil _ _) (Or.inr herror)
    · rw [if_neg hwhile, if_neg herror]
      exact iff_of_false (fun h => h rfl) (fun h => h.elim hwhile herror)

theorem directives_withStale (cc : Bytes) :
    directives (withStale srv cc) = directives cc ++ staleDirectives srv := by
  have happend : ∀ (cc name : Bytes) (n : ℕ), cc ++ (',' :: ' ' :: name) ++ toDecimal n =
      cc ++ ',' :: ([' '] ++ (name ++ toDecimal n)) := by
    intro cc name n
    simp
  have hwhile : ∀ (cc : Bytes) (n : ℕ),
      directives (cc ++ ", stale-while-revalidate=".toList ++ toDecimal n) =
        directives cc ++ ["stale-while-revalidate=".toList ++ toDecimal n] := fun cc n =>
    (congrArg directives (happend cc "stale-while-revalidate=".toList n)).trans
      (directives_append cc n (by decide) (by decide))
  have herror : ∀ (cc : Bytes) (n : ℕ),
      directives (cc ++ ", stale-if-error=".toList ++ toDecimal n) =
        directives cc ++ ["stale-if-error=".toList ++ toDecimal n] := fun cc n =>
    (congrArg directives (happend cc "stale-if-error=".toList n)).trans
      (directives_append cc n (by decide) (by decide))
  unfold withStale staleDirectives
  dsimp only
  by_cases hw : srv.staleWhileRevalidate > 0
  · rw [if_pos hw, if_pos hw]
    split
    · rw [herror, hwhile, List.append_assoc]
    · rw [hwhile, List.append_nil]
  · rw [if_neg hw, if_neg hw]
    split
    · rw [herror, List.nil_append]
    · rw [List.append_nil, List.append_nil]

/-- What was appended is seen the next time. -/
theorem stale_infix_withStale (cc : Bytes) (h : staleDirectives srv ≠ []) :
    "stale-".toList <:+: withStale srv cc := by
  have hname : ∀ (l name m : Bytes), "stale-".toList <:+: name →
      "stale-".toList <:+: l ++ name ++ m := by
    intro l name m hin
    exact hin.trans ((List.suffix_append l name).isInfix.trans (List.prefix_append _ m).isInfix)
  have hwhile : "stale-".toList <:+: ", stale-while-revalidate=".toList :=
    find_isSome.mp (by decide)
  have herror : "stale-".toList <:+: ", stale-if-error=".toList := find_isSome.mp (by decide)
  unfold withStale
  dsimp only
  split
  · exact hname _ _ _ herror
  · rename_i hno
    rw [if_pos (((staleDirectives_ne_nil srv).mp h).resolve_right hno)]
    exact hname _ _ _ hwhile

/-- The texts `appendStaleDirectives` looks for. -/
def LooksCacheable (cc : Bytes) : Prop := "max-age".toList <:+: cc ∧ ¬ "stale-".toList <:+: cc

/-- The texts disagree with the directives on the values that are misjudged. -/
theorem misjudged_iff (cc : Bytes) : ¬ Misjudged cc ↔ (LooksCacheable cc ↔ Cacheable cc) := by
  constructor
  · intro h
    refine ⟨fun hl => ?_, fun hc => ?_⟩
    · by_contra hc
      refine h (Or.inl ⟨hl.1, hl.2, ?_⟩)
      by_contra hn
      obtain ⟨hage, hn⟩ := not_or.mp hn
      obtain ⟨hcache, hn⟩ := not_or.mp hn
      obtain ⟨hstore, hstale⟩ := not_or.mp hn
      exact hc ⟨not_not.mp hage, hcache, hstore, hstale⟩
    · by_contra hl
      refine h (Or.inr ⟨hc, ?_⟩)
      by_contra hn
      obtain ⟨hage, hstale⟩ := not_or.mp hn
      exact hl ⟨not_not.mp hage, hstale⟩
  · intro hiff hmis
    rcases hmis with ⟨hage, hstale, hnot⟩ | ⟨hc, hnot⟩
    · have hc := hiff.mp ⟨hage, hstale⟩
      rcases hnot with h | h | h | h
      · exact h hc.1
      · exact hc.2.1 h
      · exact hc.2.2.1 h
      · exact hc.2.2.2 h
    · have hl := hiff.mpr hc
      exact hnot.elim (fun h => h hl.1) hl.2

theorem cacheControl_appendStaleDirectives {r : Response} {cc : Bytes}
    (h : r.getHeader "Cache-Control".toList = some cc) :
    (LooksCacheable cc ∧ staleDirectives srv ≠ [] ∧
        (appendStaleDirectives srv r).getHeader "Cache-Control".toList = some (withStale srv cc)) ∨
      (¬ (LooksCacheable cc ∧ staleDirectives srv ≠ []) ∧
        (appendStaleDirectives srv r).getHeader "Cache-Control".toList = some cc) := by
  have hlooks : ((find "max-age".toList cc 0).isSome && (find "stale-".toList cc 0).isNone) = true ↔
      LooksCacheable cc := by
    unfold LooksCacheable
    rw [Bool.and_eq_true, ← Option.not_isSome, Bool.not_eq_true', ← Bool.not_eq_true, find_isSome,
      find_isSome]
  have henabled := staleDirectives_ne_nil srv
  unfold appendStaleDirectives
  rw [h]
  split
  · rename_i hon
    have hne := henabled.mpr (by simpa using hon)
    dsimp only
    split
    · rename_i hlook
      exact Or.inl ⟨hlooks.mp hlook, hne, HeaderMap.get_set_self _ _ _⟩
    · rename_i hlook
      exact Or.inr ⟨fun hc => hlook (hlooks.mpr hc.1), h⟩
  · rename_i hoff
    exact Or.inr ⟨fun hc => hoff (by simpa using henabled.mp hc.2), h⟩

theorem cacheControl_setServerHeaders (a : Answers) (s : AsyncConnection) :
    ∃ r : Response, r.getHeader "Cache-Control".toList =
        s.itsResponse.getHeader "Cache-Control".toList ∧
      (setServerHeaders srv a s).itsResponse = appendStaleDirectives srv r := by
  refine ⟨_, ?_, rfl⟩
  have hvary : ∀ r : Response, (setVary r).getHeader "Cache-Control".toList =
      r.getHeader "Cache-Control".toList := by
    intro r
    have hne : asciiToLower "Cache-Control".toList ≠ asciiToLower "Vary".toList := by decide
    unfold setVary
    split
    · exact HeaderMap.get_set_of_ne _ _ hne
    · split
      · exact HeaderMap.get_set_of_ne _ _ hne
      · split
        · exact HeaderMap.get_set_of_ne _ _ hne
        · rfl
  refine (getHeader_setConnectionHeaders srv _ (by decide) (by decide)).trans ?_
  refine (HeaderMap.get_set_of_ne _ _ (by decide)).trans ((hvary _).trans ?_)
  exact HeaderMap.get_set_of_ne _ _ (by decide)

/-! ## The policy -/

/-- The response `r`, made of one whose `Cache-Control` value is `cc`, has the enabled
directives if and only if the policy asks for them, and `r'`, made of `r`, has the
same. -/
structure FollowsPolicy (cc : Bytes) (r r' : Response) : Prop where
  added : Cacheable cc → (r.getHeader "Cache-Control".toList).map directives =
    some (directives cc ++ staleDirectives srv)
  unchanged : ¬ Cacheable cc → (r.getHeader "Cache-Control".toList).map directives =
    some (directives cc)
  settled : r'.getHeader "Cache-Control".toList = r.getHeader "Cache-Control".toList

/-- **The stale directives follow the directives of a handler** unless its value is
misjudged by the texts that are searched for. -/
theorem stale_directives_follow (a a' : Answers) {s : AsyncConnection} {cc : Bytes}
    (h : s.itsResponse.getHeader "Cache-Control".toList = some cc) :
    FollowsPolicy srv cc (setServerHeaders srv a s).itsResponse
        (setServerHeaders srv a' (setServerHeaders srv a s)).itsResponse ↔
      staleDirectives srv = [] ∨ ¬ Misjudged cc := by
  obtain ⟨r, hr, heq⟩ := cacheControl_setServerHeaders srv a s
  obtain ⟨r', hr', heq'⟩ := cacheControl_setServerHeaders srv a' (setServerHeaders srv a s)
  rw [misjudged_iff, heq']
  rw [heq] at hr' ⊢
  rcases cacheControl_appendStaleDirectives srv (hr.trans h) with ⟨hlook, hon, hcc⟩ | ⟨hnot, hcc⟩
  · -- the directives are appended, and the next time they are seen
    have hagain : (appendStaleDirectives srv r').getHeader "Cache-Control".toList =
        some (withStale srv cc) := by
      rcases cacheControl_appendStaleDirectives srv (hr'.trans hcc) with ⟨hl, -, -⟩ | ⟨-, hsame⟩
      · exact absurd (stale_infix_withStale srv cc hon) hl.2
      · exact hsame
    have hdir : ((appendStaleDirectives srv r).getHeader "Cache-Control".toList).map directives =
        some (directives cc ++ staleDirectives srv) := by
      rw [hcc, Option.map_some, directives_withStale]
    constructor
    · intro hp
      refine Or.inr ⟨fun _ => ?_, fun _ => hlook⟩
      by_contra hc
      have hlen := Option.some.inj (hdir.symm.trans (hp.unchanged hc))
      exact hon (List.append_right_eq_self.mp hlen)
    · intro hc
      have hpolicy : Cacheable cc := (hc.resolve_left hon).mp hlook
      exact ⟨fun _ => hdir, fun hno => absurd hpolicy hno, hagain.trans hcc.symm⟩
  · have hagain : (appendStaleDirectives srv r').getHeader "Cache-Control".toList = some cc := by
      rcases cacheControl_appendStaleDirectives srv (hr'.trans hcc) with ⟨hl, ho, -⟩ | ⟨-, hsame⟩
      · exact absurd ⟨hl, ho⟩ hnot
      · exact hsame
    have hdir : ((appendStaleDirectives srv r).getHeader "Cache-Control".toList).map directives =
        some (directives cc) := by
      rw [hcc, Option.map_some]
    constructor
    · intro hp
      by_cases hoff : staleDirectives srv = []
      · exact Or.inl hoff
      · refine Or.inr ⟨fun hl => absurd ⟨hl, hoff⟩ hnot, fun hc => ?_⟩
        have hlen := Option.some.inj (hdir.symm.trans (hp.added hc))
        exact absurd (List.append_right_eq_self.mp hlen.symm) hoff
    · intro hc
      refine ⟨fun hp => ?_, fun _ => hdir, hagain.trans hcc.symm⟩
      rcases hc with hoff | hiff
      · rw [hdir, hoff, List.append_nil]
      · by_cases hoff : staleDirectives srv = []
        · rw [hdir, hoff, List.append_nil]
        · exact absurd ⟨hiff.mpr hp, hoff⟩ hnot

/-- A server with both settings, and a response with a `Cache-Control` value. -/
def staleServer : Server :=
  { spine := MinimalSpine.spine, staleWhileRevalidate := 60, staleIfError := 86400 }

/-- A connection whose response has the given `Cache-Control`. -/
def cacheReply (cc : Bytes) : AsyncConnection :=
  { itsResponse := { headers := HeaderMap.set ∅ "Cache-Control".toList cc } }

theorem stale_directives_follow_public :
    FollowsPolicy staleServer "public, max-age=60".toList
      (setServerHeaders staleServer MinimalSpine.answers
        (cacheReply "public, max-age=60".toList)).itsResponse
      (setServerHeaders staleServer MinimalSpine.answers (setServerHeaders staleServer
        MinimalSpine.answers (cacheReply "public, max-age=60".toList))).itsResponse := by
  have hset : (cacheReply "public, max-age=60".toList).itsResponse.getHeader
      "Cache-Control".toList = some "public, max-age=60".toList := HeaderMap.get_set_self _ _ _
  exact (stale_directives_follow staleServer MinimalSpine.answers MinimalSpine.answers hset).mpr
    (Or.inr (by decide))

/-- A response that no cache may reuse is given stale directives. -/
theorem stale_directives_no_cache :
    ¬ FollowsPolicy staleServer "no-cache, max-age=60".toList
      (setServerHeaders staleServer MinimalSpine.answers
        (cacheReply "no-cache, max-age=60".toList)).itsResponse
      (setServerHeaders staleServer MinimalSpine.answers (setServerHeaders staleServer
        MinimalSpine.answers (cacheReply "no-cache, max-age=60".toList))).itsResponse := by
  intro h
  exact absurd (h.unchanged (by decide)) (by decide +kernel)

end AsyncConnection

end SmartMet
