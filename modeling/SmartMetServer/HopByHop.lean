/-
# What a handler is given of a request

The fields that concern a single hop are taken out of a request: those of a
fixed list, and those the client's `Connection` field names.  A HEAD becomes a
GET that is marked in a field of the server's own.
-/
import SmartMetServer.AsyncConnection
import SmartMetServer.Scanning

namespace SmartMet

namespace HeaderMap

/-- The entry of a field that is not removed. -/
theorem lookup_remove (m : HeaderMap) (name k : Bytes) :
    (m.remove name).lookup k = if k = asciiToLower name then none else m.lookup k := by
  unfold remove
  split
  · rename_i h
    rw [h, AList.lookup_erase]
  · rename_i h
    exact AList.lookup_erase_ne h

/-- The entries that are left when some fields are removed. -/
theorem lookup_foldl_remove (names : List Bytes) (m : HeaderMap) (k : Bytes) :
    (names.foldl remove m).lookup k
      = if k ∈ names.map asciiToLower then none else m.lookup k := by
  induction names generalizing m with
  | nil => rfl
  | cons name names ih =>
    rw [List.foldl_cons, ih, lookup_remove, List.map_cons]
    by_cases hk : k = asciiToLower name
    · simp [hk]
    · simp [hk]

end HeaderMap

namespace AsyncConnection

/-- The field that tells the access log of a HEAD. -/
def originalMethod : Bytes := "X-SmartMet-Original-Method".toList

/-- The names in the client's `Connection` field. -/
def listedFields (headers : HeaderMap) : List Bytes :=
  match headers.get "Connection".toList with
  | some connection => TokenList.elements ',' isBlank connection
  | none => []

/-- The loop from a position on collects the tokens behind it. -/
theorem listedFrom_eq {v : Bytes} {fuel pos : ℕ} (hpos : pos ≤ v.length)
    (hfuel : v.length - pos < fuel) :
    listedFrom v fuel pos = TokenList.elements ',' isBlank (v.drop pos) := by
  induction fuel generalizing pos with
  | zero => omega
  | succ fuel ih =>
    unfold listedFrom
    rw [if_pos hpos]
    cases hf : find [','] v pos with
    | none =>
      have hend : listedFrom v fuel (v.length + 1) = [] := by
        cases fuel with
        | zero => rfl
        | succ n =>
          unfold listedFrom
          rw [if_neg (by omega)]
      simp only [Option.getD_none]
      rw [hend, List.append_nil, elements_of_find_none hf]
    | some stop =>
      obtain ⟨hps, hlt, hcut⟩ := elements_of_find_some hf
      have hrest := ih (show stop + 1 ≤ v.length by omega) (by omega)
      simp only [Option.getD_some]
      rw [hrest, hcut]

/-- **The hop-by-hop fields are removed, and no others.** -/
theorem lookup_stripHopByHopHeaders (headers : HeaderMap) (k : Bytes) :
    (stripHopByHopHeaders headers).lookup k =
      if k ∈ (hopByHop ++ listedFields headers).map asciiToLower then none
      else headers.lookup k := by
  have hlisted : stripHopByHopHeaders headers =
      (listedFields headers).foldl HeaderMap.remove (hopByHop.foldl HeaderMap.remove headers) := by
    unfold stripHopByHopHeaders listedFields
    cases headers.get "Connection".toList with
    | none => rfl
    | some connection =>
      dsimp only
      rw [listedFrom_eq (Nat.zero_le _) (by omega), List.drop_zero]
  rw [hlisted, HeaderMap.lookup_foldl_remove, HeaderMap.lookup_foldl_remove, List.map_append]
  by_cases h1 : k ∈ (listedFields headers).map asciiToLower
  · rw [if_pos h1, if_pos (List.mem_append_right _ h1)]
  · rw [if_neg h1]
    by_cases h2 : k ∈ hopByHop.map asciiToLower
    · rw [if_pos h2, if_pos (List.mem_append_left _ h2)]
    · rw [if_neg h2, if_neg fun h => (List.mem_append.mp h).elim h2 h1]

/-- The request a handler is called with. -/
def handedOn (r : Request) (clientIP : Bytes) : Request :=
  maskHead { r with clientIP := clientIP, headers := stripHopByHopHeaders r.headers }

/-- The fields of a request that is handed on. -/
theorem lookup_handedOn (q : Request) (ip k : Bytes) :
    (handedOn q ip).headers.lookup k =
      if k = asciiToLower originalMethod then
        if q.method = .head then some (originalMethod, "HEAD".toList) else none
      else if k ∈ (hopByHop ++ listedFields q.headers).map asciiToLower then none
      else q.headers.lookup k := by
  unfold handedOn maskHead
  dsimp only
  rw [← lookup_stripHopByHopHeaders]
  by_cases hm : q.method = .head
  · rw [if_pos hm, if_pos hm]
    show (((stripHopByHopHeaders q.headers).remove originalMethod).insert
      (asciiToLower originalMethod) (originalMethod, "HEAD".toList)).lookup k = _
    by_cases hk : k = asciiToLower originalMethod
    · rw [if_pos hk, hk, AList.lookup_insert]
    · rw [if_neg hk, AList.lookup_insert_ne hk, HeaderMap.lookup_remove, if_neg hk]
  · rw [if_neg hm, if_neg hm]
    show ((stripHopByHopHeaders q.headers).remove originalMethod).lookup k = _
    rw [HeaderMap.lookup_remove]

/-- What a handler sees (`r`) of a request that was received (`q`). -/
structure HandsOn (q r : Request) : Prop where
  method : r.method = if q.method = .head then .get else q.method
  hopByHop : ∀ name ∈ hopByHop, r.headers.get name = none
  listed : ∀ name ∈ listedFields q.headers, asciiToLower name ≠ asciiToLower originalMethod →
    r.headers.get name = none
  original : r.headers.get originalMethod = if q.method = .head then some "HEAD".toList else none
  others : ∀ k, k ≠ asciiToLower originalMethod →
    k ∉ (AsyncConnection.hopByHop ++ listedFields q.headers).map asciiToLower →
    r.headers.lookup k = q.headers.lookup k
  rest : r.resource = q.resource ∧ r.version = q.version ∧ r.content = q.content ∧
    r.parameters = q.parameters

theorem handsOn_handedOn (q : Request) (ip : Bytes) : HandsOn q (handedOn q ip) where
  method := by
    unfold handedOn maskHead
    dsimp only
    split
    · rfl
    · rfl
  hopByHop := by
    intro name hname
    have hne : ∀ name ∈ AsyncConnection.hopByHop,
        asciiToLower name ≠ asciiToLower originalMethod := by decide
    unfold HeaderMap.get
    rw [lookup_handedOn, if_neg (hne name hname),
      if_pos (List.mem_map_of_mem (List.mem_append_left _ hname))]
    rfl
  listed := by
    intro name hname hne
    unfold HeaderMap.get
    rw [lookup_handedOn, if_neg hne,
      if_pos (List.mem_map_of_mem (List.mem_append_right _ hname))]
    rfl
  original := by
    unfold HeaderMap.get
    rw [lookup_handedOn, if_pos rfl]
    split
    · rfl
    · rfl
  others := by
    intro k hk hl
    rw [lookup_handedOn, if_neg hk, if_neg hl]
  rest := by
    unfold handedOn maskHead
    dsimp only
    split
    · exact ⟨rfl, rfl, rfl, rfl⟩
    · exact ⟨rfl, rfl, rfl, rfl⟩

end AsyncConnection

end SmartMet
