/-
# Separated lists of tokens

A list of tokens in one text: the tokens stand between separators, and blanks
around a token do not belong to it.  `elements` cuts the text at every separator,
strips the blanks and leaves empty pieces out.

* `trim_append` : the blanks around a text are stripped;
* `elements_append_cons` : a separator cuts the list in two;
* `elements_append_token` : a token at the end.
-/
import Mathlib.Data.List.DropRight

namespace TokenList

section Trim

variable {α : Type*} (blank : α → Bool)

/-- The text without the blanks at both ends. -/
def trim (l : List α) : List α := (l.dropWhile blank).rdropWhile blank

variable {blank}

theorem trim_eq_nil {l : List α} (h : ∀ x ∈ l, blank x) : trim blank l = [] := by
  unfold trim
  rw [List.dropWhile_eq_nil_iff.mpr h]
  exact List.rdropWhile_nil _

/-- Blanks on the right are stripped. -/
theorem rdropWhile_append {b l : List α} (hb : ∀ x ∈ b, blank x)
    (hlast : ∀ x ∈ l.getLast?, blank x = false) : (l ++ b).rdropWhile blank = l := by
  induction b using List.reverseRecOn with
  | nil =>
    rw [List.append_nil]
    refine List.rdropWhile_eq_self_iff.mpr ?_
    intro hne
    rw [hlast (l.getLast hne) (List.getLast?_eq_some_getLast hne)]
    simp
  | append_singleton b x ih =>
    have hx : blank x := hb x (by simp)
    rw [← List.append_assoc, List.rdropWhile_concat_pos _ _ _ hx]
    exact ih fun y hy => hb y (by simp [hy])

/-- The blanks around a text with other ends are stripped. -/
theorem trim_append {a l b : List α} (ha : ∀ x ∈ a, blank x) (hb : ∀ x ∈ b, blank x)
    (hhead : ∀ x ∈ l.head?, blank x = false) (hlast : ∀ x ∈ l.getLast?, blank x = false)
    (hl : l ≠ []) : trim blank (a ++ l ++ b) = l := by
  have hdrop : (a ++ l ++ b).dropWhile blank = l ++ b := by
    rw [List.append_assoc, List.dropWhile_append_of_pos ha]
    cases l with
    | nil => exact absurd rfl hl
    | cons c l =>
      have hc := hhead c rfl
      rw [List.cons_append, List.dropWhile_cons_of_neg (by rw [hc]; simp)]
  unfold trim
  rw [hdrop]
  exact rdropWhile_append hb hlast

end Trim

section Elements

variable {α : Type*} [DecidableEq α] (sep : α) (blank : α → Bool)

/-- The tokens of a text. -/
def elements (l : List α) : List (List α) :=
  ((l.splitOn sep).map (trim blank)).filter fun e => !e.isEmpty

variable {sep blank}

/-- The token of a text without a separator. -/
theorem elements_of_notMem {l : List α} (h : sep ∉ l) :
    elements sep blank l = if (trim blank l).isEmpty then [] else [trim blank l] := by
  unfold elements
  rw [List.splitOn_eq_singleton h, List.map_singleton, List.filter_singleton]
  cases (trim blank l).isEmpty with
  | true => rfl
  | false => rfl

/-- A separator cuts the list in two. -/
theorem elements_append_cons (l m : List α) :
    elements sep blank (l ++ sep :: m) = elements sep blank l ++ elements sep blank m := by
  unfold elements
  rw [List.splitOn_append_cons_self, List.map_append, List.filter_append]

/-- A token behind a separator and blanks. -/
theorem elements_append_token {b t : List α} (l : List α) (hb : ∀ x ∈ b, blank x)
    (hsep : sep ∉ b ++ t) (hhead : ∀ x ∈ t.head?, blank x = false)
    (hlast : ∀ x ∈ t.getLast?, blank x = false) (ht : t ≠ []) :
    elements sep blank (l ++ sep :: (b ++ t)) = elements sep blank l ++ [t] := by
  have htrim : trim blank (b ++ t) = t := by
    have h := trim_append (b := []) hb (by simp) hhead hlast ht
    rwa [List.append_nil] at h
  rw [elements_append_cons, elements_of_notMem hsep, htrim, if_neg (by rwa [List.isEmpty_iff])]

end Elements

end TokenList
