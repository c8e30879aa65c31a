import FunctionSlice.Mask

/-! The expression that is written for a mask reads back as one piece for each character of the mask. While
it is written the literal characters since the last wildcard are still to come; what carries the induction
is that they are read before all that follows. -/

namespace FunctionSlice

namespace Expression

theorem pieces?_backslash {c : Char} (hc : isMeta c) (r : List Char) :
    pieces? ('\\' :: c :: r) = (pieces? r).map (.same c :: ·) := by
  rw [pieces?, if_pos hc]

theorem pieces?_plain {c : Char} (hc : ¬ isMeta c) (r : List Char) :
    pieces? (c :: r) = (pieces? r).map (.same c :: ·) := by
  have hne : ∀ d, isMeta d → c ≠ d := by
    rintro d hd rfl
    exact hc hd
  rw [pieces?.eq_5, if_neg hc]
  · rintro h -
    exact hne ')' (by decide) h
  · intro d r h
    exact absurd h (hne '\\' (by decide))
  · intro r h
    exact absurd h (hne '.' (by decide))
  · exact hne '.' (by decide)

/-- Escaped characters stand for themselves, whatever they are. -/
theorem pieces?_escape_append (cs rest : List Char) :
    pieces? (escape cs ++ rest) = (pieces? rest).map (cs.map .same ++ ·) := by
  induction cs with
  | nil => simp [escape]
  | cons c cs ih =>
    unfold escape at ih ⊢
    rw [List.flatMap_cons, List.append_assoc]
    by_cases hc : isMeta c
    · rw [if_pos hc, List.cons_append, List.cons_append, List.nil_append, pieces?_backslash hc, ih]
      simp [Function.comp_def]
    · rw [if_neg hc, List.cons_append, List.nil_append, pieces?_plain hc, ih]
      simp [Function.comp_def]

theorem head?_escape_append {cs rest : List Char} (h : rest.head? ≠ some '*') :
    (escape cs ++ rest).head? ≠ some '*' := by
  cases cs with
  | nil => exact h
  | cons c cs =>
    unfold escape
    rw [List.flatMap_cons]
    by_cases hc : isMeta c
    · rw [if_pos hc]
      simp
    · rw [if_neg hc]
      have hne : c ≠ '*' := by
        rintro rfl
        exact hc (by decide)
      simpa using hne

theorem pieces?_dot {r : List Char} (h : r.head? ≠ some '*') :
    pieces? ('.' :: r) = (pieces? r).map (.any :: ·) := by
  rw [pieces?.eq_4]
  rintro r rfl
  exact h rfl

end Expression

namespace Mask

open Expression

/-- What a character of a mask becomes. -/
def piece (c : Char) : Piece := if c = '*' then .run else if c = '?' then .any else .same c

theorem piece_of_ne {c : Char} (hr : c ≠ '*') (ha : c ≠ '?') : piece c = .same c := by
  rw [piece, if_neg hr, if_neg ha]

/-- No wildcard is among gathered characters, so their pieces are what they are escaped for. -/
theorem pieces?_gathered_append {literal : List Char} (h : ∀ c ∈ literal, ¬ isWildcard c)
    (rest : List Char) :
    pieces? (escape literal.reverse ++ rest) =
      (pieces? rest).map (literal.reverse.map piece ++ ·) := by
  have hp : literal.reverse.map piece = literal.reverse.map .same := by
    refine List.map_congr_left fun c hc => ?_
    have hw := h c (List.mem_reverse.1 hc)
    refine piece_of_ne ?_ ?_
    · rintro rfl
      exact hw rfl
    · rintro rfl
      exact hw rfl
  rw [pieces?_escape_append, hp]

/-- After a dot that stands for one character no star may follow. -/
theorem head?_body_append (literal cs : List Char) :
    (body literal cs ++ [')', '$']).head? ≠ some '*' := by
  induction cs generalizing literal with
  | nil => exact head?_escape_append (by decide)
  | cons c cs ih =>
    unfold body
    by_cases hc : isWildcard c
    · rw [if_pos hc, List.append_assoc, List.append_assoc]
      refine head?_escape_append ?_
      unfold dots
      split <;> simp
    · rw [if_neg hc]
      exact ih _

theorem pieces?_dots_append {c : Char} (hc : isWildcard c) {r : List Char} (h : r.head? ≠ some '*') :
    pieces? (dots c ++ r) = (pieces? r).map (piece c :: ·) := by
  unfold dots
  by_cases hr : c = '*'
  · subst hr
    exact pieces?.eq_3 r
  · have ha : c = '?' := by simpa [isWildcard, hr] using hc
    subst ha
    exact pieces?_dot h

/-- The characters gathered so far are not lost: they come before the pieces of the rest. -/
theorem pieces?_body_append {literal : List Char} (h : ∀ c ∈ literal, ¬ isWildcard c)
    (cs : List Char) :
    pieces? (body literal cs ++ [')', '$']) = some ((literal.reverse ++ cs).map piece) := by
  induction cs generalizing literal with
  | nil =>
    rw [body, pieces?_gathered_append h, List.append_nil]
    simp [pieces?]
  | cons c cs ih =>
    unfold body
    by_cases hc : isWildcard c
    · have hrest : pieces? (body [] cs ++ [')', '$']) = some (cs.map piece) := ih (by simp)
      rw [if_pos hc, List.append_assoc, List.append_assoc, pieces?_gathered_append h,
        pieces?_dots_append hc (head?_body_append [] cs), hrest, List.map_append]
      rfl
    · have hcons : ∀ d ∈ c :: literal, ¬ isWildcard d := List.forall_mem_cons.2 ⟨hc, h⟩
      rw [if_neg hc, ih hcons, List.reverse_cons, List.append_assoc]
      rfl

/-- The expression for a mask reads back as one piece for each of its characters. -/
theorem read?_expression (text : String) : read? (expression text) = some (text.toList.map piece) := by
  change pieces? (body [] text.toList ++ [')', '$']) = _
  rw [pieces?_body_append (by simp)]
  rfl

end Mask

end FunctionSlice
