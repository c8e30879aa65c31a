import FunctionSlice.Proofs.Expression

/-! Masks as a language: one clause for each character of the mask says which part of the name it stands
for. The expression that is written for a mask reads back as one piece for each of its characters, and
those decide the language. -/

namespace FunctionSlice

/-- The name can be cut into one piece for each character of the mask. -/
inductive Glob : List Char → List Char → Prop
  | done : Glob [] []
  | run (u : List Char) {p s : List Char} : Glob p s → Glob ('*' :: p) (u ++ s)
  | any (c : Char) {p s : List Char} : Glob p s → Glob ('?' :: p) (c :: s)
  | same {c : Char} {p s : List Char} : c ≠ '*' → c ≠ '?' → Glob p s → Glob (c :: p) (c :: s)

namespace Glob

variable {c d : Char} {p s : List Char}

theorem nil_iff : Glob [] s ↔ s = [] := by
  constructor
  · intro h
    cases h
    rfl
  · rintro rfl
    exact .done

theorem run_nil_iff : Glob ('*' :: p) [] ↔ Glob p [] := by
  constructor
  · intro h
    generalize hs : ([] : List Char) = t at h
    cases h with
    | run u h =>
      obtain ⟨rfl, rfl⟩ := List.append_eq_nil_iff.1 hs.symm
      exact h
    | same hr => exact absurd rfl hr
  · exact .run []

/-- A run is empty or has the first character. -/
theorem run_cons_iff : Glob ('*' :: p) (c :: s) ↔ Glob p (c :: s) ∨ Glob ('*' :: p) s := by
  constructor
  · intro h
    generalize hs : c :: s = t at h
    cases h with
    | run u h =>
      cases u with
      | nil =>
        rw [List.nil_append] at hs ⊢
        exact .inl h
      | cons d u =>
        obtain ⟨-, rfl⟩ := List.cons_eq_cons.1 hs
        exact .inr (.run u h)
    | same hr => exact absurd rfl hr
  · rintro (h | h)
    · exact .run [] h
    · generalize hp : '*' :: p = q at h
      cases h with
      | done => cases hp
      | run u h =>
        cases hp
        exact .run (c :: u) h
      | any => cases hp
      | same hr =>
        cases hp
        exact absurd rfl hr

theorem any_nil : ¬ Glob ('?' :: p) [] := by
  intro h
  cases h

theorem any_cons_iff : Glob ('?' :: p) (c :: s) ↔ Glob p s := by
  constructor
  · intro h
    cases h with
    | any _ h => exact h
    | same _ ha => exact absurd rfl ha
  · exact .any c

theorem same_nil (hr : d ≠ '*') : ¬ Glob (d :: p) [] := by
  intro h
  generalize hs : ([] : List Char) = t at h
  cases h with
  | run => exact hr rfl
  | any => cases hs
  | same => cases hs

theorem same_cons_iff (hr : d ≠ '*') (ha : d ≠ '?') :
    Glob (d :: p) (c :: s) ↔ c = d ∧ Glob p s := by
  constructor
  · intro h
    generalize hs : c :: s = t at h
    cases h with
    | run => exact absurd rfl hr
    | any => exact absurd rfl ha
    | same _ _ h =>
      obtain ⟨rfl, rfl⟩ := List.cons_eq_cons.1 hs
      exact ⟨rfl, h⟩
  · rintro ⟨rfl, h⟩
    exact .same hr ha h

end Glob

namespace Mask

open Expression

/-- The answers for the suffixes of a name, longest first. -/
inductive Answers (p : List Char) : List Char → List Bool → Prop
  | nil {b : Bool} : (b ↔ Glob p []) → Answers p [] [b]
  | cons {b : Bool} {c : Char} {s : List Char} {bs : List Bool} : (b ↔ Glob p (c :: s)) →
      Answers p s bs → Answers p (c :: s) (b :: bs)

namespace Answers

variable {d : Char} {p s : List Char} {bs : List Bool}

theorem headD_iff (h : Answers p s bs) : bs.headD false ↔ Glob p s := by
  cases h with
  | nil h => exact h
  | cons h _ => exact h

theorem of_nil (s : List Char) : Answers [] s (s.map (fun _ => false) ++ [true]) := by
  induction s with
  | nil => exact .nil (by simp [Glob.nil_iff])
  | cons c s ih => exact .cons (by simp [Glob.nil_iff]) ih

theorem run (h : Answers p s bs) : Answers ('*' :: p) s (anyFrom bs) := by
  induction h with
  | nil hb => exact .nil (by simpa [Glob.run_nil_iff, anyFrom] using hb)
  | cons hb _ ih =>
    refine .cons ?_ ih
    rw [Glob.run_cons_iff, Bool.or_eq_true, hb, ih.headD_iff]

theorem any (h : Answers p s bs) : Answers ('?' :: p) s (bs.drop 1 ++ [false]) := by
  induction h with
  | nil _ => exact .nil (by simp [Glob.any_nil])
  | cons _ h ih =>
    cases h with
    | nil h => exact .cons (by rw [Glob.any_cons_iff]; exact h) ih
    | cons h _ => exact .cons (by rw [Glob.any_cons_iff]; exact h) ih

theorem same (hr : d ≠ '*') (ha : d ≠ '?') (h : Answers p s bs) :
    Answers (d :: p) s (List.zipWith (fun c ok => c == d && ok) s (bs.drop 1) ++ [false]) := by
  induction h with
  | nil _ => exact .nil (by simp [Glob.same_nil hr])
  | cons _ h ih =>
    cases h with
    | nil h => exact .cons (by simp [Glob.same_cons_iff hr ha, h]) ih
    | cons h _ => exact .cons (by simp [Glob.same_cons_iff hr ha, h]) ih

end Answers

theorem answers_column (p s : List Char) : Answers p s (column (p.map piece) s) := by
  induction p with
  | nil => exact .of_nil s
  | cons d p ih =>
    rw [List.map_cons]
    by_cases hr : d = '*'
    · subst hr
      exact ih.run
    · by_cases ha : d = '?'
      · subst ha
        exact ih.any
      · rw [piece_of_ne hr ha]
        exact ih.same hr ha

theorem accepts_iff_glob (p s : List Char) : accepts (p.map piece) s ↔ Glob p s := by
  induction p generalizing s with
  | nil => rw [List.map_nil, accepts, List.isEmpty_iff, Glob.nil_iff]
  | cons d p ih =>
    by_cases hr : d = '*'
    · subst hr
      exact (answers_column ('*' :: p) s).headD_iff
    · by_cases ha : d = '?'
      · subst ha
        cases s with
        | nil => exact iff_of_false Bool.false_ne_true Glob.any_nil
        | cons c s => rw [Glob.any_cons_iff, ← ih s]; rfl
      · rw [List.map_cons, piece_of_ne hr ha]
        cases s with
        | nil => exact iff_of_false Bool.false_ne_true (Glob.same_nil hr)
        | cons c s =>
          rw [Glob.same_cons_iff hr ha, ← ih s, accepts]
          by_cases hc : d = c
          · rw [if_pos hc, and_iff_right hc.symm]
          · rw [if_neg hc]
            exact iff_of_false Bool.false_ne_true fun h => hc h.1.symm

theorem hasWildcards_iff {text : String} :
    hasWildcards text ↔ '*' ∈ text.toList ∨ '?' ∈ text.toList := by
  simp only [hasWildcards, isWildcard, List.any_eq_true, Bool.or_eq_true, beq_iff_eq]
  constructor
  · rintro ⟨c, hc, rfl | rfl⟩
    · exact .inl hc
    · exact .inr hc
  · rintro (h | h)
    · exact ⟨_, h, .inl rfl⟩
    · exact ⟨_, h, .inr rfl⟩

theorem isMatch_literal (text s : String) : isMatch ⟨text, false⟩ s ↔ s = text := by
  change (text == s) = true ↔ s = text
  rw [beq_iff_eq]
  exact eq_comm

theorem isMatch_wild (text s : String) : isMatch ⟨text, true⟩ s ↔ Glob text.toList s.toList := by
  change (read? (expression text)).any (accepts · s.toList) ↔ _
  rw [read?_expression]
  exact accepts_iff_glob _ _

variable {limit : Limit}

theorem ofText_eq_ok_iff {p : String} {m : Mask} :
    ofText p limit = .ok m ↔
      p ≠ "" ∧ (hasWildcards p → limit (expression p)) ∧ m = ⟨p, hasWildcards p⟩ := by
  unfold ofText
  by_cases he : p = ""
  · simp [he]
  rw [if_neg (by simpa using he)]
  by_cases hw : hasWildcards p
  · by_cases hl : limit (expression p)
    · rw [if_neg (by simp [hw]), if_pos hl, Except.ok.injEq, hw]
      exact ⟨fun h => ⟨he, fun _ => hl, h.symm⟩, fun h => h.2.2.symm⟩
    · rw [if_neg (by simp [hw]), if_neg hl]
      exact iff_of_false (by simp) fun h => hl (h.2.1 hw)
  · rw [Bool.not_eq_true] at hw
    rw [if_pos (by simp [hw]), Except.ok.injEq, hw]
    exact ⟨fun h => ⟨he, by simp, h.symm⟩, fun h => h.2.2.symm⟩

theorem ofText_of_wildcards {text : String} {m : Mask} (hw : hasWildcards text)
    (h : ofText text limit = .ok m) : m = ⟨text, true⟩ := by
  obtain ⟨-, -, rfl⟩ := ofText_eq_ok_iff.1 h
  rw [hw]

instance (p s : List Char) : Decidable (Glob p s) := decidable_of_iff _ (accepts_iff_glob p s)

end Mask

end FunctionSlice
