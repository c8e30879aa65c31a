import FunctionSlice.Proofs.Glob
import Mathlib.Data.List.Forall2

/-! What a mask accepts, said by cutting the name: one part for each character of the mask. Masks written
one after another accept what their names make when they are written one after another. -/

namespace FunctionSlice

theorem Expression.cost_append (ps qs : List Piece) : cost (ps ++ qs) = cost ps + cost qs := by
  induction ps with
  | nil => exact (Nat.zero_add _).symm
  | cons p ps ih => rw [List.cons_append, cost, cost, ih, Nat.add_assoc]

namespace Mask

/-- The part `u` of a name stands for the character `c` of a mask. -/
def Stands (c : Char) (u : List Char) : Prop :=
  if c = '*' then True else if c = '?' then u.length = 1 else u = [c]

/-- The name `s` can be cut into consecutive parts, one for each character of `p`. -/
def Fits (p s : String) : Prop :=
  ∃ us, List.Forall₂ Stands p.toList us ∧ us.flatten = s.toList

theorem glob_of_stands {p : List Char} {us : List (List Char)} (h : List.Forall₂ Stands p us) :
    Glob p us.flatten := by
  induction h with
  | nil => exact .done
  | @cons c u p us hc _ ih =>
    rw [List.flatten_cons]
    unfold Stands at hc
    by_cases hr : c = '*'
    · subst hr
      exact .run u ih
    · rw [if_neg hr] at hc
      by_cases ha : c = '?'
      · rw [if_pos ha] at hc
        obtain ⟨d, rfl⟩ := List.length_eq_one_iff.1 hc
        subst ha
        exact .any d ih
      · rw [if_neg ha] at hc
        subst hc
        exact .same hr ha ih

theorem stands_of_glob {p s : List Char} (h : Glob p s) :
    ∃ us, List.Forall₂ Stands p us ∧ us.flatten = s := by
  induction h with
  | done => exact ⟨[], .nil, rfl⟩
  | run u _ ih =>
    obtain ⟨us, hus, rfl⟩ := ih
    exact ⟨u :: us, .cons trivial hus, rfl⟩
  | any c _ ih =>
    obtain ⟨us, hus, rfl⟩ := ih
    exact ⟨[c] :: us, .cons rfl hus, rfl⟩
  | same hr ha _ ih =>
    obtain ⟨us, hus, rfl⟩ := ih
    refine ⟨[_] :: us, .cons ?_ hus, rfl⟩
    rw [Stands, if_neg hr, if_neg ha]

theorem glob_iff_fits {p s : String} : Glob p.toList s.toList ↔ Fits p s := by
  constructor
  · exact stands_of_glob
  · rintro ⟨us, hus, hs⟩
    rw [← hs]
    exact glob_of_stands hus

end Mask

namespace Glob

variable {p q s t : List Char}

theorem append (h : Glob p s) (h' : Glob q t) : Glob (p ++ q) (s ++ t) := by
  induction h with
  | done => exact h'
  | run u _ ih =>
    rw [List.append_assoc]
    exact .run u ih
  | any c _ ih => exact .any c ih
  | same hr ha _ ih => exact .same hr ha ih

theorem split (h : Glob (p ++ q) s) : ∃ u v, s = u ++ v ∧ Glob p u ∧ Glob q v := by
  obtain ⟨us, hus, rfl⟩ := Mask.stands_of_glob h
  have hp : List.Forall₂ Mask.Stands p (us.take p.length) :=
    (List.forall₂_take_append us p q hus.flip).flip
  have hq : List.Forall₂ Mask.Stands q (us.drop p.length) :=
    (List.forall₂_drop_append us p q hus.flip).flip
  refine ⟨(us.take p.length).flatten, (us.drop p.length).flatten, ?_, Mask.glob_of_stands hp,
    Mask.glob_of_stands hq⟩
  rw [← List.flatten_append, List.take_append_drop]

/-- Without wildcards a mask leaves no choice. -/
theorem plain_iff (hr : '*' ∉ p) (ha : '?' ∉ p) : Glob p s ↔ s = p := by
  induction p generalizing s with
  | nil => exact nil_iff
  | cons d p ih =>
    rw [List.mem_cons, not_or] at hr ha
    have hdr : d ≠ '*' := Ne.symm hr.1
    have hda : d ≠ '?' := Ne.symm ha.1
    cases s with
    | nil => exact iff_of_false (same_nil hdr) (List.cons_ne_nil d p).symm
    | cons c s => rw [same_cons_iff hdr hda, ih hr.2 ha.2, List.cons.injEq]

end Glob

namespace Mask

variable {p p₁ p₂ s : String} {m : Mask} {limit : Expression.Limit}

theorem glob_append_iff :
    Glob (p₁ ++ p₂).toList s.toList ↔
      ∃ s₁ s₂ : String, s = s₁ ++ s₂ ∧ Glob p₁.toList s₁.toList ∧ Glob p₂.toList s₂.toList := by
  rw [String.toList_append]
  constructor
  · intro h
    obtain ⟨u, v, hs, hu, hv⟩ := h.split
    refine ⟨String.ofList u, String.ofList v, ?_, ?_, ?_⟩
    · rw [← String.ofList_append, ← hs, String.ofList_toList]
    · rwa [String.toList_ofList]
    · rwa [String.toList_ofList]
  · rintro ⟨s₁, s₂, rfl, h₁, h₂⟩
    rw [String.toList_append]
    exact h₁.append h₂

/-- Either way of matching decides the language of the text. -/
theorem isMatch_ofText (h : ofText p limit = .ok m) (s : String) :
    m.isMatch s ↔ Glob p.toList s.toList := by
  obtain ⟨-, -, rfl⟩ := ofText_eq_ok_iff.1 h
  by_cases hw : hasWildcards p
  · rw [hw]
    exact isMatch_wild p s
  · have hp := mt hasWildcards_iff.2 hw
    rw [not_or] at hp
    rw [Bool.not_eq_true] at hw
    rw [hw, isMatch_literal, Glob.plain_iff hp.1 hp.2, String.toList_inj]

/-- A mask within the limit has its parts within it. -/
def Divisible (limit : Expression.Limit) : Prop :=
  ∀ p₁ p₂, limit (expression (p₁ ++ p₂)) → limit (expression p₁) ∧ limit (expression p₂)

theorem sizeLimit_expression (p : String) :
    Expression.sizeLimit (expression p) ↔
      Expression.cost (p.toList.map piece) ≤ Expression.budget := by
  rw [Expression.sizeLimit, read?_expression, Option.any_some, decide_eq_true_iff]

theorem sizeLimit_divisible : Divisible Expression.sizeLimit := by
  intro p₁ p₂ h
  rw [sizeLimit_expression] at h ⊢
  rw [sizeLimit_expression]
  rw [String.toList_append, List.map_append, Expression.cost_append] at h
  omega

/-- What is part of a mask and not empty is a mask itself. -/
theorem exists_ofText_of_append (hd : Divisible limit) (h : ofText (p₁ ++ p₂) limit = .ok m) :
    (p₁ ≠ "" → ∃ m₁, ofText p₁ limit = .ok m₁) ∧ (p₂ ≠ "" → ∃ m₂, ofText p₂ limit = .ok m₂) := by
  obtain ⟨-, hl, -⟩ := ofText_eq_ok_iff.1 h
  have hw : hasWildcards (p₁ ++ p₂) = (hasWildcards p₁ || hasWildcards p₂) := by
    unfold hasWildcards
    rw [String.toList_append, List.any_append]
  rw [hw, Bool.or_eq_true] at hl
  constructor
  · intro hne
    exact ⟨_, ofText_eq_ok_iff.2 ⟨hne, fun h₁ => (hd p₁ p₂ (hl (.inl h₁))).1, rfl⟩⟩
  · intro hne
    exact ⟨_, ofText_eq_ok_iff.2 ⟨hne, fun h₂ => (hd p₁ p₂ (hl (.inr h₂))).2, rfl⟩⟩

end Mask

/-- A mask matches the names that can be cut as its characters say, and no others. Cut in two it matches
what the one part matches followed by what the other does; without wildcards it matches itself alone. All
of it holds under any limit on expressions. The parts are masks themselves if the limit has room for a part
wherever it has room for the whole. -/
theorem mask_matches_cuts (limit : Expression.Limit) (p : String) (m : Mask)
    (h : Mask.ofText p limit = .ok m) :
    (∀ s, m.isMatch s ↔ Mask.Fits p s) ∧
      (∀ p₁ p₂, p = p₁ ++ p₂ →
        (∀ s, m.isMatch s ↔ ∃ s₁ s₂, s = s₁ ++ s₂ ∧ Mask.Fits p₁ s₁ ∧ Mask.Fits p₂ s₂) ∧
        (∀ m₁ m₂, Mask.ofText p₁ limit = .ok m₁ → Mask.ofText p₂ limit = .ok m₂ →
          ∀ s, m.isMatch s ↔ ∃ s₁ s₂, s = s₁ ++ s₂ ∧ m₁.isMatch s₁ ∧ m₂.isMatch s₂) ∧
        (Mask.Divisible limit → p₁ ≠ "" → p₂ ≠ "" →
          ∃ m₁ m₂, Mask.ofText p₁ limit = .ok m₁ ∧ Mask.ofText p₂ limit = .ok m₂)) ∧
      ('*' ∉ p.toList → '?' ∉ p.toList → ∀ s, m.isMatch s ↔ s = p) := by
  refine ⟨fun s => (Mask.isMatch_ofText h s).trans Mask.glob_iff_fits, ?_, fun hr ha s => ?_⟩
  · rintro p₁ p₂ rfl
    refine ⟨fun s => ?_, fun m₁ m₂ hm₁ hm₂ s => ?_, fun hd h₁ h₂ => ?_⟩
    · rw [Mask.isMatch_ofText h, Mask.glob_append_iff]
      simp only [Mask.glob_iff_fits]
    · simp only [Mask.isMatch_ofText h, Mask.isMatch_ofText hm₁, Mask.isMatch_ofText hm₂,
        Mask.glob_append_iff]
    · obtain ⟨m₁, hm₁⟩ := (Mask.exists_ofText_of_append hd h).1 h₁
      obtain ⟨m₂, hm₂⟩ := (Mask.exists_ofText_of_append hd h).2 h₂
      exact ⟨m₁, m₂, hm₁, hm₂⟩
  · rw [Mask.isMatch_ofText h, Glob.plain_iff hr ha, String.toList_inj]

/-- A run may hold line feeds, and a character that means something else in an expression is itself. -/
theorem mask_matches_cuts_escaped :
    Mask.ofText "(a.?*" = .ok ⟨"(a.?*", true⟩ ∧ (⟨"(a.?*", true⟩ : Mask).isMatch "(a.\nb\n" ∧
      ∃ m₁ m₂, Mask.ofText "(a." = .ok m₁ ∧ Mask.ofText "?*" = .ok m₂ ∧
        m₁.isMatch "(a." ∧ m₂.isMatch "\nb\n" ∧ ¬ m₁.isMatch "(ab" := by
  have hm : Mask.ofText "(a.?*" = .ok ⟨"(a.?*", true⟩ := rfl
  obtain ⟨hfits, happend, -⟩ := mask_matches_cuts _ _ _ hm
  have hcut : List.Forall₂ Mask.Stands "(a.?*".toList [['('], ['a'], ['.'], ['\n'], ['b', '\n']] :=
    .cons rfl (.cons rfl (.cons rfl (.cons rfl (.cons trivial .nil))))
  obtain ⟨-, -, hparts⟩ := happend "(a." "?*" rfl
  obtain ⟨m₁, m₂, h₁, h₂⟩ := hparts Mask.sizeLimit_divisible (by decide) (by decide)
  obtain ⟨-, -, hplain⟩ := mask_matches_cuts _ _ _ h₁
  have hself := hplain (by decide) (by decide)
  refine ⟨hm, (hfits _).2 ⟨_, hcut, rfl⟩, m₁, m₂, h₁, h₂, (hself _).2 rfl, ?_, fun hb => ?_⟩
  · exact ((mask_matches_cuts _ _ _ h₂).1 _).2
      ⟨[['\n'], ['b', '\n']], .cons rfl (.cons trivial .nil), rfl⟩
  · exact absurd ((hself _).1 hb) (by decide)

end FunctionSlice
