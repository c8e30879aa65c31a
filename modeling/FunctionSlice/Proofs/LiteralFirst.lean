import FunctionSlice.Proofs.MaskLanguage
import FunctionSlice.Proofs.Resolution

/-! A mask matches itself, so what a name finds to the letter is found by the name as a mask too. Trying
the letters first gives up no answer of the mask. -/

namespace FunctionSlice

/-- Each character of a mask stands for itself, and the wildcards are no exception. -/
theorem Glob.self (p : List Char) : Glob p p := by
  induction p with
  | nil => exact .done
  | cons c p ih =>
    by_cases hr : c = '*'
    · subst hr
      exact .run ['*'] ih
    · by_cases ha : c = '?'
      · subst ha
        exact .any '?' ih
      · exact .same hr ha ih

variable {n : String} {m m' : Mask} {x : Symbol} {limit : Expression.Limit}

theorem Mask.isMatch_self (h : ofText n limit = .ok m) : m.isMatch n :=
  (isMatch_ofText h n).2 (Glob.self n.toList)

namespace SymbolTable

/-- A mask that matches more finds more, in the same order. -/
theorem lookup_sublist (t : SymbolTable) (h : ∀ s, m.isMatch s → m'.isMatch s) :
    (t.lookup m).Sublist (t.lookup m') := by
  refine (List.monotone_filter_right t.entries fun e he => ?_).map _
  unfold Entry.isMatch at he ⊢
  rw [Bool.or_eq_true, Option.any_eq_true] at he ⊢
  rcases he with hname | ⟨d, hd, hm⟩
  · exact .inl (h _ hname)
  · exact .inr ⟨d, hd, h d hm⟩

theorem lookup_literal_sublist (t : SymbolTable) (h : Mask.ofText n limit = .ok m) :
    (t.lookup ⟨n, false⟩).Sublist (t.lookup m) := by
  refine t.lookup_sublist fun s hs => ?_
  rw [(Mask.isMatch_literal n s).1 hs]
  exact Mask.isMatch_self h

/-- What the mask alone finds is found to the letter already, or left to the mask. -/
theorem hits_of_lookup_eq_singleton (t : SymbolTable) (h : Mask.ofText n limit = .ok m)
    (hx : t.lookup m = [x]) : hits t.lookup n limit = .ok [x] := by
  obtain ⟨hn, -, hm⟩ := Mask.ofText_eq_ok_iff.1 h
  by_cases hl : t.lookup ⟨n, false⟩ = []
  · by_cases hw : Mask.hasWildcards n
    · rw [hits_of_mask hn hl hw h, hx]
    · -- Without wildcards the mask is the literal one, which found nothing.
      rw [Bool.not_eq_true] at hw
      rw [hm, hw, hl] at hx
      cases hx
  · have hsub := t.lookup_literal_sublist h
    rw [hx] at hsub
    rw [hits_of_found hn hl, hsub.eq_of_length_le (List.length_pos_iff.2 hl)]

end SymbolTable

/-- A name that is accepted as a mask matches itself, and finds as a mask what it finds to the letter. So
where the mask finds one symbol alone, the name is resolved to that symbol, although it is tried to the
letter first. -/
theorem resolve_keeps_mask_answer (limit : Expression.Limit) (n : String) (m : Mask)
    (h : Mask.ofText n limit = .ok m) :
    m.isMatch n ∧ ∃ literal, Mask.literal n = .ok literal ∧ ∀ t : SymbolTable,
      (t.lookup literal).Sublist (t.lookup m) ∧
        ∀ x, t.lookup m = [x] → (resolve t.lookup (.byName n) limit).outcome = .ok x.rva := by
  obtain ⟨hn, -, -⟩ := Mask.ofText_eq_ok_iff.1 h
  refine ⟨Mask.isMatch_self h, ⟨n, false⟩, Mask.literal_eq_ok hn,
    fun t => ⟨t.lookup_literal_sublist h, fun x hx => ?_⟩⟩
  exact outcome_of_one_hit (t.hits_of_lookup_eq_singleton h hx)

/-- A mask that names nothing to the letter, and one that is the name of the symbol it finds. -/
theorem resolve_keeps_mask_answer_decorated :
    let t : SymbolTable := ⟨[⟨⟨"?f@@YAXXZ", 0x10⟩, some "f"⟩, ⟨⟨"main", 0x20⟩, none⟩]⟩
    Mask.ofText "?f@*" = .ok ⟨"?f@*", true⟩ ∧ t.lookup ⟨"?f@*", false⟩ = [] ∧
      (resolve t.lookup (.byName "?f@*")).outcome = .ok 0x10 ∧
      Mask.ofText "?f@@YAXXZ" = .ok ⟨"?f@@YAXXZ", true⟩ ∧
      t.lookup ⟨"?f@@YAXXZ", false⟩ = [⟨"?f@@YAXXZ", 0x10⟩] ∧
      (resolve t.lookup (.byName "?f@@YAXXZ")).outcome = .ok 0x10 := by
  intro t
  have hmask : Mask.ofText "?f@*" = .ok ⟨"?f@*", true⟩ := rfl
  have hname : Mask.ofText "?f@@YAXXZ" = .ok ⟨"?f@@YAXXZ", true⟩ := rfl
  obtain ⟨-, _, -, h⟩ := resolve_keeps_mask_answer _ _ _ hmask
  obtain ⟨-, _, -, h'⟩ := resolve_keeps_mask_answer _ _ _ hname
  exact ⟨hmask, by decide +kernel, (h t).2 ⟨"?f@@YAXXZ", 0x10⟩ (by decide +kernel), hname,
    by decide +kernel, (h' t).2 ⟨"?f@@YAXXZ", 0x10⟩ (by decide +kernel)⟩

end FunctionSlice
