import FunctionSlice.Instruction

/-! A mnemonic is a return if its last word is, whatever words are before it. -/

namespace FunctionSlice

namespace Text

variable {b : Char} {cs t : List Char}

theorem words_blank (hb : isBlank b) (r : List Char) : words (b :: r) = words r := by
  cases r with
  | nil => simp [words, hb]
  | cons c r => rw [words, if_pos hb]

theorem words_ne_nil {c : Char} (h : ¬ isBlank c) (r : List Char) : words (c :: r) ≠ [] := by
  induction r generalizing c with
  | nil => simp [words, h]
  | cons d r ih =>
    rw [words, if_neg h]
    split
    · exact List.cons_ne_nil _ _
    · rename_i hd
      rw [Ne, List.modifyHead_eq_nil_iff]
      exact ih hd

/-- A blank ends a word. -/
theorem words_append_blank (hb : isBlank b) (xs ys : List Char) :
    words (xs ++ b :: ys) = words xs ++ words ys := by
  fun_induction words xs with
  | case1 => exact words_blank hb ys
  | case2 c hc => rw [List.singleton_append, words, if_pos hc, words_blank hb, List.nil_append]
  | case3 c hc =>
    rw [List.singleton_append, words, if_neg hc, if_pos hb, words_blank hb, List.singleton_append]
  | case4 c d r hc ih =>
    rw [List.cons_append, List.cons_append, words, if_pos hc]
    exact ih
  | case5 c d r hc hd ih =>
    rw [List.cons_append, List.cons_append, words, if_neg hc, if_pos hd, List.cons_append]
    exact congrArg ([c] :: ·) ih
  | case6 c d r hc hd ih =>
    rw [List.cons_append, List.cons_append, words, if_neg hc, if_neg hd, ← List.cons_append, ih]
    cases hw : words (d :: r) with
    | nil => exact absurd hw (words_ne_nil hd r)
    | cons w ws => rfl

/-- The last word of a text: no blank is in it and nothing but blanks behind it, and before it is a blank
or the start of the text. -/
inductive LastWord : List Char → List Char → Prop
  | at (front t blanks : List Char) : (∀ c ∈ front.getLast?, isBlank c) → t ≠ [] →
      (∀ c ∈ t, ¬ isBlank c) → (∀ c ∈ blanks, isBlank c) → LastWord (front ++ t ++ blanks) t

theorem words_of_blanks (h : ∀ c ∈ cs, isBlank c) : words cs = [] := by
  induction cs with
  | nil => rfl
  | cons c cs ih =>
    rw [words_blank (h c List.mem_cons_self)]
    exact ih fun d hd => h d (List.mem_cons_of_mem c hd)

theorem words_of_solid (hne : t ≠ []) (h : ∀ c ∈ t, ¬ isBlank c) : words t = [t] := by
  induction t with
  | nil => exact absurd rfl hne
  | cons c t ih =>
    have hc := h c List.mem_cons_self
    cases t with
    | nil => rw [words, if_neg hc]
    | cons d t =>
      have ht : ∀ e ∈ d :: t, ¬ isBlank e := fun e he => h e (List.mem_cons_of_mem c he)
      rw [words, if_neg hc, if_neg (ht d List.mem_cons_self), ih (List.cons_ne_nil d t) ht]
      rfl

theorem words_append_blanks (h : ∀ c ∈ cs, isBlank c) (xs : List Char) :
    words (xs ++ cs) = words xs := by
  cases cs with
  | nil => rw [List.append_nil]
  | cons b cs =>
    rw [words_append_blank (h b List.mem_cons_self),
      words_of_blanks fun c hc => h c (List.mem_cons_of_mem b hc), List.append_nil]

theorem LastWord.getLast?_words (h : LastWord cs t) : (words cs).getLast? = some t := by
  obtain ⟨front, t, blanks, hfront, hne, ht, hblanks⟩ := h
  rw [words_append_blanks hblanks]
  rcases List.eq_nil_or_concat front with rfl | ⟨front, b, rfl⟩
  · rw [List.nil_append, words_of_solid hne ht, List.getLast?_singleton]
  · rw [List.concat_eq_append] at hfront ⊢
    have hb : isBlank b := hfront b (by simp)
    rw [List.append_assoc, List.singleton_append, words_append_blank hb, words_of_solid hne ht,
      List.getLast?_concat]

theorem blanks_or_lastWord (cs : List Char) : (∀ c ∈ cs, isBlank c) ∨ ∃ t, LastWord cs t := by
  induction cs with
  | nil => exact .inl fun c hc => nomatch hc
  | cons c cs ih =>
    by_cases hc : isBlank c
    · rcases ih with h | ⟨t, ht⟩
      · exact .inl (List.forall_mem_cons.2 ⟨hc, h⟩)
      · obtain ⟨front, t, blanks, hfront, hne, hsolid, hblanks⟩ := ht
        refine .inr ⟨t, .at (c :: front) t blanks ?_ hne hsolid hblanks⟩
        cases front with
        | nil => simpa using hc
        | cons d front => simpa using hfront
    · rcases ih with h | ⟨t, ht⟩
      · exact .inr ⟨[c], .at [] [c] cs (by simp) (List.cons_ne_nil c []) (by simpa using hc) h⟩
      · obtain ⟨front, t, blanks, hfront, hne, hsolid, hblanks⟩ := ht
        cases front with
        | nil =>
          exact .inr ⟨c :: t, .at [] (c :: t) blanks (by simp) (List.cons_ne_nil c t)
            (List.forall_mem_cons.2 ⟨hc, hsolid⟩) hblanks⟩
        | cons d front =>
          exact .inr ⟨t, .at (c :: d :: front) t blanks (by simpa using hfront) hne hsolid hblanks⟩

theorem getLast?_words_eq_some_iff : (words cs).getLast? = some t ↔ LastWord cs t := by
  refine ⟨fun h => ?_, LastWord.getLast?_words⟩
  rcases blanks_or_lastWord cs with hb | ⟨u, hu⟩
  · rw [words_of_blanks hb] at h
    cases h
  · rw [hu.getLast?_words] at h
    cases h
    exact hu

end Text

namespace Instruction

/-- The words for a return, letter by letter. -/
def returnWords : List (List Char) :=
  [['r', 'e', 't'], ['r', 'e', 't', 'n'], ['r', 'e', 't', 'f'], ['r', 'e', 't', 'q'],
    ['r', 'e', 't', 'f', 'q'], ['i', 'r', 'e', 't'], ['i', 'r', 'e', 't', 'd'], ['i', 'r', 'e', 't', 'q']]

/-- The word is one for a return, in either case. -/
def isReturnWord (w : List Char) : Bool := returnWords.contains (w.map Char.toLower)

/-- The last word is one for a return. -/
def endsInReturn (m : String) : Bool := (Text.words m.toList).getLast?.any isReturnWord

theorem any_sameWord (b : String) : returnMnemonics.any (sameWord b) = isReturnWord b.toList := by
  have hr : returnMnemonics.map (fun r => r.toList.map Char.toLower) = returnWords := by decide
  rw [isReturnWord, ← hr, List.contains_eq_any_beq, List.any_map]
  rfl

theorem isReturnWord_iff {w : List Char} :
    isReturnWord w ↔ ∃ n ∈ returnMnemonics, w.map Char.toLower = n.toList := by
  have hwords : returnWords = returnMnemonics.map (·.toList) := by decide
  rw [isReturnWord, List.contains_iff_mem, hwords, List.mem_map]
  simp only [eq_comm]

theorem isUpper_iff {c : Char} : c.isUpper ↔ 65 ≤ c.toNat ∧ c.toNat ≤ 90 :=
  decide_eq_true_iff.trans (and_congr UInt32.le_iff_toNat_le UInt32.le_iff_toNat_le)

theorem toLower_of_not_isUpper {c : Char} (h : ¬ c.isUpper) : c.toLower = c := by
  unfold Char.toLower
  rw [dif_neg]
  rintro ⟨hl, hu⟩
  exact h (isUpper_iff.2 ⟨UInt32.le_iff_toNat_le.1 hl, UInt32.le_iff_toNat_le.1 hu⟩)

theorem toLower_of_isBlank {c : Char} (h : Text.isBlank c) : c.toLower = c := by
  refine toLower_of_not_isUpper fun hc => ?_
  obtain ⟨hl, hu⟩ := isUpper_iff.1 hc
  simp only [Text.isBlank, Bool.or_eq_true, Bool.and_eq_true, decide_eq_true_eq, beq_iff_eq] at h
  omega

/-- No word for a return begins with white space. -/
theorem not_isReturnWord_of_isBlank {c : Char} (h : Text.isBlank c) (r : List Char) :
    ¬ isReturnWord (c :: r) := by
  intro hw
  have hmem : c :: r.map Char.toLower ∈ returnWords := by
    rw [← toLower_of_isBlank h, ← List.map_cons]
    exact List.contains_iff_mem.1 hw
  have hall : returnWords.all (fun w => !w.head?.any Text.isBlank) = true := by decide
  have hfirst : (!Text.isBlank c) = true := List.all_eq_true.1 hall _ hmem
  rw [h] at hfirst
  cases hfirst

theorem isReturn_eq (i : Instruction) : i.isReturn = endsInReturn i.mnemonic := by
  unfold isReturn baseMnemonic endsInReturn
  rw [any_sameWord]
  cases h : (Text.words i.mnemonic.toList).getLast? with
  | some w => exact congrArg isReturnWord String.toList_ofList
  | none =>
    have hw : Text.words i.mnemonic.toList = [] := List.getLast?_eq_none_iff.1 h
    change isReturnWord i.mnemonic.toList = false
    cases hm : i.mnemonic.toList with
    | nil => rfl
    | cons c r =>
      rw [hm] at hw
      by_cases hc : Text.isBlank c
      · exact Bool.eq_false_iff.2 (not_isReturnWord_of_isBlank hc r)
      · exact absurd hw (Text.words_ne_nil hc r)

/-- A return is an instruction whose mnemonic has one of the words for it as its last, in either case. -/
theorem isReturn_iff_lastWord (i : Instruction) :
    i.isReturn ↔ ∃ t, Text.LastWord i.mnemonic.toList t ∧
      ∃ n ∈ returnMnemonics, t.map Char.toLower = n.toList := by
  rw [isReturn_eq, endsInReturn, Option.any_eq_true]
  simp only [Text.getLast?_words_eq_some_iff, isReturnWord_iff]

end Instruction

end FunctionSlice
