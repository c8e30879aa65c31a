import FunctionSlice.Proofs.Wording
import FunctionSlice.X86.Decoder

/-! The names in the opcode maps against what is relied on of libraries. Five opcodes of one byte have the
names for returns that go with them, in either dialect and at every operand size; in no name of another
opcode is a word for one. -/

namespace FunctionSlice

theorem intercalate_cons_cons (s t : String) (ss : List String) :
    " ".intercalate (s :: t :: ss) = s ++ " " ++ " ".intercalate (t :: ss) := by
  rw [← String.toList_inj, String.toList_intercalate, String.toList_append, String.toList_append,
    String.toList_intercalate, List.map_cons, List.map_cons, List.intercalate_cons_cons]

namespace Text

theorem words_intercalate (ss : List String) :
    words (" ".intercalate ss).toList = ss.flatMap fun s => words s.toList := by
  induction ss with
  | nil => rfl
  | cons s ss ih =>
    cases ss with
    | nil => simp
    | cons t ss =>
      rw [intercalate_cons_cons, String.toList_append, String.toList_append, List.append_assoc]
      change words (s.toList ++ ' ' :: (" ".intercalate (t :: ss)).toList) = _
      rw [words_append_blank (by decide), ih]
      rfl

end Text

theorem endsIn_intercalate (before : List String) (name : String) :
    EndsIn name (" ".intercalate (before ++ [name])) := by
  induction before with
  | nil => exact .inl (by simp)
  | cons s before ih =>
    have hsplit : " ".intercalate (s :: before ++ [name]) =
        s ++ " " ++ " ".intercalate (before ++ [name]) := by
      have hne := List.append_ne_nil_of_right_ne_nil before (List.cons_ne_nil name [])
      obtain ⟨t, ss, ht⟩ := List.exists_cons_of_ne_nil hne
      rw [List.cons_append, ht, intercalate_cons_cons]
    rw [hsplit]
    rcases ih with h | ⟨front, h⟩
    · exact .inr ⟨s, by rw [h]⟩
    · exact .inr ⟨s ++ " " ++ front, by rw [h]; simp only [String.append_assoc]⟩

namespace X86

/-- Every text that a name stands for in a dialect satisfies `P`. -/
def Name.all (P : String → Bool) (d : Dialect) : Name → Bool
  | plain s => P s
  | sized w l q => P w && P l && P q
  | split t s =>
    match d with
    | .tight => t.all P d
    | .spaced => s.all P d

theorem Name.all_text {P : String → Bool} {d : Dialect} {n : Name} (h : n.all P d) (size : Nat) :
    P (n.text d size) := by
  induction n with
  | plain s => exact h
  | sized w l q =>
    simp only [all, Bool.and_eq_true] at h
    unfold text
    split
    · exact h.1.1
    · split
      · exact h.2
      · exact h.1.2
  | split t s iht ihs =>
    cases d with
    | tight => exact iht h
    | spaced => exact ihs h

/-- No word of the text is for a return. -/
def isOther (s : String) : Bool := (Text.words s.toList).all isOtherWord

namespace Entry

/-- The entry is for no return. -/
def other (e : Entry) : Bool := !e.far && e.name.all isOther .tight && e.name.all isOther .spaced

/-- The entry has the names for the return with opcode `n`, except that a return to another segment may be
called anything in the tight dialect. -/
def returns (e : Entry) (n : Nat) : Bool :=
  e.far == (n == 0xca || n == 0xcb) && (e.far || e.name.all (returnNames n).contains .tight) &&
    e.name.all (returnNames n).contains .spaced

/-- The entry suits an instruction of which `n` is the first byte behind the prefixes. -/
def suits (e : Entry) (n : Nat) : Bool := if n ∈ returnOpcodes then e.returns n else e.other

end Entry

/-- Whatever entry is found is for no return. -/
def Others (o : Option Entry) : Prop := ∀ e ∈ o, e.other

/-- Whatever entry is found suits the byte. -/
def Told (o : Option Entry) (n : Nat) : Prop := ∀ e ∈ o, e.suits n

theorem forall_mem_orElse {P : Entry → Prop} {o o' : Option Entry} (h : ∀ e ∈ o, P e)
    (h' : ∀ e ∈ o', P e) : ∀ e ∈ o <|> o', P e := by
  cases o with
  | none => exact h'
  | some e => exact h

theorem Entry.suits_of_other {e : Entry} {n : Nat} (hn : n ∉ returnOpcodes) (h : e.other) :
    e.suits n := by
  rw [suits, if_neg hn]
  exact h

/-- A map without the five opcodes has no returns. -/
theorem Others.told {o : Option Entry} {n : Nat} (h : Others o) (habsent : n ∈ returnOpcodes → o = none) :
    Told o n := by
  intro e he
  by_cases hn : n ∈ returnOpcodes
  · rw [habsent hn] at he
    cases he
  · exact Entry.suits_of_other hn (h e he)

theorem other_plain {e : Entry} {s : String} (hf : e.far = false) (hn : e.name = .plain s)
    (hs : isOther s) : e.other := by
  simp [Entry.other, hf, hn, Name.all, hs]

theorem getD_mem (names : List String) (k : Nat) : names.getD k "" ∈ "" :: names := by
  rw [List.getD_eq_getElem?_getD]
  cases hk : names[k]? with
  | none => exact List.mem_cons_self
  | some s => exact List.mem_cons_of_mem _ (List.mem_of_getElem? hk)

theorem other_arithmetic (k : Nat) (places : List Place) : (arithmetic k places).other := by
  have hall : ∀ s ∈ "" :: arithmeticNames, isOther s := by decide
  exact other_plain rfl rfl (hall _ (getD_mem _ k))

theorem other_shift (k : Nat) (places : List Place) : (shift k places).other := by
  have hall : ∀ s ∈ "" :: shiftNames, isOther s := by decide
  exact other_plain rfl rfl (hall _ (getD_mem _ k))

theorem other_bitTest (k : Nat) (places : List Place) : (bitTest k places).other := by
  have hall : ∀ s ∈ "" :: bitTests, isOther s := by decide
  exact other_plain rfl rfl (hall _ (getD_mem _ k))

theorem isOther_condition {before : String} (n : Nat)
    (hall : ∀ s ∈ "" :: conditions, isOther (before ++ s)) :
    isOther (before ++ condition n) :=
  hall _ (getD_mem _ _)

theorem others_arithmeticMap (n : Nat) : Others (arithmeticMap n) := by
  intro e h
  unfold arithmeticMap at h
  dsimp only at h
  split at h
  case h_7 => cases h
  all_goals
    cases h
    exact other_arithmetic _ _

theorem others_groupMap (wide : Bool) (n k : Nat) : Others (groupMap wide n k) := by
  intro e h
  change groupMap wide n k = some e at h
  revert h
  fun_cases groupMap wide n k <;> intro h <;> cases h
  case case1 | case2 | case4 | case5 => exact other_arithmetic _ _
  case case8 | case9 | case14 | case15 | case16 | case17 => exact other_shift _ _
  all_goals decide

theorem isOther_loopNames (a : Nat) : ∀ s ∈ "" :: loopNames a, isOther s := by
  unfold loopNames
  split
  · decide
  · split <;> decide

theorem told_plainMap (wide : Bool) (a n : Nat) : Told (plainMap wide a n) n := by
  intro e h
  change plainMap wide a n = some e at h
  unfold plainMap at h
  split at h
  case h_73 =>
    -- The rows for ranges of opcodes: none of the five is left.
    have hn : n ∉ returnOpcodes := by
      intro hmem
      simp only [returnOpcodes, List.mem_cons, List.not_mem_nil, or_false] at hmem
      rcases hmem with rfl | rfl | rfl | rfl | rfl <;> contradiction
    apply Entry.suits_of_other hn
    split at h
    · cases h
      decide
    split at h
    · cases h
      decide
    split at h
    · cases h
      exact other_plain rfl rfl (isOther_condition n (by decide))
    split at h
    · cases h
      decide
    split at h
    · cases h
      decide
    split at h
    · cases h
      decide
    split at h
    · cases h
      exact other_plain rfl rfl (isOther_loopNames a _ (getD_mem _ _))
    · cases h
  all_goals cases h
  case h_27 | h_28 | h_29 | h_30 => cases wide <;> decide
  all_goals decide

theorem others_oldMap (n : Nat) : Others (oldMap n) := by
  intro e h
  change oldMap n = some e at h
  unfold oldMap at h
  split at h
  case h_24 =>
    split at h
    · cases h
      decide
    split at h
    · cases h
      decide
    · cases h
  all_goals
    cases h
    decide

theorem others_extendedGroupMap (s : Selector) (n m : Nat) : Others (extendedGroupMap s n m) := by
  intro e h
  change extendedGroupMap s n m = some e at h
  revert h
  fun_cases extendedGroupMap s n m <;> intro h <;> cases h
  case case3 =>
    have hall : ∀ s ∈ ["", "nta", "t0", "t1", "t2"], isOther ("prefetch" ++ s) := by
      decide
    exact other_plain rfl rfl (hall _ (getD_mem _ _))
  case case8 =>
    have hall : ∀ s ∈ ["", "lfence", "mfence", "sfence"], isOther s := by decide
    exact other_plain rfl rfl (hall _ (getD_mem _ _))
  case case10 => exact other_bitTest _ _
  all_goals decide

theorem others_counted (s : Selector) {count : String} {search : Option String}
    (hc : isOther count) (hs : ∀ t ∈ search, isOther t) :
    Others (counted s count search) := by
  intro e h
  change counted s count search = some e at h
  unfold counted at h
  split at h
  · cases h
    exact other_plain rfl rfl hc
  · obtain ⟨t, ht, rfl⟩ := Option.map_eq_some_iff.1 h
    exact other_plain rfl rfl (hs t ht)

theorem others_extendedMap (s : Selector) (n : Nat) : Others (extendedMap s n) := by
  intro e h
  change extendedMap s n = some e at h
  unfold extendedMap at h
  split at h
  case h_36 => exact others_counted s (by decide) (by decide) e h
  case h_38 | h_39 => exact others_counted s (by decide) (by decide) e h
  case h_44 =>
    split at h
    · cases h
      exact other_plain rfl rfl (isOther_condition n (by decide))
    split at h
    · cases h
      exact other_plain rfl rfl (isOther_condition n (by decide))
    split at h
    · cases h
      exact other_plain rfl rfl (isOther_condition n (by decide))
    split at h
    · cases h
      decide
    · cases h
  all_goals cases h
  case h_21 | h_27 | h_33 | h_37 => exact other_bitTest _ _
  all_goals decide

theorem others_vectorMap (s : Selector) (n : Nat) : Others (vectorMap s n) := by
  intro e h
  change vectorMap s n = some e at h
  unfold vectorMap at h
  dsimp only at h
  split at h
  case h_33 =>
    split at h
    · rename_i stem hstem
      split at h
      · cases h
      · cases h
        have hall : ∀ p ∈ floatArithmetic, isOther (p.2 ++ s.float.1) := by
          cases s <;> decide
        have hmem : (n, stem) ∈ floatArithmetic := by
          obtain ⟨l, l', hl, -⟩ := List.lookup_eq_some_iff.1 hstem
          rw [hl]
          exact List.mem_append_right l List.mem_cons_self
        exact other_plain rfl rfl (hall (n, stem) hmem)
    · cases h
  all_goals cases h
  case h_5 | h_6 => cases s <;> decide
  all_goals decide

theorem others_twoByteMap (s : Selector) (n m : Nat) : Others (twoByteMap s n m) :=
  forall_mem_orElse (others_extendedGroupMap s n m)
    (forall_mem_orElse (others_extendedMap s n) (others_vectorMap s n))

theorem other_idle (s : Selector) (size : Nat) : (idle s size).other := by
  unfold idle
  split
  · decide
  · split <;> decide

theorem forall_mem_returnOpcodes {P : Nat → Prop} :
    (∀ n ∈ returnOpcodes, P n) ↔ P 0xc2 ∧ P 0xc3 ∧ P 0xca ∧ P 0xcb ∧ P 0xcf := by
  simp [returnOpcodes]

theorem told_oneByteMap (wide : Bool) (a n m : Nat) : Told (oneByteMap wide a n m) n := by
  have hgroup : ∀ n ∈ returnOpcodes, groupMap wide n (m / 8 % 8) = none :=
    forall_mem_returnOpcodes.2 ⟨rfl, rfl, rfl, rfl, rfl⟩
  have hold : ∀ n ∈ returnOpcodes, oldMap n = none :=
    forall_mem_returnOpcodes.2 ⟨rfl, rfl, rfl, rfl, rfl⟩
  have hlow : ∀ n ∈ returnOpcodes, 0x63 < n :=
    forall_mem_returnOpcodes.2 (by decide)
  unfold oneByteMap
  split
  · rename_i hn
    exact (others_arithmeticMap n).told fun hr => absurd (hlow n hr) (by omega)
  split
  · rename_i hw
    rw [hw.2]
    intro e h
    cases h
    decide
  · apply forall_mem_orElse ((others_groupMap wide n _).told (hgroup n))
    apply forall_mem_orElse (told_plainMap wide a n)
    cases wide with
    | true => exact fun e he => nomatch he
    | false => exact (others_oldMap n).told (hold n)

/-- What the opcode at the front chooses suits its first byte. -/
theorem suits_of_opening? {w : Width} {p : Prefixes} {b : UInt8} {bs r : Bytes} {e : Entry}
    {c : Nat × Nat} (h : opening? w p (b :: bs) = some ((e, c), r)) : e.suits b.toNat := by
  have hchosen {f : Nat → Option Entry} {n k : Nat} {bs : Bytes} (hf : ∀ m, Told (f m) n)
      (h : chosen? f k bs = some ((e, c), r)) : e.suits n := by
    obtain ⟨e', he', h⟩ := Option.bind_eq_some_iff.1 h
    have : e' = e := by
      split at h
      · obtain ⟨x, -, hx⟩ := Option.map_eq_some_iff.1 h
        cases hx
        rfl
      · cases h
        rfl
    exact this ▸ hf _ e' he'
  unfold opening? at h
  dsimp only at h
  split at h
  · rename_i hb
    rw [hb]
    cases bs with
    | nil => cases h
    | cons b bs => exact hchosen (fun m => (others_twoByteMap _ _ m).told fun hr => absurd hr (by decide)) h
  split at h
  · rename_i hb
    rw [hb.1]
    refine hchosen (fun _ e he => ?_) h
    cases he
    exact Entry.suits_of_other (by decide) (other_idle _ _)
  · exact hchosen (told_oneByteMap _ _ _) h

/-- The words before the name are for no return. -/
theorem isOther_prefixWords {i : Coded} {d : Dialect} {s : String} (h : s ∈ i.prefixWords d) :
    isOther s := by
  have hall : ∀ s ∈ ["lock", "data16", "rep", "repe", "repne", "bnd"], isOther s := by
    decide
  apply hall
  unfold Coded.prefixWords at h
  simp only [List.mem_append] at h
  rcases h with ((h | h) | h) | h
  · split at h <;> simp_all
  · split at h <;> simp_all
  · split at h
    case h_5 => split at h <;> simp_all
    all_goals simp_all
  · split at h <;> simp_all

theorem isOther_formatted {i : Coded} {d : Dialect}
    (h : isOther (i.entry.name.text d i.operandSize)) : isOther (i.formatted d) := by
  rw [isOther, Coded.formatted, Text.words_intercalate, List.all_flatMap, List.all_eq_true]
  intro s hs
  rcases List.mem_append.1 hs with hs | hs
  · exact isOther_prefixWords hs
  · cases List.mem_singleton.1 hs
    exact h

namespace Entry

theorem other_of_suits {e : Entry} {n : Nat} (h : e.suits n) (hn : n ∉ returnOpcodes) : e.other := by
  rwa [suits, if_neg hn] at h

theorem returns_of_suits {e : Entry} {n : Nat} (h : e.suits n) (hn : n ∈ returnOpcodes) :
    e.returns n := by
  rwa [suits, if_pos hn] at h

theorem isOther_text {e : Entry} (h : e.other) (d : Dialect) (size : Nat) :
    isOther (e.name.text d size) := by
  simp only [other, Bool.and_eq_true] at h
  apply Name.all_text
  cases d with
  | tight => exact h.1.2
  | spaced => exact h.2

theorem far_iff_of_suits {e : Entry} {n : Nat} (h : e.suits n) : e.far ↔ n = 0xca ∨ n = 0xcb := by
  by_cases hn : n ∈ returnOpcodes
  · have hr := returns_of_suits h hn
    simp only [returns, Bool.and_eq_true, beq_iff_eq] at hr
    simp [hr.1.1]
  · have hf : e.far = false := by
      have ho := other_of_suits h hn
      simp only [other, Bool.and_eq_true, Bool.not_eq_true'] at ho
      exact ho.1.1
    have hne : ¬ (n = 0xca ∨ n = 0xcb) := by
      rintro (rfl | rfl) <;> exact hn (by decide)
    simp [hf, hne]

end Entry

namespace Coded

variable {i : Coded} {w : Width} {own : Bytes} {n : Nat}

theorem fits_finding {named : List Nat} {d : Dialect} (ho : opcode? w own = some n)
    (h : i.entry.suits n) (hn : n ∈ named → i.entry.name.text d i.operandSize ∈ returnNames n)
    (a : Word) : (i.finding d a).Fits named w own where
  name m hm hom := by
    cases ho.symm.trans hom
    exact ⟨_, hn hm, endsIn_intercalate (i.prefixWords d) _⟩
  other hnone := by
    have hother : i.entry.other := Entry.other_of_suits h fun hmem => hnone n hmem ho
    exact List.all_eq_true.1 (isOther_formatted (Entry.isOther_text hother d i.operandSize))

theorem spaced_finding (ho : opcode? w own = some n) (h : i.entry.suits n) (a : Word) :
    (i.finding .spaced a).Fits returnOpcodes w own := by
  refine fits_finding ho h (fun hn => ?_) a
  have hr := Entry.returns_of_suits h hn
  simp only [Entry.returns, Bool.and_eq_true] at hr
  exact List.contains_iff_mem.1 (Name.all_text hr.2 i.operandSize)

theorem tight_finding (ho : opcode? w own = some n) (h : i.entry.suits n) (a : Word) :
    (i.finding .tight a).Tight w own where
  toFits := by
    refine fits_finding ho h (fun hn => ?_) a
    have hmem : n ∈ returnOpcodes := by
      have hall : ∀ n ∈ [0xc2, 0xc3, 0xcf], n ∈ returnOpcodes := by decide
      exact hall n hn
    have hf : ¬ i.entry.far := by
      have hall : ∀ n ∈ [0xc2, 0xc3, 0xcf], ¬ (n = 0xca ∨ n = 0xcb) := by decide
      rw [Entry.far_iff_of_suits h]
      exact hall n hn
    have hr := Entry.returns_of_suits h hmem
    simp only [Entry.returns, Bool.and_eq_true, Bool.or_eq_true] at hr
    exact List.contains_iff_mem.1 (Name.all_text (hr.1.2.resolve_left hf) i.operandSize)
  far := by
    rw [ho, Option.some_inj, Option.some_inj]
    exact Entry.far_iff_of_suits h

end Coded

end X86

end FunctionSlice
