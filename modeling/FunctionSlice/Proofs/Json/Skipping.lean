import FunctionSlice.Proofs.Json.Grammar

/-! Skipping takes exactly the text of one value, however deep it is. -/

namespace FunctionSlice.Json

open Read

variable {r t ws : List Char}

/-- What is left to skip of a number after the digits before its point. -/
def skipFractionExponent : Read Unit := do
  match ← peek with
  | some '.' => skipFraction
  | some 'e' | some 'E' => skipExponent
  | _ => pure ()

theorem run_skipNumber_whole (h : Whole t) (hr : ∀ c ∈ r.head?, c.isDigit = false) :
    skipNumber.run (t ++ r) = skipFractionExponent.run r := by
  cases h with
  | zero =>
    have hnext : (r.head?.map Char.isDigit == some true) = false := by
      cases r with
      | nil => rfl
      | cons c r => simp [hr c rfl]
    unfold skipNumber
    rw [List.singleton_append, run_peek_bind, List.head?_cons]
    simp only [show '0'.isDigit = true from rfl, Bool.not_true, Bool.false_eq_true, ↓reduceIte]
    rw [run_skip_bind, run_peek_bind, hnext]
    rfl
  | digits d ds hd hds =>
    have hdd := hds.2 d List.mem_cons_self
    unfold skipNumber
    rw [List.cons_append, run_peek_bind, List.head?_cons]
    simp only [hdd, hd, ↓reduceIte, Bool.not_true, Bool.false_eq_true]
    rw [← List.cons_append, run_bind_of_ok (takeDigits_append hds.2 hr)]
    rfl

theorem skipExponent_digits {e : Char} {sign ds : List Char}
    (hsign : sign = [] ∨ sign = ['+'] ∨ sign = ['-']) (hds : Digits ds) (hr : ∀ c ∈ r.head?, c.isDigit = false) :
    skipExponent.run (e :: (sign ++ ds) ++ r) = .ok () r := by
  obtain ⟨d, ds', rfl⟩ := List.exists_cons_of_ne_nil hds.1
  have hd := hds.2 d List.mem_cons_self
  have htake := takeDigits_append hds.2 hr
  unfold skipExponent
  rw [List.cons_append, run_skip_bind, run_peek_bind]
  extract_lets digitsAfter
  have hdigits : (digitsAfter ()).run (d :: ds' ++ r) = .ok () r := by
    refine (run_peek_bind _ _).trans ?_
    simp only [List.cons_append, List.head?_cons, hd, ↓reduceIte]
    rw [← List.cons_append, run_bind_of_ok htake]
    rfl
  rcases hsign with rfl | rfl | rfl
  · rw [List.nil_append, List.cons_append, List.head?_cons]
    split
    · rename_i h
      cases h
      cases hd
    · rename_i h
      cases h
      cases hd
    · exact hdigits
  · exact hdigits
  · exact hdigits

theorem skipFractionExponent_exponent (h : Exponent t) (hr : Ends r) :
    skipFractionExponent.run (t ++ r) = .ok () r := by
  cases h with
  | absent =>
    unfold skipFractionExponent
    cases r with
    | nil => rfl
    | cons c r =>
      obtain ⟨-, hpoint, he, hE⟩ := hr.head_ne
      rw [List.nil_append, run_peek_bind, List.head?_cons]
      split
      · rename_i h
        exact absurd (Option.some.inj h) hpoint
      · rename_i h
        exact absurd (Option.some.inj h) he
      · rename_i h
        exact absurd (Option.some.inj h) hE
      · rfl
  | digits e sign ds he hsign hds =>
    rcases he with rfl | rfl
    · exact skipExponent_digits hsign hds hr.noDigit
    · exact skipExponent_digits hsign hds hr.noDigit

theorem skipFraction_digits {ds : List Char} (hds : Digits ds) (h : Exponent t) (hr : Ends r) :
    skipFraction.run ('.' :: ds ++ (t ++ r)) = .ok () r := by
  have hne : ds.isEmpty = false := by
    rw [Bool.eq_false_iff]
    exact fun he => hds.1 (List.isEmpty_iff.1 he)
  unfold skipFraction
  rw [List.cons_append, run_skip_bind, run_bind_of_ok (takeDigits_append hds.2 (h.noDigit hr))]
  simp only [hne, Bool.false_eq_true, ↓reduceIte]
  rw [run_peek_bind]
  cases h with
  | absent =>
    cases r with
    | nil => rfl
    | cons c r =>
      obtain ⟨-, -, he, hE⟩ := hr.head_ne
      have hmark : isExponentMark (some c) = false := by simp [isExponentMark, he, hE]
      rw [List.nil_append, List.head?_cons, hmark]
      rfl
  | digits e sign ds' he hsign hds' =>
    have hmark : isExponentMark (some e) = true := by rcases he with rfl | rfl <;> rfl
    rw [List.cons_append, List.head?_cons, hmark]
    exact skipExponent_digits hsign hds' hr.noDigit

theorem skipNumber_unsigned (h : Unsigned t) (hr : Ends r) : skipNumber.run (t ++ r) = .ok () r := by
  obtain ⟨whole, fraction, exponent, hw, hf, he⟩ := h
  rw [List.append_assoc, List.append_assoc, run_skipNumber_whole hw (hf.noDigit (he.noDigit hr))]
  cases hf with
  | absent => exact skipFractionExponent_exponent he hr
  | digits ds hds => exact skipFraction_digits hds he hr

theorem literal_append (t r : List Char) : (literal t).run (t ++ r) = .ok () r := by
  induction t with
  | nil => rfl
  | cons c t ih =>
    rw [literal, List.cons_append, run_peek_bind, List.head?_cons]
    simp only [↓reduceIte]
    exact ih

theorem skipStart_word (h : t = "null".toList ∨ t = "true".toList ∨ t = "false".toList) (hw : Blanks ws)
    (r : List Char) : skipStart.run (ws ++ t ++ r) = .ok none r := by
  unfold skipStart
  rw [List.append_assoc]
  rcases h with rfl | rfl | rfl
  · rw [show "null".toList ++ r = 'n' :: (['u', 'l', 'l'] ++ r) from rfl, run_afterBlanks hw (by decide)]
    simp only []
    rw [run_skip_bind, run_bind_of_ok (literal_append _ r)]
    rfl
  · rw [show "true".toList ++ r = 't' :: (['r', 'u', 'e'] ++ r) from rfl, run_afterBlanks hw (by decide)]
    simp only []
    rw [run_skip_bind, run_bind_of_ok (literal_append _ r)]
    rfl
  · rw [show "false".toList ++ r = 'f' :: (['a', 'l', 's', 'e'] ++ r) from rfl, run_afterBlanks hw (by decide)]
    simp only []
    rw [run_skip_bind, run_bind_of_ok (literal_append _ r)]
    rfl

theorem skipStart_unsigned (h : Unsigned t) (hw : Blanks ws) (hr : Ends r) :
    skipStart.run (ws ++ t ++ r) = .ok none r := by
  obtain ⟨d, rest, hd, hdigit⟩ := h.exists_digit
  have hnumber := skipNumber_unsigned h hr
  rw [hd, List.cons_append] at hnumber
  unfold skipStart
  rw [hd, List.append_assoc, List.cons_append, run_afterBlanks hw (isBlank_of_isDigit hdigit)]
  split
  case h_9 c _ _ _ _ _ _ _ h =>
    cases h
    rw [if_pos hdigit, run_bind_of_ok hnumber]
    rfl
  all_goals
    rename_i h
    cases h
  all_goals cases hdigit

theorem skipStart_negative (h : Unsigned t) (hw : Blanks ws) (hr : Ends r) :
    skipStart.run (ws ++ '-' :: t ++ r) = .ok none r := by
  unfold skipStart
  rw [List.append_assoc, List.cons_append, run_afterBlanks hw (by decide)]
  simp only []
  rw [run_skip_bind, run_bind_of_ok (skipNumber_unsigned h hr)]
  rfl

theorem skipStart_text {us : List CodeUnit} (h : UnitsText t us) (hw : Blanks ws) (r : List Char) :
    skipStart.run (ws ++ ('"' :: t ++ ['"']) ++ r) = .ok none r := by
  unfold skipStart
  simp only [List.append_assoc, List.cons_append, List.nil_append]
  rw [run_afterBlanks hw (by decide)]
  simp only []
  rw [run_skip_bind, run_bind_of_ok (skipString_units h r)]
  rfl

theorem skipStart_list (hw : Blanks ws) (r : List Char) :
    skipStart.run (ws ++ '[' :: r) = .ok (some .list) r := by
  unfold skipStart
  rw [run_afterBlanks hw (by decide)]
  rfl

theorem skipStart_object (hw : Blanks ws) (r : List Char) :
    skipStart.run (ws ++ '\x7b' :: r) = .ok (some .object) r := by
  unfold skipStart
  rw [run_afterBlanks hw (by decide)]
  rfl

/-- After a value: what is left of the frames around it. -/
def skipRest (n : Nat) : List Frame → Read Unit
  | [] => pure ()
  | .object :: outer => do
    skipKey
    skipValues n (.object :: outer)
  | .list :: outer => skipValues n (.list :: outer)

/-- Closes frames first. -/
def skipOut (n : Nat) (comma : Bool) (frames : List Frame) : Read Unit := do
  skipRest n (← closeFrames comma frames)

theorem skipValues_eq (n : Nat) (frames : List Frame) : skipValues (n + 1) frames = (do
    match ← skipStart with
    | some f => skipOut n false (f :: frames)
    | none => skipOut n true frames) := by
  have hrest (frames : List Frame) : (match frames with
      | [] => pure ()
      | .object :: _ => do
        skipKey
        skipValues n frames
      | .list :: _ => skipValues n frames) = skipRest n frames := by
    rcases frames with - | ⟨- | -, outer⟩ <;> rfl
  rw [skipValues]
  refine bind_congr fun opened => ?_
  cases opened with
  | none => exact bind_congr hrest
  | some f => exact bind_congr hrest

variable {outer : List Frame} {first : Bool}

theorem skipValues_of_start {n : Nat} {cs : List Char} {opened : Option Frame}
    (h : skipStart.run cs = .ok opened r) (frames : List Frame) :
    (skipValues (n + 1) frames).run cs = (match opened with
      | some f => skipOut n false (f :: frames)
      | none => skipOut n true frames).run r := by
  rw [skipValues_eq, run_bind_of_ok h]

/-- Where a frame ends, those around it are next. -/
theorem skipOut_end {f : Frame} {c : Char} (n : Nat) (comma : Bool) (hc : f.isEnd c) (hb : isBlank c = false)
    (hcomma : c ≠ ',') (hw : Blanks ws) (r : List Char) :
    (skipOut n comma (f :: outer)).run (ws ++ c :: r) = (skipOut n true outer).run r := by
  have hne : (comma && c == ',') = false := by simp [hcomma]
  unfold skipOut
  rw [closeFrames, EStateM.run_bind, run_afterBlanks hw hb]
  simp only [hne, hc, ↓reduceIte, Bool.false_eq_true]
  rfl

theorem exists_closeFrames_lead {lead : List Char} (hl : Leads first lead) (f : Frame) (outer : List Frame)
    {c : Char} (hc : f.isEnd c = false) (hb : isBlank c = false) (r : List Char) :
    ∃ ws, Blanks ws ∧
      (closeFrames (!first) (f :: outer)).run (lead ++ c :: r) = .ok (f :: outer) (ws ++ c :: r) := by
  cases hl with
  | first ws hw =>
    refine ⟨[], blanks_nil, ?_⟩
    rw [closeFrames, run_afterBlanks hw hb]
    simp only [hc, Bool.not_true, Bool.false_and, Bool.false_eq_true, ↓reduceIte]
    rfl
  | next ws ws' hw hw' =>
    refine ⟨ws', hw', ?_⟩
    rw [closeFrames, List.append_assoc, List.cons_append, run_afterBlanks hw (by decide)]
    rfl

/-- Skipping a value goes on behind it with the frames around it, and what is left of a list or an object is skipped
as the rest of the innermost frame. `k` values begin in the text. -/
def Skips : Piece → List Char → Prop
  | .value, t => ∃ k ≤ t.length, ∀ n outer ws r, Blanks ws → Ends r →
    (skipValues (n + k) outer).run (ws ++ t ++ r) = (skipOut n true outer).run r
  | .list first, t => ∃ k ≤ t.length, ∀ n outer r,
    (skipOut (n + k) (!first) (.list :: outer)).run (t ++ r) = (skipOut n true outer).run r
  | .object first, t => ∃ k ≤ t.length, ∀ n outer r,
    (skipOut (n + k) (!first) (.object :: outer)).run (t ++ r) = (skipOut n true outer).run r

theorem skips_of_whole (hne : t ≠ []) (h : ∀ ws r, Blanks ws → Ends r → skipStart.run (ws ++ t ++ r) = .ok none r) :
    Skips .value t :=
  ⟨1, List.length_pos_iff.2 hne, fun _ outer ws r hw hr => skipValues_of_start (h ws r hw hr) outer⟩

theorem skips_item {lead ts : List Char} (hl : Leads first lead) (ht : Derives .value t)
    (hts : Derives (.list false) ts) (iht : Skips .value t) (ihts : Skips (.list false) ts) :
    Skips (.list first) (lead ++ t ++ ts) := by
  obtain ⟨k, hk, iht⟩ := iht
  obtain ⟨l, hl', ihts⟩ := ihts
  refine ⟨l + k, ?_, fun n outer r => ?_⟩
  · simp only [List.length_append]
    omega
  obtain ⟨c, cs, hc, hb, hend⟩ := ht.begins
  obtain ⟨ws, hw, hlead⟩ := exists_closeFrames_lead hl .list outer
    (by simpa [Frame.isEnd] using hend) hb (cs ++ (ts ++ r))
  have hskip := iht (n + l) (.list :: outer) ws (ts ++ r) hw (hts.ends (.inl rfl) r)
  rw [hc] at hskip ⊢
  simp only [List.append_assoc, List.cons_append] at hskip ⊢
  unfold skipOut
  rw [run_bind_of_ok hlead, ← Nat.add_assoc]
  exact hskip.trans (ihts n outer r)

theorem run_skipKey {key ws₀ : List Char} {us : List CodeUnit} (hkey : UnitsText key us) (hw₀ : Blanks ws₀)
    (hw : Blanks ws) (r : List Char) : skipKey.run (ws₀ ++ '"' :: (key ++ '"' :: (ws ++ ':' :: r))) = .ok () r := by
  unfold skipKey
  rw [run_afterBlanks hw₀ (by decide)]
  simp only []
  rw [run_skip_bind, run_bind_of_ok (skipString_units hkey _), run_afterBlanks hw (by decide)]
  rfl

theorem skips_member {lead key ws ws' ts : List Char} {us : List CodeUnit} (hl : Leads first lead)
    (hkey : UnitsText key us) (hw : Blanks ws) (hw' : Blanks ws') (hts : Derives (.object false) ts)
    (iht : Skips .value t) (ihts : Skips (.object false) ts) :
    Skips (.object first) (lead ++ ('"' :: key ++ '"' :: (ws ++ ':' :: (ws' ++ t))) ++ ts) := by
  obtain ⟨k, hk, iht⟩ := iht
  obtain ⟨l, hl', ihts⟩ := ihts
  refine ⟨l + k, ?_, fun n outer r => ?_⟩
  · simp only [List.length_append, List.length_cons]
    omega
  have hskip := iht (n + l) (.object :: outer) ws' (ts ++ r) hw' (hts.ends (.inr rfl) r)
  simp only [List.append_assoc, List.cons_append] at hskip ⊢
  obtain ⟨ws₀, hw₀, hlead⟩ := exists_closeFrames_lead hl .object outer (c := '"') rfl
    (by decide) (key ++ '"' :: (ws ++ ':' :: (ws' ++ (t ++ (ts ++ r)))))
  unfold skipOut
  rw [run_bind_of_ok hlead, ← Nat.add_assoc]
  change (skipKey >>= fun _ => skipValues (n + l + k) (.object :: outer)).run _ = _
  rw [run_bind_of_ok (run_skipKey hkey hw₀ hw _)]
  exact hskip.trans (ihts n outer r)

theorem Derives.skips {p : Piece} (h : Derives p t) : Skips p t := by
  induction h with
  | word t ht =>
    refine skips_of_whole ?_ fun ws r hw _ => skipStart_word ht hw r
    rcases ht with rfl | rfl | rfl <;> decide
  | number t ht =>
    obtain ⟨d, rest, hd, -⟩ := ht.exists_digit
    exact skips_of_whole (hd ▸ List.cons_ne_nil d rest) fun ws r hw hr => skipStart_unsigned ht hw hr
  | negative t ht => exact skips_of_whole (List.cons_ne_nil _ _) fun ws r hw hr => skipStart_negative ht hw hr
  | text t us ht => exact skips_of_whole (List.cons_ne_nil _ _) fun ws r hw _ => skipStart_text ht hw r
  | list t ht ih =>
    obtain ⟨k, hk, ih⟩ := ih
    refine ⟨k + 1, Nat.succ_le_succ hk, fun n outer ws r hw _ => ?_⟩
    rw [← Nat.add_assoc, List.append_assoc, List.cons_append]
    exact (skipValues_of_start (skipStart_list hw _) outer).trans (ih n outer r)
  | object t ht ih =>
    obtain ⟨k, hk, ih⟩ := ih
    refine ⟨k + 1, Nat.succ_le_succ hk, fun n outer ws r hw _ => ?_⟩
    rw [← Nat.add_assoc, List.append_assoc, List.cons_append]
    exact (skipValues_of_start (skipStart_object hw _) outer).trans (ih n outer r)
  | listEnd first ws hw =>
    refine ⟨0, Nat.zero_le _, fun n outer r => ?_⟩
    rw [List.append_assoc]
    exact skipOut_end n _ rfl (by decide) (by decide) hw r
  | objectEnd first ws hw =>
    refine ⟨0, Nat.zero_le _, fun n outer r => ?_⟩
    rw [List.append_assoc]
    exact skipOut_end n _ rfl (by decide) (by decide) hw r
  | item first lead t ts hl ht hts iht ihts => exact skips_item hl ht hts iht ihts
  | member first lead key ws ws' t ts us hl hkey hw hw' _ hts iht ihts =>
    exact skips_member hl hkey hw hw' hts iht ihts

/-- Skipping takes the text of one value, after any blanks and wherever a value can end. -/
theorem reads_skipValue (h : Derives .value t) : Reads skipValue t () := by
  intro ws r hw hr
  obtain ⟨k, hk, hskip⟩ := h.skips
  obtain ⟨n, hn⟩ := Nat.exists_eq_add_of_le (show k ≤ (ws ++ t ++ r).length + 1 by
    simp only [List.length_append]
    omega)
  unfold skipValue
  rw [run_get_bind, hn, Nat.add_comm, hskip n [] ws r hw hr]
  rfl

end FunctionSlice.Json
