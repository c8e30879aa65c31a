import FunctionSlice.Json.Skip
import FunctionSlice.Proofs.Json.Words
import FunctionSlice.Proofs.Query

/-! The text between the quotes of a string is a row of code units. Most rows spell characters, and are read as
these; one with a lone surrogate spells none, and cannot be read. Whoever skips a string does not look. -/

namespace FunctionSlice

theorem Text.Writes.lt {cs : List Char} {n : Nat} (h : Text.Writes cs n) : n < 16 ^ cs.length := by
  induction cs using List.reverseRecOn generalizing n with
  | nil =>
    rw [Text.writes_nil.1 h]
    decide
  | append_singleton cs c ih =>
    obtain ⟨m, v, hm, hv, rfl⟩ := Text.writes_concat.1 h
    have hlt := ih hm
    have hv := hv.1
    rw [List.length_append, List.length_singleton, Nat.pow_succ]
    omega

theorem Text.IsHexDigit.utf8Size_eq {c : Char} {v : Nat} (h : Text.IsHexDigit c v) : c.utf8Size = 1 := by
  have hlower : ∀ k < 16, (Nat.digitChar k).utf8Size = 1 := by decide
  have hupper : ∀ k < 16, (Nat.digitChar k).toUpper.utf8Size = 1 := by decide
  obtain ⟨hv, rfl | rfl⟩ := h
  · exact hlower v hv
  · exact hupper v hv

namespace Json

open Read

/-- A character by itself or behind a backslash, or a number of four hexadecimal digits. -/
inductive CodeUnit where
  | char (c : Char)
  | code (n : Nat)

/-- The letters behind a backslash and what they stand for. -/
def escapeLetters : List (Char × Char) :=
  [('"', '"'), ('\\', '\\'), ('/', '/'), ('b', '\x08'), ('f', '\x0c'), ('n', '\n'), ('r', '\r'), ('t', '\t')]

inductive UnitsText : List Char → List CodeUnit → Prop
  | nil : UnitsText [] []
  | plain (c : Char) (t : List Char) (us : List CodeUnit) : 0x20 ≤ c.toNat → c ≠ '"' → c ≠ '\\' →
      UnitsText t us → UnitsText (c :: t) (.char c :: us)
  | letter (e c : Char) (t : List Char) (us : List CodeUnit) : (e, c) ∈ escapeLetters →
      UnitsText t us → UnitsText ('\\' :: e :: t) (.char c :: us)
  | code (four t : List Char) (n : Nat) (us : List CodeUnit) : four.length = 4 → Text.Writes four n →
      UnitsText t us → UnitsText ('\\' :: 'u' :: (four ++ t)) (.code n :: us)

/-- The leading and the trailing surrogate of a character beyond the first plane. -/
structure Surrogates (c : Char) (lead trail : Nat) : Prop where
  beyond : 0x10000 ≤ c.toNat
  lead : lead = 0xd800 + (c.toNat - 0x10000) / 0x400
  trail : trail = 0xdc00 + (c.toNat - 0x10000) % 0x400

/-- A code is that of a character, or two of them are the surrogates of one. -/
inductive Spells : List CodeUnit → List Char → Prop
  | nil : Spells [] []
  | char (c : Char) (us : List CodeUnit) (cs : List Char) : Spells us cs → Spells (.char c :: us) (c :: cs)
  | code (c : Char) (us : List CodeUnit) (cs : List Char) : Spells us cs →
      Spells (.code c.toNat :: us) (c :: cs)
  | surrogates (c : Char) (n m : Nat) (us : List CodeUnit) (cs : List Char) : Surrogates c n m → Spells us cs →
      Spells (.code n :: .code m :: us) (c :: cs)

variable {α β : Type} {p : Read α} {cs r t four : List Char} {us : List CodeUnit} {n : Nat}

/-- The reader fails on the text, whatever for. -/
def Fails (p : Read α) (cs : List Char) : Prop := ∃ f s, p.run cs = .error f s

theorem Fails.bind (h : Fails p cs) (f : α → Read β) : Fails (p >>= f) cs := by
  obtain ⟨e, s, h⟩ := h
  exact ⟨e, s, by rw [EStateM.run_bind, h]⟩

theorem fails_bind_of_ok {a : α} {f : α → Read β} (h : p.run cs = .ok a r) (hf : Fails (f a) r) :
    Fails (p >>= f) cs := by
  obtain ⟨e, s, hf⟩ := hf
  exact ⟨e, s, by rw [run_bind_of_ok h, hf]⟩

theorem Fails.of_run_eq {q : Read α} (hq : Fails q r) (h : p.run cs = q.run r) : Fails p cs := by
  obtain ⟨e, s, hq⟩ := hq
  exact ⟨e, s, h.trans hq⟩

theorem fails_fail (reason : Reason) (cs : List Char) : Fails (Read.fail reason : Read α) cs := ⟨_, _, rfl⟩

theorem fails_failNext (reason : Reason) (cs : List Char) : Fails (failNext reason : Read α) cs := ⟨_, _, rfl⟩

theorem fails_failUnplaced (reason : Reason) (cs : List Char) : Fails (failUnplaced reason : Read α) cs :=
  ⟨_, _, rfl⟩

theorem byteLength_eq_length (h : ∀ c ∈ cs, c.utf8Size = 1) : byteLength cs = cs.length := by
  induction cs using List.reverseRecOn with
  | nil => rfl
  | append_singleton cs c ih =>
    have hcs := ih fun d hd => h d (List.mem_append_left [c] hd)
    have hc := h c (List.mem_append_right cs List.mem_cons_self)
    unfold byteLength at hcs ⊢
    rw [List.foldl_append, hcs, List.foldl_cons, List.foldl_nil, hc, List.length_append, List.length_singleton]

theorem hexEscape_writes (hl : four.length = 4) (h : Text.Writes four n) (r : List Char) :
    hexEscape.run (four ++ r) = .ok n r := by
  have hlt := h.lt
  rw [hl] at hlt
  have hbytes : byteLength four = 4 := by
    rw [byteLength_eq_length, hl]
    intro c hc
    obtain ⟨v, hv⟩ := h.exists_digit c hc
    exact hv.utf8Size_eq
  have hne : four ≠ [] := by
    rintro rfl
    cases hl
  have hvalue : hex4? four = some n := by
    obtain ⟨a, b, c, d, rfl⟩ := List.length_eq_four.1 hl
    exact Text.hexNumber?_eq_some_iff.2 ⟨hne, h, hlt⟩
  exact hexEscape_of_hex4? hl hbytes hvalue r

theorem escape_letter {e c : Char} (h : (e, c) ∈ escapeLetters) (r : List Char) :
    escape.run (e :: r) = .ok c r := by
  have hall : ∀ p ∈ escapeLetters, simpleEscapes.lookup p.1 = some p.2 := by decide
  exact escape_simple (hall (e, c) h) r

theorem run_codeEscape (hl : four.length = 4) (h : Text.Writes four n) (r : List Char) :
    escape.run ('u' :: (four ++ r)) = EStateM.run (do
      if isTrail n then Read.fail .loneSurrogate
      else if isLead n then
        needs '\\'
        needs 'u'
        let m ← hexEscape
        if isTrail m then return Char.ofNat (0x10000 + (n - 0xd800) * 0x400 + (m - 0xdc00))
        else Read.fail .loneSurrogate
      else return Char.ofNat n) r := by
  change codeEscape.run (four ++ r) = _
  unfold codeEscape
  rw [run_bind_of_ok (hexEscape_writes hl h r)]

theorem toNat_valid (c : Char) : c.toNat < 0xd800 ∨ 0xdfff < c.toNat ∧ c.toNat < 0x110000 := c.valid

theorem isTrail_iff : isTrail n ↔ 0xdc00 ≤ n ∧ n < 0xe000 := by
  simp [isTrail]

theorem isLead_iff : isLead n ↔ 0xd800 ≤ n ∧ n < 0xdc00 := by
  simp [isLead]

/-- No character is a surrogate. -/
theorem not_surrogate (c : Char) : isTrail c.toNat = false ∧ isLead c.toNat = false := by
  have hc := toNat_valid c
  simp only [Bool.eq_false_iff, ne_eq, isTrail_iff, isLead_iff]
  omega

theorem escape_code {c : Char} (hl : four.length = 4) (h : Text.Writes four c.toNat) (r : List Char) :
    escape.run ('u' :: (four ++ r)) = .ok c r := by
  obtain ⟨htrail, hlead⟩ := not_surrogate c
  rw [run_codeEscape hl h]
  simp only [htrail, hlead]
  change EStateM.Result.ok (Char.ofNat c.toNat) r = _
  rw [Char.ofNat_toNat]

theorem isTrail_of_isLead (h : isLead n) : isTrail n = false := by
  rw [isLead_iff] at h
  rw [Bool.eq_false_iff, ne_eq, isTrail_iff]
  omega

theorem escape_pair {m : Nat} {lead trail : List Char} (hl : lead.length = 4) (hn : Text.Writes lead n)
    (hlead : isLead n) (ht : trail.length = 4) (hm : Text.Writes trail m) (htrail : isTrail m) (r : List Char) :
    escape.run ('u' :: (lead ++ '\\' :: 'u' :: (trail ++ r))) =
      .ok (Char.ofNat (0x10000 + (n - 0xd800) * 0x400 + (m - 0xdc00))) r := by
  rw [run_codeEscape hl hn, isTrail_of_isLead hlead, hlead]
  simp only [Bool.false_eq_true, ↓reduceIte]
  change EStateM.run (do
    let m ← hexEscape
    if isTrail m then return Char.ofNat (0x10000 + (n - 0xd800) * 0x400 + (m - 0xdc00))
    else Read.fail .loneSurrogate) (trail ++ r) = _
  rw [run_bind_of_ok (hexEscape_writes ht hm r), htrail]
  rfl

theorem Surrogates.joined {c : Char} {m : Nat} (h : Surrogates c n m) :
    isLead n ∧ isTrail m ∧ 0x10000 + (n - 0xd800) * 0x400 + (m - 0xdc00) = c.toNat := by
  obtain ⟨hc, hn, hm⟩ := h
  have hvalid := toNat_valid c
  rw [isLead_iff, isTrail_iff]
  omega

theorem exists_toNat_eq (h : n.isValidChar) : ∃ c : Char, c.toNat = n := ⟨Char.ofNatAux n h, rfl⟩

/-- A leading and a trailing surrogate are those of a character. -/
theorem exists_surrogates {m : Nat} (hn : isLead n) (hm : isTrail m) : ∃ c, Surrogates c n m := by
  rw [isLead_iff] at hn
  rw [isTrail_iff] at hm
  obtain ⟨c, hc⟩ := exists_toNat_eq (n := 0x10000 + (n - 0xd800) * 0x400 + (m - 0xdc00)) (.inr (by omega))
  exact ⟨c, by omega, by omega, by omega⟩

/-- A code that is no surrogate is that of a character. -/
theorem exists_char_of_code (hn : n < 0x10000) (ht : ¬ isTrail n) (hl : ¬ isLead n) :
    ∃ c : Char, c.toNat = n := by
  rw [isTrail_iff] at ht
  rw [isLead_iff] at hl
  apply exists_toNat_eq
  unfold Nat.isValidChar
  omega

/-- A row of code units that spells characters is read as these. -/
theorem characters_spelled (hs : Spells us cs) (ht : UnitsText t us) (hn : us.length < n) (r : List Char) :
    (characters n).run (t ++ '"' :: r) = .ok cs r := by
  induction hs generalizing t n with
  | nil =>
    obtain ⟨k, rfl⟩ := Nat.exists_eq_add_one_of_ne_zero (Nat.ne_zero_of_lt hn)
    cases ht
    rfl
  | char c us cs _ ih =>
    obtain ⟨k, rfl⟩ := Nat.exists_eq_add_one_of_ne_zero (Nat.ne_zero_of_lt hn)
    have hk : us.length < k := by simpa using hn
    cases ht with
    | plain _ t _ hc hq hb ht =>
      rw [List.cons_append, characters_plain hq hb (by omega), run_bind_of_ok (ih ht hk)]
      rfl
    | letter e _ t _ he ht =>
      rw [List.cons_append, List.cons_append, characters_escape (escape_letter he _), run_bind_of_ok (ih ht hk)]
      rfl
  | code c us cs _ ih =>
    obtain ⟨k, rfl⟩ := Nat.exists_eq_add_one_of_ne_zero (Nat.ne_zero_of_lt hn)
    have hk : us.length < k := by simpa using hn
    cases ht with
    | code four t _ _ hl hf ht =>
      rw [List.cons_append, List.cons_append, List.append_assoc, characters_escape (escape_code hl hf _),
        run_bind_of_ok (ih ht hk)]
      rfl
  | surrogates c n m us cs hc _ ih =>
    obtain ⟨k, rfl⟩ := Nat.exists_eq_add_one_of_ne_zero (Nat.ne_zero_of_lt hn)
    have hk : us.length < k := by
      simp only [List.length_cons] at hn
      omega
    obtain ⟨hlead, htrail, hsum⟩ := hc.joined
    cases ht with
    | code lead t' _ _ hl hf ht' =>
      cases ht' with
      | code trail t _ _ hl' hf' ht =>
        simp only [List.cons_append, List.append_assoc]
        rw [characters_escape (escape_pair hl hf hlead hl' hf' htrail _), hsum, Char.ofNat_toNat,
          run_bind_of_ok (ih ht hk)]
        rfl

theorem UnitsText.length_le (h : UnitsText t us) : us.length ≤ t.length := by
  induction h with
  | nil => exact Nat.le_refl 0
  | plain c t us _ _ _ _ ih => exact Nat.succ_le_succ ih
  | letter e c t us _ _ ih =>
    simp only [List.length_cons]
    omega
  | code four t n us _ _ _ ih =>
    simp only [List.length_cons, List.length_append]
    omega

/-- The text of a string is read as what it spells. -/
theorem string_spelled (h : UnitsText t us) (hs : Spells us cs) (r : List Char) :
    string.run (t ++ '"' :: r) = .ok (String.ofList cs) r := by
  have hl := h.length_le
  have hn : us.length < (t ++ '"' :: r).length + 1 := by
    rw [List.length_append]
    omega
  unfold string
  rw [run_bind_of_ok (p := get) rfl, run_bind_of_ok (characters_spelled hs h hn r)]
  rfl

theorem fails_characters {c : Char} (h : Fails (characters n) r) :
    Fails (do return c :: (← characters n)) r := h.bind _

theorem fails_escape {c : Char} (h : escape.run cs = .ok c r) (hf : Fails (characters n) r) :
    Fails (characters (n + 1)) ('\\' :: cs) := by
  obtain ⟨f, s, hf⟩ := fails_characters (c := c) hf
  exact ⟨f, s, by rw [characters_escape h, hf]⟩

theorem characters_fails_of_escape (h : Fails escape cs) : Fails (characters (n + 1)) ('\\' :: cs) := by
  obtain ⟨f, s, h⟩ := h.bind fun c => do return c :: (← characters n)
  exact ⟨f, s, h⟩

theorem run_needs (c : Char) (r : List Char) : (needs c).run (c :: r) = .ok () r := by
  rw [needs, run_peek_bind, List.head?_cons]
  simp only [↓reduceIte]
  rfl

theorem fails_needs {c d : Char} (h : d ≠ c) (r : List Char) : Fails (needs c) (d :: r) := by
  unfold Fails
  rw [needs, run_peek_bind, List.head?_cons]
  simp only [h, ↓reduceIte]
  exact fails_failNext _ _

/-- A leading surrogate needs a trailing one behind it. -/
theorem fails_lead (hl : four.length = 4) (hf : Text.Writes four n) (hn : isLead n) (ht : UnitsText t us)
    (hus : ∀ m us', us = .code m :: us' → ¬ isTrail m) (r : List Char) :
    Fails escape ('u' :: (four ++ (t ++ '"' :: r))) := by
  unfold Fails
  rw [run_codeEscape hl hf, isTrail_of_isLead hn, hn]
  simp only [Bool.false_eq_true, ↓reduceIte]
  cases ht with
  | nil => exact (fails_needs (by decide) _).bind _
  | plain c t us _ _ hb _ => exact (fails_needs hb _).bind _
  | letter e c t us he _ =>
    have hu : ∀ p ∈ escapeLetters, p.1 ≠ 'u' := by decide
    exact fails_bind_of_ok (run_needs _ _) ((fails_needs (hu (e, c) he) _).bind _)
  | code four' t m us hl' hf' _ =>
    rw [List.cons_append, List.cons_append, List.append_assoc]
    refine fails_bind_of_ok (run_needs _ _) (fails_bind_of_ok (run_needs _ _) ?_)
    refine fails_bind_of_ok (hexEscape_writes hl' hf' _) ?_
    rw [if_neg (hus m us rfl)]
    exact fails_fail _ _

/-- A row of code units that spells nothing is refused. -/
theorem characters_unspelled (ht : UnitsText t us) (hs : ∀ cs, ¬ Spells us cs) (n : Nat) (r : List Char) :
    Fails (characters n) (t ++ '"' :: r) := by
  -- On the number of characters that may be read: a pair of surrogates takes two units off the row at once.
  induction n generalizing t us with
  | zero => exact fails_fail _ _
  | succ n ih =>
    cases ht with
    | nil => exact absurd .nil (hs [])
    | plain c t us hc hq hb ht =>
      have hrest := ih ht fun cs h => hs (c :: cs) (.char c us cs h)
      obtain ⟨f, s, hrest⟩ := fails_characters (c := c) hrest
      exact ⟨f, s, by rw [List.cons_append, characters_plain hq hb (by omega), hrest]⟩
    | letter e c t us he ht =>
      have hrest := ih ht fun cs h => hs (c :: cs) (.char c us cs h)
      exact fails_escape (escape_letter he _) hrest
    | code four t m us hl hf ht =>
      simp only [List.cons_append, List.append_assoc]
      by_cases htrail : isTrail m
      · refine characters_fails_of_escape ?_
        unfold Fails
        rw [run_codeEscape hl hf, if_pos htrail]
        exact fails_fail _ _
      by_cases hlead : isLead m
      · by_cases hpair : ∃ k us', us = .code k :: us' ∧ isTrail k
        · obtain ⟨k, us', rfl, hk⟩ := hpair
          cases ht with
          | code four' t _ _ hl' hf' ht =>
            obtain ⟨c, hc⟩ := exists_surrogates hlead hk
            have hrest := ih ht fun cs h => hs (c :: cs) (.surrogates c m k us' cs hc h)
            simp only [List.cons_append, List.append_assoc]
            exact fails_escape (escape_pair hl hf hlead hl' hf' hk _) hrest
        · refine characters_fails_of_escape (fails_lead hl hf hlead ht ?_ r)
          exact fun k us' he hk => hpair ⟨k, us', he, hk⟩
      · have hlt := hf.lt
        rw [hl] at hlt
        obtain ⟨c, rfl⟩ := exists_char_of_code hlt htrail hlead
        have hrest := ih ht fun cs h => hs (c :: cs) (.code c us cs h)
        exact fails_escape (escape_code hl hf _) hrest

theorem string_unspelled (h : UnitsText t us) (hs : ∀ cs, ¬ Spells us cs) (r : List Char) :
    Fails string (t ++ '"' :: r) := by
  unfold string
  exact fails_bind_of_ok (p := get) rfl ((characters_unspelled h hs _ r).bind _)

theorem skipEscape_letter {e c : Char} (h : (e, c) ∈ escapeLetters) (r : List Char) :
    skipEscape.run (e :: r) = .ok () r := by
  have hall : ∀ p ∈ escapeLetters, (simpleEscapes.lookup p.1).isSome := by decide
  unfold skipEscape
  rw [run_peek_bind, List.head?_cons]
  simp only [hall (e, c) h, ↓reduceIte]
  rfl

theorem skipEscape_code (hl : four.length = 4) (h : Text.Writes four n) (r : List Char) :
    skipEscape.run ('u' :: (four ++ r)) = .ok () r := by
  change EStateM.run (do let _ ← hexEscape) (four ++ r) = _
  rw [run_bind_of_ok (hexEscape_writes hl h r)]
  rfl

theorem skipCharacters_escape (h : skipEscape.run cs = .ok () r) (n : Nat) :
    (skipCharacters (n + 1)).run ('\\' :: cs) = (skipCharacters n).run r := by
  change EStateM.run (do skipEscape; skipCharacters n) cs = _
  rw [run_bind_of_ok h]

theorem skipCharacters_units (h : UnitsText t us) (hn : us.length < n) (r : List Char) :
    (skipCharacters n).run (t ++ '"' :: r) = .ok () r := by
  induction h generalizing n with
  | nil =>
    obtain ⟨k, rfl⟩ := Nat.exists_eq_add_one_of_ne_zero (Nat.ne_zero_of_lt hn)
    rfl
  | plain c t us hc hq hb _ ih =>
    obtain ⟨k, rfl⟩ := Nat.exists_eq_add_one_of_ne_zero (Nat.ne_zero_of_lt hn)
    have hplain : ¬ c.toNat < 0x20 := by omega
    rw [List.cons_append, skipCharacters, run_peek_bind, List.head?_cons]
    simp only [hplain]
    exact ih (by simpa using hn)
  | letter e c t us he _ ih =>
    obtain ⟨k, rfl⟩ := Nat.exists_eq_add_one_of_ne_zero (Nat.ne_zero_of_lt hn)
    rw [List.cons_append, List.cons_append, skipCharacters_escape (skipEscape_letter he _)]
    exact ih (by simpa using hn)
  | code four t m us hl hf _ ih =>
    obtain ⟨k, rfl⟩ := Nat.exists_eq_add_one_of_ne_zero (Nat.ne_zero_of_lt hn)
    rw [List.cons_append, List.cons_append, List.append_assoc, skipCharacters_escape (skipEscape_code hl hf _)]
    exact ih (by simpa using hn)

/-- Skipping a string looks for its end only. -/
theorem skipString_units (h : UnitsText t us) (r : List Char) : skipString.run (t ++ '"' :: r) = .ok () r := by
  have hl := h.length_le
  have hn : us.length < (t ++ '"' :: r).length + 1 := by
    rw [List.length_append]
    omega
  unfold skipString
  rw [run_bind_of_ok (p := get) rfl]
  exact skipCharacters_units h hn r

end Json

end FunctionSlice
