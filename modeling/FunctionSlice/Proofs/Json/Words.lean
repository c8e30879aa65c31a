import FunctionSlice.Json.Read
import FunctionSlice.Json.Value

/-! Strings and numbers are read back as they were written. A string ends at its closing quote, whatever
it holds; a number ends where no digit follows. -/

namespace FunctionSlice.Json

open Read

variable {α β : Type} {p : Read α} {a : α} {cs r : List Char}

theorem run_bind_of_ok (h : p.run cs = .ok a r) (f : α → Read β) :
    (p >>= f).run cs = (f a).run r := by
  rw [EStateM.run_bind, h]

theorem run_peek_bind (f : Option Char → Read β) (cs : List Char) :
    (peek >>= f).run cs = (f cs.head?).run cs := rfl

theorem escape_simple {e c : Char} (h : simpleEscapes.lookup e = some c) (r : List Char) :
    escape.run (e :: r) = .ok c r := by
  unfold escape
  rw [run_peek_bind]
  simp only [List.head?_cons, h]
  rfl

theorem hexEscape_of_hex4? {four : List Char} {n : Nat} (hl : four.length = 4)
    (hb : byteLength four = 4) (h : hex4? four = some n) (r : List Char) :
    hexEscape.run (four ++ r) = .ok n r := by
  have ht : (four ++ r).take 4 = four := List.take_left' hl
  have hd : (four ++ r).drop 4 = r := List.drop_left' hl
  unfold hexEscape
  rw [run_bind_of_ok (p := get) rfl]
  simp only [ht, hb, h, hd]
  rfl

/-- The digits of a control character. -/
def controlDigits (n : Nat) : List Char := ['0', '0', Nat.digitChar (n / 16), Nat.digitChar (n % 16)]

theorem hex4?_controlDigits : ∀ n < 0x20, hex4? (controlDigits n) = some n := by decide

theorem byteLength_controlDigits : ∀ n < 0x20, byteLength (controlDigits n) = 4 := by decide

theorem escape_control {c : Char} (h : c.toNat < 0x20) (r : List Char) :
    escape.run ('u' :: controlDigits c.toNat ++ r) = .ok c r := by
  have hh : hexEscape.run (controlDigits c.toNat ++ r) = .ok c.toNat r :=
    hexEscape_of_hex4? rfl (byteLength_controlDigits _ h) (hex4?_controlDigits _ h) r
  have ht : isTrail c.toNat = false := by
    unfold isTrail
    simp only [Bool.and_eq_false_iff, decide_eq_false_iff_not]
    omega
  have hl : isLead c.toNat = false := by
    unfold isLead
    simp only [Bool.and_eq_false_iff, decide_eq_false_iff_not]
    omega
  change codeEscape.run (controlDigits c.toNat ++ r) = _
  unfold codeEscape
  rw [run_bind_of_ok hh]
  simp only [ht, hl]
  change EStateM.Result.ok (Char.ofNat c.toNat) r = _
  rw [Char.ofNat_toNat]

/-- A character stands for itself, or behind a backslash for what it is escaped to. -/
theorem escapedChar_cases (c : Char) :
    (escapedChar c = [c] ∧ c ≠ '"' ∧ c ≠ '\\' ∧ ¬ c.toNat < 0x20) ∨
      ∃ e, escapedChar c = '\\' :: e ∧ ∀ r, escape.run (e ++ r) = .ok c r := by
  have simple {d e : Char} (h : simpleEscapes.lookup e = some d) :
      ∃ t, ['\\', e] = '\\' :: t ∧ ∀ r, escape.run (t ++ r) = .ok d r :=
    ⟨[e], rfl, escape_simple h⟩
  unfold escapedChar
  split
  · exact .inr (by subst_vars; exact simple rfl)
  split
  · exact .inr (by subst_vars; exact simple rfl)
  split
  · exact .inr (by subst_vars; exact simple rfl)
  split
  · exact .inr (by subst_vars; exact simple rfl)
  split
  · exact .inr (by subst_vars; exact simple rfl)
  split
  · have hc : c = '\x08' := Char.toNat_inj.1 ‹_›
    exact .inr (by subst hc; exact simple rfl)
  split
  · have hc : c = '\x0c' := Char.toNat_inj.1 ‹_›
    exact .inr (by subst hc; exact simple rfl)
  split
  · exact .inr ⟨_, rfl, escape_control ‹_›⟩
  · exact .inl ⟨rfl, ‹_›, ‹_›, ‹_›⟩

theorem characters_plain {c : Char} (hq : c ≠ '"') (hb : c ≠ '\\') (hc : ¬ c.toNat < 0x20) (n : Nat)
    (r : List Char) :
    (characters (n + 1)).run (c :: r) = EStateM.run (do return c :: (← characters n)) r := by
  rw [characters, run_peek_bind, List.head?_cons]
  simp only [hc]
  rfl

theorem characters_escape {c : Char} (h : escape.run cs = .ok c r) (n : Nat) :
    (characters (n + 1)).run ('\\' :: cs) = EStateM.run (do return c :: (← characters n)) r := by
  change EStateM.run (do let c ← escape; return c :: (← characters n)) cs = _
  rw [run_bind_of_ok h]

/-- What is written of a character is taken as that character. -/
theorem characters_escapedChar (n : Nat) (c : Char) (r : List Char) :
    (characters (n + 1)).run (escapedChar c ++ r) =
      EStateM.run (do return c :: (← characters n)) r := by
  rcases escapedChar_cases c with ⟨he, hq, hb, hc⟩ | ⟨e, he, hr⟩
  · rw [he, List.singleton_append, characters_plain hq hb hc]
  · rw [he, List.cons_append, characters_escape (hr r)]

theorem characters_written (s : List Char) {n : Nat} (h : s.length < n) (r : List Char) :
    (characters n).run (s.flatMap escapedChar ++ '"' :: r) = .ok s r := by
  induction s generalizing n with
  | nil =>
    obtain ⟨k, rfl⟩ := Nat.exists_eq_add_one_of_ne_zero (Nat.ne_zero_of_lt h)
    rfl
  | cons c s ih =>
    obtain ⟨k, rfl⟩ := Nat.exists_eq_add_one_of_ne_zero (Nat.ne_zero_of_lt h)
    rw [List.flatMap_cons, List.append_assoc, characters_escapedChar]
    rw [run_bind_of_ok (ih (by simpa using h))]
    rfl

theorem length_le_flatMap_escapedChar (s : List Char) :
    s.length ≤ (s.flatMap escapedChar).length := by
  induction s with
  | nil => exact Nat.le_refl 0
  | cons c s ih =>
    have hc : 1 ≤ (escapedChar c).length := by
      rcases escapedChar_cases c with ⟨he, -⟩ | ⟨e, he, -⟩ <;> simp [he]
    rw [List.flatMap_cons, List.length_append, List.length_cons]
    omega

/-- A string after its opening quote is read back, and its closing quote with it. -/
theorem string_written (s : String) (r : List Char) :
    string.run (s.toList.flatMap escapedChar ++ '"' :: r) = .ok s r := by
  have hl := length_le_flatMap_escapedChar s.toList
  have hn : s.toList.length < (s.toList.flatMap escapedChar ++ '"' :: r).length + 1 := by
    rw [List.length_append]
    omega
  unfold string
  rw [run_bind_of_ok (p := get) rfl, run_bind_of_ok (characters_written s.toList hn r)]
  change EStateM.Result.ok (String.ofList s.toList) r = _
  rw [String.ofList_toList]

/-- What can stand behind a value. -/
def Ends (r : List Char) : Prop := ∀ c ∈ r.head?, c = ',' ∨ c = ']' ∨ c = '\x7d' ∨ isBlank c

theorem Ends.head_ne {c : Char} (h : Ends (c :: r)) :
    c.isDigit = false ∧ c ≠ '.' ∧ c ≠ 'e' ∧ c ≠ 'E' := by
  rcases h c rfl with rfl | rfl | rfl | hb
  · decide
  · decide
  · decide
  · simp only [isBlank, Bool.or_eq_true, beq_iff_eq] at hb
    rcases hb with ((rfl | rfl) | rfl) | rfl <;> decide

theorem Ends.noDigit (h : Ends r) : ∀ c ∈ r.head?, c.isDigit = false := by
  intro c hc
  obtain ⟨cs, rfl⟩ := List.head?_eq_some_iff.1 hc
  exact h.head_ne.1

theorem takeDigits_append {ds : List Char} (hd : ∀ c ∈ ds, c.isDigit) (hr : ∀ c ∈ r.head?, c.isDigit = false) :
    takeDigits.run (ds ++ r) = .ok ds r := by
  have ht : (ds ++ r).takeWhile Char.isDigit = ds ∧ (ds ++ r).dropWhile Char.isDigit = r := by
    rw [List.takeWhile_append_of_pos hd, List.dropWhile_append_of_pos hd]
    cases r with
    | nil => simp
    | cons c r => simp [hr c rfl]
  change EStateM.Result.ok _ _ = _
  rw [ht.1, ht.2]

theorem le_ofDigitChars (ds : List Char) (n : Nat) : n ≤ Nat.ofDigitChars 10 ds n := by
  induction ds generalizing n with
  | nil => exact Nat.le_refl n
  | cons d ds ih => exact Nat.le_trans (by omega) (ih (10 * n + (d.toNat - '0'.toNat)))

/-- Digits whose number fits are all taken in. -/
theorem accumulate_of_lt {ds : List Char} {n : Nat}
    (h : Nat.ofDigitChars 10 ds n < 0x1_0000_0000_0000_0000) :
    accumulate n ds = (Nat.ofDigitChars 10 ds n, ds.length, []) := by
  induction ds generalizing n with
  | nil => rfl
  | cons d ds ih =>
    have he : n * 10 + digitValue d = 10 * n + (d.toNat - '0'.toNat) := by
      rw [Nat.mul_comm]
      rfl
    have hle := le_ofDigitChars ds (10 * n + (d.toNat - '0'.toNat))
    have hlt : 10 * n + (d.toNat - '0'.toNat) < 0x1_0000_0000_0000_0000 := Nat.lt_of_le_of_lt hle h
    rw [accumulate, he, if_pos hlt, ih h]
    rfl

/-- Only zero is written with a zero in front. -/
theorem toDigits_ne_zero_cons {n : Nat} (hn : n ≠ 0) (ds : List Char) :
    Nat.toDigits 10 n ≠ '0' :: ds := by
  induction n using Nat.strongRecOn generalizing ds with
  | ind n ih =>
    by_cases h : n < 10
    · rw [Nat.toDigits_of_lt_base h]
      have : ∀ k < 10, k ≠ 0 → Nat.digitChar k ≠ '0' := by decide
      intro hd
      exact this n h hn (List.cons.inj hd).1
    · have hsplit := Nat.toDigits_append_toDigits (b := 10) (n := n / 10) (d := n % 10) (by omega)
        (by omega) (by omega)
      rw [Nat.div_add_mod] at hsplit
      cases ht : Nat.toDigits 10 (n / 10) with
      | nil => exact absurd ht Nat.toDigits_ne_nil
      | cons d t =>
        rw [ht, List.cons_append] at hsplit
        rw [← hsplit]
        intro hd
        obtain ⟨rfl, -⟩ := List.cons.inj hd
        exact ih (n / 10) (by omega) (by omega) t ht

theorem toDigits_isDigit (n : Nat) : ∀ c ∈ Nat.toDigits 10 n, c.isDigit :=
  fun _ hc => Nat.isDigit_of_mem_toDigits (by omega) (by omega) hc

theorem exists_toDigits_eq_cons (n : Nat) :
    ∃ d ds, Nat.toDigits 10 n = d :: ds ∧ d.isDigit := by
  obtain ⟨d, ds, hds⟩ := List.exists_cons_of_ne_nil (Nat.toDigits_ne_nil (n := n) (b := 10))
  exact ⟨d, ds, hds, toDigits_isDigit n d (by rw [hds]; exact List.mem_cons_self)⟩

def Digits (ds : List Char) : Prop := ds ≠ [] ∧ ∀ c ∈ ds, c.isDigit

/-- No other number than zero has a zero in front. -/
inductive Whole : List Char → Prop
  | zero : Whole ['0']
  | digits (d : Char) (ds : List Char) : d ≠ '0' → Digits (d :: ds) → Whole (d :: ds)

theorem whole_toDigits (n : Nat) : Whole (Nat.toDigits 10 n) := by
  obtain ⟨d, ds, hds, -⟩ := exists_toDigits_eq_cons n
  by_cases hz : d = '0'
  · have hn : n = 0 := Decidable.byContradiction fun hne => toDigits_ne_zero_cons hne ds (hz ▸ hds)
    subst hn
    exact .zero
  · have hdigits := toDigits_isDigit n
    rw [hds] at hdigits ⊢
    exact .digits d ds hz ⟨List.cons_ne_nil d ds, hdigits⟩

theorem run_wholeDigits {t : List Char} (h : Whole t) (hr : ∀ c ∈ r.head?, c.isDigit = false) :
    wholeDigits.run (t ++ r) = .ok t r := by
  unfold wholeDigits
  cases h with
  | zero =>
    have hnext : (r.head?.map Char.isDigit == some true) = false := by
      cases r with
      | nil => rfl
      | cons c r => simp [hr c rfl]
    rw [List.singleton_append, run_peek_bind, List.head?_cons]
    change EStateM.run (if r.head?.map Char.isDigit == some true then failNext .invalidNumber
      else pure ['0']) r = _
    rw [hnext]
    rfl
  | digits d ds hd hds =>
    have hdd := hds.2 d List.mem_cons_self
    rw [List.cons_append, run_peek_bind, List.head?_cons]
    simp only [hdd, hd, Bool.not_true, Bool.false_eq_true, ↓reduceIte]
    rw [← List.cons_append, takeDigits_append hds.2 hr]

/-- What is left of a number after its whole digits, of which those in `left` are too many for 64 bits. -/
def numberTail (positive : Bool) (n : Nat) (left : List Char) : Read Number := do
  match ← peek with
  | some '.' => withFraction positive n left.length
  | some 'e' | some 'E' => withExponent positive n left.length
  | _ =>
    if !left.isEmpty then toFloat positive n left.length
    else if positive then return .unsigned n
    else if 0 < n && n ≤ 0x8000_0000_0000_0000 then return .negative n
    else return .float (-(UInt64.ofNat n).toFloat)

theorem run_number {t : List Char} (positive : Bool) (h : Whole t) (hr : ∀ c ∈ r.head?, c.isDigit = false) :
    (number positive).run (t ++ r) =
      (numberTail positive (accumulate 0 t).1 (accumulate 0 t).2.2).run r := by
  unfold number
  rw [run_bind_of_ok (run_wholeDigits h hr)]
  rfl

theorem run_numberTail (n : Nat) (left : List Char) (hr : Ends r) :
    (numberTail true n left).run r =
      EStateM.run (if !left.isEmpty then toFloat true n left.length else return .unsigned n) r := by
  unfold numberTail
  cases r with
  | nil => rfl
  | cons c r =>
    obtain ⟨-, hpoint, he, hE⟩ := hr.head_ne
    rw [run_peek_bind, List.head?_cons]
    split
    · rename_i h
      exact absurd (Option.some.inj h) hpoint
    · rename_i h
      exact absurd (Option.some.inj h) he
    · rename_i h
      exact absurd (Option.some.inj h) hE
    · rfl

/-- A number is read back wherever a value can end. -/
theorem number_written {n : Nat} (hn : n < 0x1_0000_0000_0000_0000) (hr : Ends r) :
    (number true).run (Nat.toDigits 10 n ++ r) = .ok (.unsigned n) r := by
  have hvalue : Nat.ofDigitChars 10 (Nat.toDigits 10 n) 0 = n :=
    Nat.ofDigitChars_toDigits (by omega) (by omega)
  have hacc : accumulate 0 (Nat.toDigits 10 n) = (n, (Nat.toDigits 10 n).length, []) := by
    rw [accumulate_of_lt (by rwa [hvalue]), hvalue]
  rw [run_number true (whole_toDigits n) hr.noDigit, hacc, run_numberTail n [] hr]
  rfl

end FunctionSlice.Json
