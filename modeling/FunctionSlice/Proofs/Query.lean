import FunctionSlice.Query
import Mathlib.Data.List.DropRight
import Mathlib.Data.List.Forall2
import Mathlib.Data.List.TakeWhile
import Mathlib.Data.Nat.Digits.Defs

/-! The texts that are addresses. What is displayed of a query is such a text or is none, as the query was read,
so reading it again changes nothing. -/

namespace FunctionSlice

namespace Text

/-- `t` is `s` without the white space at its ends. -/
structure Trimmed (s t : List Char) : Prop where
  cut : ∃ front back, s = front ++ t ++ back ∧ (∀ c ∈ front, isBlank c) ∧ ∀ c ∈ back, isBlank c
  head : ∀ c ∈ t.head?, ¬ isBlank c
  last : ∀ c ∈ t.getLast?, ¬ isBlank c

variable {s t cs ds : List Char} {c : Char} {v n limit : Nat}

theorem trimmed_trimChars (s : List Char) : Trimmed s (trimChars s) := by
  change Trimmed s ((s.dropWhile isBlank).rdropWhile isBlank)
  refine ⟨⟨s.takeWhile isBlank, (s.dropWhile isBlank).rtakeWhile isBlank, ?_, ?_, ?_⟩, ?_, ?_⟩
  · rw [List.append_assoc, List.rdropWhile_append_rtakeWhile, List.takeWhile_append_dropWhile]
  · exact fun c => List.mem_takeWhile_imp
  · exact fun c => List.mem_rtakeWhile_imp
  · intro c hc
    obtain ⟨cs, hcs⟩ := List.head?_eq_some_iff.1 hc
    obtain ⟨rest, hrest⟩ := List.rdropWhile_prefix isBlank (s.dropWhile isBlank)
    have hhead := List.head?_dropWhile_not isBlank s
    rw [← hrest, hcs] at hhead
    exact Bool.eq_false_iff.1 hhead
  · intro c hc
    obtain ⟨hne, rfl⟩ := List.mem_getLast?_eq_getLast hc
    exact List.rdropWhile_last_not isBlank _ hne

theorem dropWhile_blanks (hs : ∀ c ∈ s, isBlank c) (ht : ∀ c ∈ t.head?, ¬ isBlank c) :
    (s ++ t).dropWhile isBlank = t := by
  rw [List.dropWhile_append_of_pos hs]
  cases t with
  | nil => rfl
  | cons c t => exact List.dropWhile_cons_of_neg (ht c rfl)

/-- There is one way to trim a text. -/
theorem Trimmed.trimChars_eq (h : Trimmed s t) : trimChars s = t := by
  obtain ⟨⟨front, back, rfl, hfront, hback⟩, hhead, hlast⟩ := h
  rcases eq_or_ne t [] with rfl | hne
  · have hblank : ∀ c ∈ front ++ back, isBlank c := fun c hc => (List.mem_append.1 hc).elim (hfront c) (hback c)
    rw [trimChars, List.append_nil, List.dropWhile_eq_nil_iff.2 hblank]
    rfl
  · rw [trimChars, List.append_assoc, dropWhile_blanks hfront, List.reverse_append, dropWhile_blanks,
      List.reverse_reverse]
    · exact fun c hc => hback c (List.mem_reverse.1 hc)
    · rwa [List.head?_reverse]
    · rwa [List.head?_append_of_ne_nil t hne]

theorem Trimmed.again (h : Trimmed s t) : Trimmed t t :=
  ⟨⟨[], [], by rw [List.append_nil, List.nil_append], nofun, nofun⟩, h.head, h.last⟩

/-- The character is the digit of `v` in either case. -/
def IsHexDigit (c : Char) (v : Nat) : Prop := v < 16 ∧ (c = v.digitChar ∨ c = v.digitChar.toUpper)

instance : Decidable (IsHexDigit c v) := inferInstanceAs (Decidable (_ ∧ _))

/-- The digits write `n`, the highest digit first. -/
def Writes (cs : List Char) (n : Nat) : Prop :=
  ∃ vs, List.Forall₂ IsHexDigit cs.reverse vs ∧ Nat.ofDigits 16 vs = n

theorem exists_offset {first last : Char} (h : first ≤ c ∧ c ≤ last) :
    ∃ k ≤ last.toNat - first.toNat, c = Char.ofNat (first.toNat + k) := by
  have hfirst : first.toNat ≤ c.toNat := UInt32.le_iff_toNat_le.1 h.1
  have hlast : c.toNat ≤ last.toNat := UInt32.le_iff_toNat_le.1 h.2
  refine ⟨c.toNat - first.toNat, by omega, ?_⟩
  rw [Nat.add_sub_cancel' hfirst, Char.ofNat_toNat]

theorem hexValue?_eq_some_iff : hexValue? c = some v ↔ IsHexDigit c v := by
  constructor
  · have hdigits : ∀ k ≤ 9, IsHexDigit (Char.ofNat (48 + k)) ((Char.ofNat (48 + k)).toNat - 48) := by decide
    have hlower : ∀ k ≤ 5, IsHexDigit (Char.ofNat (97 + k)) ((Char.ofNat (97 + k)).toNat - 87) := by decide
    have hupper : ∀ k ≤ 5, IsHexDigit (Char.ofNat (65 + k)) ((Char.ofNat (65 + k)).toNat - 55) := by decide
    fun_cases hexValue? c with
    | case1 h =>
      rintro ⟨⟩
      obtain ⟨k, hk, rfl⟩ := exists_offset h
      exact hdigits k hk
    | case2 _ h =>
      rintro ⟨⟩
      obtain ⟨k, hk, rfl⟩ := exists_offset h
      exact hlower k hk
    | case3 _ _ h =>
      rintro ⟨⟩
      obtain ⟨k, hk, rfl⟩ := exists_offset h
      exact hupper k hk
    | case4 => nofun
  · have hlower : ∀ k < 16, hexValue? (Nat.digitChar k) = some k := by decide
    have hupper : ∀ k < 16, hexValue? (Nat.digitChar k).toUpper = some k := by decide
    rintro ⟨hv, rfl | rfl⟩
    · exact hlower v hv
    · exact hupper v hv

theorem IsHexDigit.not_isBlank (h : IsHexDigit c v) : ¬ isBlank c := by
  have hlower : ∀ k < 16, ¬ isBlank (Nat.digitChar k) := by decide
  have hupper : ∀ k < 16, ¬ isBlank (Nat.digitChar k).toUpper := by decide
  obtain ⟨hv, rfl | rfl⟩ := h
  · exact hlower v hv
  · exact hupper v hv

theorem IsHexDigit.ne_plus (h : IsHexDigit c v) : c ≠ '+' := by
  rintro rfl
  cases hexValue?_eq_some_iff.2 h

theorem writes_nil : Writes [] n ↔ n = 0 := by
  simp [Writes, eq_comm]

theorem writes_concat : Writes (cs ++ [c]) n ↔ ∃ m v, Writes cs m ∧ IsHexDigit c v ∧ n = m * 16 + v := by
  simp only [Writes, List.reverse_append, List.reverse_singleton, List.singleton_append,
    List.forall₂_cons_left_iff]
  constructor
  · rintro ⟨_, ⟨v, vs, hc, hcs, rfl⟩, rfl⟩
    refine ⟨_, v, ⟨vs, hcs, rfl⟩, hc, ?_⟩
    rw [Nat.ofDigits_cons]
    omega
  · rintro ⟨_, v, ⟨vs, hcs, rfl⟩, hc, rfl⟩
    refine ⟨v :: vs, ⟨v, vs, hc, hcs, rfl⟩, ?_⟩
    rw [Nat.ofDigits_cons]
    omega

theorem Writes.exists_digit (h : Writes cs n) : ∀ c ∈ cs, ∃ v, IsHexDigit c v := by
  induction cs using List.reverseRecOn generalizing n with
  | nil => exact nofun
  | append_singleton cs d ih =>
    obtain ⟨m, v, hm, hd, -⟩ := writes_concat.1 h
    intro c hc
    rcases List.mem_append.1 hc with hc | hc
    · exact ih hm c hc
    · exact ⟨v, List.mem_singleton.1 hc ▸ hd⟩

theorem writes_toDigits (n : Nat) : Writes (Nat.toDigits 16 n) n := by
  induction n using Nat.strongRecOn with
  | _ n ih =>
    have hdigit : IsHexDigit (n % 16).digitChar (n % 16) := ⟨Nat.mod_lt n (by decide), .inl rfl⟩
    rw [Nat.toDigits_eq_if (by decide)]
    split
    · rename_i hlt
      rw [Nat.mod_eq_of_lt hlt] at hdigit
      exact writes_concat.2 ⟨0, n, writes_nil.2 rfl, hdigit, by omega⟩
    · exact writes_concat.2 ⟨n / 16, n % 16, ih (n / 16) (by omega), hdigit, by omega⟩

theorem hexNumber?_concat :
    hexNumber? limit (cs ++ [c]) = some n ↔
      ∃ m, (cs = [] ∧ m = 0 ∨ hexNumber? limit cs = some m) ∧
        ∃ v, IsHexDigit c v ∧ m * 16 + v < limit ∧ m * 16 + v = n := by
  have hne : (cs ++ [c]).isEmpty = false := by simp
  simp only [← hexValue?_eq_some_iff, hexNumber?, hne, Bool.false_eq_true, ↓reduceIte, List.foldl_append,
    List.foldl_cons, List.foldl_nil, Option.bind_eq_bind, Option.bind_eq_some_iff,
    Option.ite_none_right_eq_some, Option.some.injEq]
  cases cs with
  | nil => simp [eq_comm]
  | cons d ds => simp

/-- A number is read of its digits, unless it is too large: the limit is kept after each digit, and it is enough
to keep it after the last. -/
theorem hexNumber?_eq_some_iff : hexNumber? limit cs = some n ↔ cs ≠ [] ∧ Writes cs n ∧ n < limit := by
  -- From the right, as the last digit is read last. The value only grows, so a front is below the limit too.
  induction cs using List.reverseRecOn generalizing n with
  | nil => simp [hexNumber?]
  | append_singleton cs c ih =>
    rw [hexNumber?_concat, writes_concat]
    constructor
    · rintro ⟨m, hm, v, hc, hlt, rfl⟩
      refine ⟨by simp, ⟨m, v, ?_, hc, rfl⟩, hlt⟩
      rcases hm with ⟨rfl, rfl⟩ | hm
      · exact writes_nil.2 rfl
      · exact (ih.1 hm).2.1
    · rintro ⟨-, ⟨m, v, hm, hc, rfl⟩, hlt⟩
      refine ⟨m, ?_, v, hc, hlt, rfl⟩
      rcases List.eq_nil_or_concat' cs with rfl | ⟨ds, d, rfl⟩
      · exact .inl ⟨rfl, writes_nil.1 hm⟩
      · exact .inr (ih.2 ⟨by simp, hm, by omega⟩)

end Text

namespace Query

open Text

/-- `0x` in either case, at most one plus sign, and digits that write `n`. -/
inductive AddressText : List Char → Nat → Prop
  | of (x : Char) (plus digits : List Char) (n : Nat) : x = 'x' ∨ x = 'X' → plus = [] ∨ plus = ['+'] →
      digits ≠ [] → Writes digits n → AddressText ('0' :: x :: (plus ++ digits)) n

variable {cs plus digits : List Char} {x : Char} {a : Word} {s t name : String}

/-- A plus sign is taken for the sign wherever it may be one; behind it no other is. -/
theorem addressDigits?_of (hx : x = 'x' ∨ x = 'X') (hplus : plus = [] ∨ plus = ['+'])
    (hd : '+' ∉ digits) : addressDigits? ('0' :: x :: (plus ++ digits)) = some digits := by
  rcases hplus with rfl | rfl
  · have hhead : ∀ r, digits ≠ '+' :: r := by
      rintro r rfl
      exact hd List.mem_cons_self
    rcases hx with rfl | rfl <;> simp [addressDigits?]
  · rcases hx with rfl | rfl <;> rfl

theorem address?_eq_some_iff : address? cs = some a ↔ AddressText cs a.toNat := by
  simp only [address?, Option.bind_eq_bind, Option.bind_eq_some_iff, Option.pure_def, Option.some.injEq,
    hexNumber?_eq_some_iff]
  constructor
  · rintro ⟨digits, hdigits, n, ⟨hne, hn, hlt⟩, rfl⟩
    rw [Word.toNat_ofNat hlt]
    revert hdigits
    fun_cases addressDigits? cs <;> rintro ⟨⟩
    · exact .of 'x' ['+'] _ n (.inl rfl) (.inr rfl) hne hn
    · exact .of 'X' ['+'] _ n (.inr rfl) (.inr rfl) hne hn
    · exact .of 'x' [] _ n (.inl rfl) (.inl rfl) hne hn
    · exact .of 'X' [] _ n (.inr rfl) (.inl rfl) hne hn
  · rintro ⟨x, plus, digits, _, hx, hplus, hne, hn⟩
    refine ⟨digits, addressDigits?_of hx hplus ?_, a.toNat, ⟨hne, hn, a.toNat_lt⟩, UInt64.ofNat_toNat⟩
    intro hmem
    obtain ⟨v, hv⟩ := hn.exists_digit '+' hmem
    exact hv.ne_plus rfl

theorem parse_eq (h : Trimmed s.toList t.toList) :
    parse s = (address? t.toList).elim (.byName t) .byAddress := by
  rw [parse, Text.trim, h.trimChars_eq, String.ofList_toList]
  cases address? t.toList <;> rfl

theorem parse_eq_byAddress_iff (h : Trimmed s.toList t.toList) :
    parse s = .byAddress a ↔ AddressText t.toList a.toNat := by
  rw [parse_eq h, ← address?_eq_some_iff]
  cases address? t.toList <;> simp

theorem parse_eq_byName_iff (h : Trimmed s.toList t.toList) :
    parse s = .byName name ↔ name = t ∧ ∀ a : Word, ¬ AddressText t.toList a.toNat := by
  simp only [parse_eq h, ← address?_eq_some_iff]
  cases address? t.toList <;> simp [eq_comm]

theorem toList_hex (a : Word) : (Text.hex a).toList = '0' :: 'x' :: Nat.toDigits 16 a.toNat := by
  simp [Text.hex, hexDigits]

theorem addressText_hex (a : Word) : AddressText (Text.hex a).toList a.toNat := by
  rw [toList_hex]
  exact .of 'x' [] _ _ (.inl rfl) (.inl rfl) Nat.toDigits_ne_nil (writes_toDigits a.toNat)

/-- There is no white space at the ends of an address. -/
theorem AddressText.trimmed {n : Nat} (h : AddressText cs n) : Trimmed cs cs := by
  obtain ⟨x, plus, digits, n, -, -, hne, hn⟩ := h
  refine ⟨⟨[], [], by simp, nofun, nofun⟩, ?_, ?_⟩
  · rintro c ⟨⟩
    decide
  · intro c hc
    rw [← List.cons_append, ← List.cons_append, List.getLast?_append_of_ne_nil _ hne] at hc
    obtain ⟨v, hv⟩ := hn.exists_digit c (List.mem_of_getLast? hc)
    exact hv.not_isBlank

theorem parse_display_byAddress (a : Word) : parse (byAddress a).display = byAddress a :=
  (parse_eq_byAddress_iff (addressText_hex a).trimmed).2 (addressText_hex a)

/-- A text is read as an address if it is one without the white space at its ends, and as a name else. What is
displayed of an address is read as the address, and what is displayed of anything that was read as the same
again. -/
theorem parse_exact (s : String) :
    ∃ t : String, Trimmed s.toList t.toList ∧
      (∀ a, parse s = byAddress a ↔ AddressText t.toList a.toNat) ∧
      (∀ name, parse s = byName name ↔ name = t ∧ ∀ a : Word, ¬ AddressText t.toList a.toNat) ∧
      (∀ a, parse (byAddress a).display = byAddress a) ∧
      parse (parse s).display = parse s := by
  have ht : Trimmed s.toList (Text.trim s).toList := by
    rw [Text.trim, String.toList_ofList]
    exact trimmed_trimChars s.toList
  refine ⟨Text.trim s, ht, fun a => parse_eq_byAddress_iff ht, fun name => parse_eq_byName_iff ht,
    parse_display_byAddress, ?_⟩
  cases h : parse s with
  | byAddress a => exact parse_display_byAddress a
  | byName name =>
    obtain ⟨rfl, hno⟩ := (parse_eq_byName_iff ht).1 h
    exact (parse_eq_byName_iff ht.again).2 ⟨rfl, hno⟩

/-- A value of 65 bits makes a name. -/
example : parse " 0X+00fF\n" = byAddress 0xff ∧ parse "0x10000000000000000" = byName "0x10000000000000000" := by
  decide +kernel

end Query

end FunctionSlice
