import FunctionSlice.Proofs.Json.Parts
import FunctionSlice.Proofs.Json.Spelling

/-! The texts of JSON, with any blanks between the words. A list or an object is what opens it and what is left of
it: the end, or one more part and the rest. -/

namespace FunctionSlice.Json

inductive Fraction : List Char → Prop
  | absent : Fraction []
  | digits (ds : List Char) : Digits ds → Fraction ('.' :: ds)

inductive Exponent : List Char → Prop
  | absent : Exponent []
  | digits (e : Char) (sign ds : List Char) : e = 'e' ∨ e = 'E' → sign = [] ∨ sign = ['+'] ∨ sign = ['-'] →
      Digits ds → Exponent (e :: (sign ++ ds))

/-- A number after its sign. -/
inductive Unsigned : List Char → Prop
  | mk (whole fraction exponent : List Char) : Whole whole → Fraction fraction → Exponent exponent →
      Unsigned (whole ++ (fraction ++ exponent))

/-- A value, or what is left of a list or an object; `first` before its first part. -/
inductive Piece where
  | value
  | list (first : Bool)
  | object (first : Bool)

inductive Derives : Piece → List Char → Prop
  | word (t : List Char) : t = "null".toList ∨ t = "true".toList ∨ t = "false".toList → Derives .value t
  | number (t : List Char) : Unsigned t → Derives .value t
  | negative (t : List Char) : Unsigned t → Derives .value ('-' :: t)
  | text (t : List Char) (us : List CodeUnit) : UnitsText t us → Derives .value ('"' :: t ++ ['"'])
  | list (t : List Char) : Derives (.list true) t → Derives .value ('[' :: t)
  | object (t : List Char) : Derives (.object true) t → Derives .value ('\x7b' :: t)
  | listEnd (first : Bool) (ws : List Char) : Blanks ws → Derives (.list first) (ws ++ [']'])
  | item (first : Bool) (lead t ts : List Char) : Leads first lead → Derives .value t →
      Derives (.list false) ts → Derives (.list first) (lead ++ t ++ ts)
  | objectEnd (first : Bool) (ws : List Char) : Blanks ws → Derives (.object first) (ws ++ ['\x7d'])
  | member (first : Bool) (lead key ws ws' t ts : List Char) (us : List CodeUnit) : Leads first lead →
      UnitsText key us → Blanks ws → Blanks ws' → Derives .value t → Derives (.object false) ts →
      Derives (.object first) (lead ++ ('"' :: key ++ '"' :: (ws ++ ':' :: (ws' ++ t))) ++ ts)

theorem Unsigned.exists_digit {t : List Char} (h : Unsigned t) : ∃ d rest, t = d :: rest ∧ d.isDigit := by
  obtain ⟨whole, fraction, exponent, hw, -, -⟩ := h
  cases hw with
  | zero => exact ⟨'0', _, rfl, rfl⟩
  | digits d ds _ hds => exact ⟨d, _, rfl, hds.2 d List.mem_cons_self⟩

section Number

variable {t r : List Char}

theorem Exponent.noDigit (h : Exponent t) (hr : Ends r) : ∀ c ∈ (t ++ r).head?, c.isDigit = false := by
  cases h with
  | absent => exact hr.noDigit
  | digits e sign ds he _ _ =>
    rintro c ⟨⟩
    rcases he with rfl | rfl <;> rfl

theorem Fraction.noDigit (h : Fraction t) (hr : ∀ c ∈ r.head?, c.isDigit = false) :
    ∀ c ∈ (t ++ r).head?, c.isDigit = false := by
  cases h with
  | absent => exact hr
  | digits ds _ =>
    rintro c ⟨⟩
    rfl

end Number

/-- A value starts with none of the characters that may stand before it or in its place. -/
theorem Derives.begins {t : List Char} (h : Derives .value t) : Begins t := by
  cases h with
  | word t ht => rcases ht with rfl | rfl | rfl <;> exact ⟨_, _, rfl, by decide, by decide⟩
  | number t ht =>
    obtain ⟨d, rest, rfl, hd⟩ := ht.exists_digit
    exact ⟨d, rest, rfl, isBlank_of_isDigit hd, fun h => by subst h; cases hd⟩
  | negative t _ => exact ⟨'-', t, rfl, by decide, by decide⟩
  | text t us _ => exact ⟨'"', _, rfl, by decide, by decide⟩
  | list t _ => exact ⟨'[', t, rfl, by decide, by decide⟩
  | object t _ => exact ⟨'\x7b', t, rfl, by decide, by decide⟩

/-- What is left of a list or an object can stand behind a value. -/
theorem Derives.ends {p : Piece} {t : List Char} (h : Derives p t) (hp : p = .list false ∨ p = .object false)
    (r : List Char) : Ends (t ++ r) := by
  cases h with
  | listEnd first ws hw =>
    rw [List.append_assoc]
    exact ends_of_blanks hw (.inr (.inl rfl)) r
  | objectEnd first ws hw =>
    rw [List.append_assoc]
    exact ends_of_blanks hw (.inr (.inr rfl)) r
  | item first lead t ts hl _ _ =>
    obtain rfl : first = false := by simpa using hp
    rw [List.append_assoc, List.append_assoc]
    exact hl.ends _
  | member first lead key ws ws' t ts us hl _ _ _ _ _ =>
    obtain rfl : first = false := by simpa using hp
    rw [List.append_assoc, List.append_assoc]
    exact hl.ends _
  | _ => simp at hp

end FunctionSlice.Json
