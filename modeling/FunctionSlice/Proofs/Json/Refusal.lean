import FunctionSlice.Json.Data
import FunctionSlice.Proofs.Json.Grammar

/-! A reader that is given the text of any value, of the kind that it expects or not, fails or takes exactly that
text. What is not of the expected kind is refused. -/

namespace FunctionSlice.Json

open Read

variable {α β : Type} {p : Read α} {f : α → Read β} {cs mid r t ws : List Char}

theorem fails_bind (h : ∀ a s, Fails (f a) s) (cs : List Char) : Fails (p >>= f) cs := by
  cases hp : p.run cs with
  | ok a s => exact fails_bind_of_ok hp (h a s)
  | error e s => exact Fails.bind ⟨e, s, hp⟩ f

theorem Fails.placed (h : Fails p cs) : Fails (placed p) cs := by
  obtain ⟨⟨reason, place⟩, s, h⟩ := h
  have h : p cs = .error ⟨reason, place⟩ s := h
  unfold Fails
  change ∃ e s, Read.placed p cs = .error e s
  rw [Read.placed, h]
  cases place with
  | none => exact ⟨_, _, rfl⟩
  | some place => exact ⟨_, _, rfl⟩

theorem fails_mismatch (expected : String) (cs : List Char) : Fails (mismatch expected : Read α) cs := by
  refine Fails.placed (fails_bind (fun c s => ?_) cs)
  split
  · exact fails_bind (fun _ => fails_bind fun _ => fails_failUnplaced _) s
  · exact fails_bind (fun _ => fails_bind fun _ => fails_failUnplaced _) s
  · exact fails_bind (fun _ => fails_bind fun _ => fails_failUnplaced _) s
  · exact fails_bind (fun _ => fails_bind fun _ => fails_failUnplaced _) s
  · exact fails_bind (fun _ => fails_bind fun _ => fails_failUnplaced _) s
  · exact fails_failUnplaced _ s
  · exact fails_failUnplaced _ s
  · split
    · exact fails_bind (fun _ => fails_failUnplaced _) s
    · exact fails_failNext _ s
  · exact fails_failNext _ s

/-- The reader fails, or stops at `r`. -/
def Settles (p : Read α) (cs r : List Char) : Prop := Fails p cs ∨ ∃ a, p.run cs = .ok a r

theorem Settles.placed (h : Settles p cs r) : Settles (placed p) cs r := by
  rcases h with h | ⟨a, h⟩
  · exact .inl h.placed
  · exact .inr ⟨a, run_placed h⟩

theorem Settles.bind (h : Settles p cs mid) (hf : ∀ a, Settles (f a) mid r) : Settles (p >>= f) cs r := by
  rcases h with h | ⟨a, h⟩
  · exact .inl (h.bind f)
  · unfold Settles Fails
    rw [run_bind_of_ok h]
    exact hf a

theorem Settles.of_run_eq {q : Read α} (hq : Settles q mid r) (h : p.run cs = q.run mid) : Settles p cs r := by
  unfold Settles Fails at hq ⊢
  rwa [h]

theorem Settles.bind_congr {q : Read α} (h : p.run cs = q.run mid) (hq : Settles (q >>= f) mid r) :
    Settles (p >>= f) cs r :=
  hq.of_run_eq (by rw [EStateM.run_bind, EStateM.run_bind, h])

theorem settles_pure (a : α) (r : List Char) : Settles (pure a) r r := .inr ⟨a, rfl⟩

/-- The reader takes just the text of a value, if it takes it at all. -/
def Exact (p : Read α) : Prop :=
  ∀ t ws r, Derives .value t → Blanks ws → Ends r → Settles p (ws ++ t ++ r) r

/-- Whatever the reader returns is of this kind. -/
def Yields (P : α → Prop) (p : Read α) : Prop := ∀ cs a r, p.run cs = .ok a r → P a

theorem Yields.bind {P : β → Prop} (h : ∀ a, Yields P (f a)) : Yields P (p >>= f) := by
  intro cs b r hrun
  rw [EStateM.run_bind] at hrun
  split at hrun
  · exact h _ _ b r hrun
  · cases hrun

theorem yields_pure {P : α → Prop} {a : α} (h : P a) : Yields P (pure a) := by
  rintro cs b r ⟨⟩
  exact h

theorem yields_fail (P : α → Prop) (reason : Reason) : Yields P (Read.fail reason) := by
  rintro cs b r ⟨⟩

theorem yields_failNext (P : α → Prop) (reason : Reason) : Yields P (failNext reason) := by
  rintro cs b r ⟨⟩

/-- A reader that cannot go on from anything that is returned. -/
theorem Yields.fails_bind {P : α → Prop} (h : Yields P p) (hf : ∀ a, P a → ∀ s, Fails (f a) s) (cs : List Char) :
    Fails (p >>= f) cs := by
  cases hp : p.run cs with
  | ok a s => exact fails_bind_of_ok hp (hf a (h cs a s hp) s)
  | error e s => exact Fails.bind ⟨e, s, hp⟩ f

def Number.IsFloat (n : Number) : Prop := ∃ f, n = .float f

theorem yields_toFloat (positive : Bool) (n : Nat) (exponent : Int) :
    Yields Number.IsFloat (toFloat positive n exponent) := by
  unfold toFloat
  split
  · exact yields_pure ⟨_, rfl⟩
  · exact yields_fail _ _

theorem yields_withExponent (positive : Bool) (n : Nat) (start : Int) :
    Yields Number.IsFloat (withExponent positive n start) := by
  unfold withExponent
  refine .bind fun _ => .bind fun sign => ?_
  extract_lets digitsAfter
  have hdigits : ∀ up, Yields Number.IsFloat (digitsAfter up) := by
    intro up
    refine .bind fun c => ?_
    split
    · exact yields_fail _ _
    split
    · exact yields_failNext _ _
    refine .bind fun before => .bind fun digits => ?_
    extract_lets power
    by_cases hpower : power < exponentLimit
    · rw [if_pos hpower]
      exact yields_toFloat _ _ _
    rw [if_neg hpower]
    split
    · exact .bind fun _ => yields_fail _ _
    · exact yields_pure ⟨_, rfl⟩
  split
  · exact .bind fun _ => hdigits true
  · exact .bind fun _ => hdigits false
  · exact hdigits true

theorem yields_withFraction (positive : Bool) (n : Nat) (start : Int) :
    Yields Number.IsFloat (withFraction positive n start) := by
  unfold withFraction
  refine .bind fun _ => .bind fun digits => ?_
  split
  · refine .bind fun c => ?_
    split
    · exact yields_failNext _ _
    · exact yields_failNext _ _
  · refine .bind fun c => ?_
    split
    · exact yields_withExponent _ _ _
    · exact yields_toFloat _ _ _

theorem Yields.mono {P Q : α → Prop} (h : Yields P p) (hPQ : ∀ a, P a → Q a) : Yields Q p :=
  fun cs a r hrun => hPQ a (h cs a r hrun)

def Number.IsSigned (n : Number) : Prop := ∀ k, n ≠ .unsigned k

theorem Number.IsFloat.isSigned {n : Number} (h : n.IsFloat) : n.IsSigned := by
  obtain ⟨f, rfl⟩ := h
  exact nofun

/-- A number after a minus is none of the unsigned ones. -/
theorem yields_number_false : Yields Number.IsSigned (number false) := by
  have htail (n : Nat) (left : List Char) : Yields Number.IsSigned (numberTail false n left) := by
    refine .bind fun c => ?_
    split
    · exact (yields_withFraction _ _ _).mono fun _ => Number.IsFloat.isSigned
    · exact (yields_withExponent _ _ _).mono fun _ => Number.IsFloat.isSigned
    · exact (yields_withExponent _ _ _).mono fun _ => Number.IsFloat.isSigned
    split
    · exact (yields_toFloat _ _ _).mono fun _ => Number.IsFloat.isSigned
    split
    · contradiction
    split
    · exact yields_pure nofun
    · exact yields_pure nofun
  exact .bind fun digits => htail _ _

/-- A number that is only digits is unsigned, or a float if it is too large; with a fraction or an exponent it is
a float. -/
theorem settles_number (h : Unsigned t) (hr : Ends r) {accept : Number → Read β}
    (hfloat : ∀ n : Number, n.IsFloat → ∀ s, Fails (accept n) s)
    (hunsigned : ∀ n, Settles (accept (.unsigned n)) r r) :
    Settles (number true >>= accept) (t ++ r) r := by
  obtain ⟨whole, fraction, exponent, hw, hf, he⟩ := h
  rw [List.append_assoc, List.append_assoc]
  refine Settles.bind_congr (run_number true hw (hf.noDigit (he.noDigit hr))) ?_
  generalize (accumulate 0 whole).1 = n
  generalize (accumulate 0 whole).2.2 = left
  cases hf with
  | digits ds hds =>
    refine Settles.bind_congr (q := withFraction true n left.length) rfl (.inl ?_)
    exact (yields_withFraction _ _ _).fails_bind hfloat _
  | absent =>
    cases he with
    | digits e sign ds he hsign hds =>
      have hfails := (yields_withExponent true n left.length).fails_bind hfloat (e :: (sign ++ ds) ++ r)
      rcases he with rfl | rfl
      · exact Settles.bind_congr (q := withExponent true n left.length) rfl (.inl hfails)
      · exact Settles.bind_congr (q := withExponent true n left.length) rfl (.inl hfails)
    | absent =>
      refine Settles.bind_congr (run_numberTail n left hr) ?_
      split
      · exact .inl ((yields_toFloat _ _ _).fails_bind hfloat _)
      · exact hunsigned n

/-- The first character of a value tells of which kind it is. -/
theorem Derives.kind {c : Char} (h : Derives .value (c :: cs)) :
    c.isDigit ∧ Unsigned (c :: cs) ∨ c = '-' ∨ c = '"' ∧ (∃ t us, cs = t ++ ['"'] ∧ UnitsText t us) ∨ c = '[' ∨
      c = '\x7b' ∧ Derives (.object true) cs ∨ c = 'n' ∧ cs = ['u', 'l', 'l'] ∨ c = 't' ∨ c = 'f' := by
  generalize ht : c :: cs = t at h
  cases h with
  | number t h =>
    obtain ⟨d, rest, rfl, hd⟩ := h.exists_digit
    cases ht
    exact .inl ⟨hd, h⟩
  | word t h =>
    rcases h with rfl | rfl | rfl
    · obtain ⟨rfl, rfl⟩ := List.cons.inj (show c :: cs = 'n' :: ['u', 'l', 'l'] from ht)
      simp
    · obtain ⟨rfl, -⟩ := List.cons.inj (show c :: cs = 't' :: ['r', 'u', 'e'] from ht)
      simp
    · obtain ⟨rfl, -⟩ := List.cons.inj (show c :: cs = 'f' :: ['a', 'l', 's', 'e'] from ht)
      simp
  | text t us h =>
    cases ht
    exact .inr (.inr (.inl ⟨rfl, t, us, rfl, h⟩))
  | negative t h =>
    cases ht
    simp
  | list t h =>
    cases ht
    simp
  | object t h =>
    cases ht
    simp [h]

theorem Derives.unsigned {c : Char} (h : Derives .value (c :: cs)) (hc : c.isDigit) : Unsigned (c :: cs) := by
  rcases h.kind with ⟨-, h⟩ | rfl | ⟨rfl, -⟩ | rfl | ⟨rfl, -⟩ | ⟨rfl, -⟩ | rfl | rfl
  · exact h
  all_goals cases hc

theorem Derives.units (h : Derives .value ('"' :: cs)) : ∃ t us, cs = t ++ ['"'] ∧ UnitsText t us := by
  simpa [Char.isDigit] using h.kind

theorem Derives.members (h : Derives .value ('\x7b' :: cs)) : Derives (.object true) cs := by
  simpa [Char.isDigit] using h.kind

theorem Derives.null (h : Derives .value ('n' :: cs)) : cs = ['u', 'l', 'l'] := by
  simpa [Char.isDigit] using h.kind

theorem exact_natural (limit : Nat) (expected : String) : Exact (natural limit expected) := by
  intro t ws r ht hw hr
  obtain ⟨c, cs, rfl, hb, -⟩ := ht.begins
  refine Settles.placed ?_
  extract_lets accept
  have hsigned : ∀ n : Number, n.IsSigned → ∀ s, Fails (accept n) s := by
    intro n hn s
    cases n with
    | unsigned k => exact absurd rfl (hn k)
    | negative k => exact fails_failUnplaced _ s
    | float f => exact fails_failUnplaced _ s
  have hunsigned : ∀ n, Settles (accept (.unsigned n)) r r := by
    intro n
    by_cases hn : n < limit
    · exact .inr ⟨.number n, by simp only [accept, hn, ↓reduceIte]; rfl⟩
    · exact .inl (by simp only [accept, hn, ↓reduceIte]; exact fails_failUnplaced _ r)
  rw [List.append_assoc, List.cons_append]
  refine Settles.of_run_eq ?_ (run_afterBlanks hw hb _ _)
  split
  · contradiction
  · exact .inl (fails_bind (fun _ => yields_number_false.fails_bind hsigned) _)
  · rename_i d _ hd
    cases hd
    split
    · exact settles_number (ht.unsigned ‹_›) hr (fun n hn => hsigned n hn.isSigned) hunsigned
    · exact .inl (fails_mismatch _ _)

/-- A string is read, or refused because it spells no characters. -/
theorem settles_string {us : List CodeUnit} (h : UnitsText t us) (r : List Char) :
    Settles string (t ++ '"' :: r) r := by
  by_cases hs : ∃ cs, Spells us cs
  · obtain ⟨cs, hs⟩ := hs
    exact .inr ⟨_, string_spelled h hs r⟩
  · exact .inl (string_unspelled h (fun cs hcs => hs ⟨cs, hcs⟩) r)

theorem exact_text (expected : String) : Exact (text expected) := by
  intro t ws r ht hw hr
  obtain ⟨c, cs, rfl, hb, -⟩ := ht.begins
  refine Settles.placed ?_
  rw [List.append_assoc, List.cons_append]
  refine Settles.of_run_eq ?_ (run_afterBlanks hw hb _ _)
  split
  · contradiction
  · rename_i hc
    cases hc
    obtain ⟨t, us, rfl, hunits⟩ := ht.units
    refine Settles.of_run_eq ?_ (run_skip_bind _ _ _)
    rw [List.append_assoc]
    exact (settles_string hunits r).bind fun s => settles_pure _ r
  · exact .inl (fails_mismatch _ _)

theorem exact_unit : Exact unit := by
  intro t ws r ht hw hr
  obtain ⟨c, cs, rfl, hb, -⟩ := ht.begins
  refine Settles.placed ?_
  rw [List.append_assoc, List.cons_append]
  refine Settles.of_run_eq ?_ (run_afterBlanks hw hb _ _)
  split
  · contradiction
  · rename_i hc
    cases hc
    rw [ht.null]
    exact .inr ⟨(), rfl⟩
  · exact .inl (fails_mismatch _ _)

theorem settles_variantName {us : List CodeUnit} (known : List String) (ht : UnitsText t us) (hw : Blanks ws)
    (r : List Char) : Settles (variantName known) (ws ++ '"' :: (t ++ '"' :: r)) r := by
  refine Settles.placed ?_
  refine Settles.of_run_eq ?_ (run_afterBlanks hw (by decide) _ _)
  refine Settles.of_run_eq ?_ (run_skip_bind _ _ _)
  refine (settles_string ht r).bind fun name => ?_
  split
  · exact settles_pure name r
  · exact .inl (fails_failUnplaced _ r)

theorem fails_variantName_end (known : List String) (hw : Blanks ws) (r : List Char) :
    Fails (variantName known) (ws ++ '\x7d' :: r) := by
  refine Fails.placed ?_
  unfold Fails
  rw [run_afterBlanks hw (by decide)]
  exact fails_mismatch _ _

/-- Behind the only member of an object there is no other. -/
theorem settles_onlyMember (h : Derives (.object false) t) (v : Value) (r : List Char) :
    Settles (do
      match ← afterBlanks with
      | some '\x7d' =>
        skip
        return v
      | some _ => Read.fail .expectedValue
      | none => Read.fail .endInObject) (t ++ r) r := by
  cases h with
  | objectEnd _ ws hw =>
    rw [List.append_assoc]
    refine Settles.of_run_eq ?_ (run_afterBlanks hw (by decide) _ _)
    exact .inr ⟨v, rfl⟩
  | member _ lead key ws₁ ws₂ t ts us hl _ _ _ _ _ =>
    cases hl with
    | next ws ws' hw _ =>
      simp only [List.append_assoc, List.cons_append]
      refine Settles.of_run_eq ?_ (run_afterBlanks hw (by decide) _ _)
      exact .inl (fails_fail _ _)

/-- A name may also stand as the one key of an object. -/
theorem exact_choice (known : List String) : Exact (choice known) := by
  intro t ws r ht hw hr
  obtain ⟨c, cs, rfl, hb, -⟩ := ht.begins
  rw [List.append_assoc, List.cons_append]
  refine Settles.of_run_eq ?_ (run_afterBlanks hw hb _ _)
  split
  · contradiction
  · rename_i hc
    cases hc
    obtain ⟨t, us, rfl, hunits⟩ := ht.units
    rw [List.append_assoc]
    exact (settles_variantName known hunits blanks_nil r).bind fun name => settles_pure _ r
  · rename_i hc
    cases hc
    refine Settles.of_run_eq ?_ (run_skip_bind _ _ _)
    cases ht.members with
    | objectEnd _ ws₁ h₁ =>
      rw [List.append_assoc]
      exact .inl ((fails_variantName_end known h₁ r).bind _)
    | member _ lead key ws₁ ws₂ t ts us hl hkey h₁ h₂ hv hts =>
      cases hl with
      | first _ hlead =>
        have hunit := exact_unit t ws₂ (ts ++ r) hv h₂ (hts.ends (.inr rfl) r)
        simp only [List.append_assoc, List.cons_append] at hunit ⊢
        refine (settles_variantName known hkey hlead _).bind fun name => ?_
        refine Settles.of_run_eq ?_ (run_colon h₁ _ _)
        refine (hunit.bind fun _ => settles_pure (Value.text name) _).bind fun v => ?_
        exact settles_onlyMember hts v r
  · exact .inl (fails_failNext _ _)

theorem Codec.parse_of_fails {α : Type} {c : Codec α} {s : String} (h : Fails c.reader s.toList) :
    ∃ e, c.parse s = .error e := by
  obtain ⟨f, rest, hwhole⟩ : Fails (whole c.reader) s.toList := Fails.bind h _
  refine ⟨f.message s.toList, ?_⟩
  unfold Codec.parse Json.parse
  rw [hwhole]
  rfl

end FunctionSlice.Json
