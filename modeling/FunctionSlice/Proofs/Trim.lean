import FunctionSlice.Extent
import FunctionSlice.Proofs.LastWord

/-! Trimming keeps what comes up to the return that ends the function. A longer stream has the same end,
or has its end behind all of the shorter stream, so trimming is monotone; what was trimmed has the same end
too. The policies part where the very first instruction is a return. -/

namespace FunctionSlice

/-- The stream's first return ends the function, and `kept` is what comes up to it. The legacy policy does
not let the very first instruction do so. -/
inductive Ended (p : Policy) : List Instruction → List Instruction → Prop
  | at (before : List Instruction) (r : Instruction) (after : List Instruction) : r.isReturn →
      (∀ i ∈ before, ¬ i.isReturn) → before ≠ [] ∨ p = .strict →
      Ended p (before ++ r :: after) (before ++ [r])

variable {xs ys kept before after : List Instruction} {r : Instruction} {p : Policy} {k : Nat}

theorem Ended.ne_nil (h : Ended p xs kept) : xs ≠ [] := by
  cases h
  simp

theorem ended_or_not (p : Policy) (xs : List Instruction) :
    (∃ kept, Ended p xs kept) ∨ ∀ kept, ¬ Ended p xs kept :=
  (Classical.em _).imp_right not_exists.1

theorem findReturn_append_cons (hb : ∀ i ∈ before, ¬ i.isReturn) (hr : r.isReturn) :
    findReturn (before ++ r :: after) = some before.length := by
  have hn : before.findIdx? (·.isReturn) = none := by simpa using hb
  rw [findReturn, List.findIdx?_append, hn, List.findIdx?_cons, if_pos hr]
  simp

theorem exists_of_findReturn (h : findReturn xs = some k) :
    ∃ before r after, xs = before ++ r :: after ∧ before.length = k ∧ r.isReturn ∧
      ∀ i ∈ before, ¬ i.isReturn := by
  obtain ⟨hk, hr, hb⟩ := List.findIdx?_eq_some_iff_getElem.1 h
  refine ⟨xs.take k, xs[k], xs.drop (k + 1), ?_, List.length_take_of_le (by omega), hr, ?_⟩
  · rw [← List.drop_eq_getElem_cons hk, List.take_append_drop]
  · intro i hi
    obtain ⟨j, hj, rfl⟩ := List.mem_take_iff_getElem.1 hi
    exact hb j (by omega)

theorem trim_of_ended (h : Ended p xs kept) : trim xs p = (kept, none) := by
  obtain ⟨before, r, after, hr, hb, hp⟩ := h
  have he : extent (some before.length) (before ++ r :: after).length p =
      (before.length + 1, none) := by
    cases before with
    | nil =>
      rcases hp with hp | rfl
      · exact absurd rfl hp
      · rfl
    | cons => cases p <;> rfl
  have ht : (before ++ r :: after).take (before.length + 1) = before ++ [r] := by
    rw [List.append_cons]
    exact List.take_left' (by simp)
  rw [trim, findReturn_append_cons hb hr, he, ht]

theorem trim_of_not_ended (h : ∀ kept, ¬ Ended p xs kept) :
    trim xs p = (xs, some (.truncated xs.length)) := by
  have he : extent (findReturn xs) xs.length p = (xs.length, some (.truncated xs.length)) := by
    cases hf : findReturn xs with
    | none => cases p <;> rfl
    | some k =>
      obtain ⟨before, r, after, rfl, rfl, hr, hb⟩ := exists_of_findReturn hf
      have hn : ¬ (before ≠ [] ∨ p = .strict) := fun hp => h _ (.at before r after hr hb hp)
      cases before with
      | nil =>
        cases p with
        | legacy => rfl
        | strict => exact absurd (.inr rfl) hn
      | cons i before => exact absurd (.inl (List.cons_ne_nil i before)) hn
  rw [trim, he, List.take_length]

theorem trim_fst_prefix (xs : List Instruction) (p : Policy) : (trim xs p).1 <+: xs :=
  List.take_prefix _ _

theorem trim_fst_ne_nil (hx : xs ≠ []) : (trim xs p).1 ≠ [] := by
  rcases ended_or_not p xs with ⟨kept, h⟩ | h
  · rw [trim_of_ended h]
    cases h
    simp
  · rw [trim_of_not_ended h]
    exact hx

/-- A stream that is warned of is kept whole. -/
theorem trim_fst_of_warning (h : (trim xs p).2 ≠ none) :
    (trim xs p).1 = xs := by
  rcases ended_or_not p xs with ⟨kept, he⟩ | he
  · rw [trim_of_ended he] at h
    exact absurd rfl h
  · rw [trim_of_not_ended he]

theorem Ended.append (h : Ended p xs kept) (ys : List Instruction) : Ended p (xs ++ ys) kept := by
  obtain ⟨before, r, after, hr, hb, hp⟩ := h
  rw [List.append_assoc, List.cons_append]
  exact .at before r (after ++ ys) hr hb hp

/-- An end that more instructions bring lies behind those that were there. -/
theorem Ended.of_append (h : Ended p (xs ++ ys) kept) (hx : ∀ kept, ¬ Ended p xs kept) :
    xs <+: kept := by
  generalize hs : xs ++ ys = zs at h
  obtain ⟨before, r, after, hr, hb, hp⟩ := h
  rcases List.append_eq_append_iff.1 hs with ⟨m, hm, -⟩ | ⟨m, hm, ha⟩
  · exact ⟨m ++ [r], by rw [hm, List.append_assoc]⟩
  · cases m with
    | nil => exact ⟨[r], by rw [hm, List.append_nil]⟩
    | cons s m =>
      obtain ⟨rfl, -⟩ := List.cons_eq_cons.1 ha
      rw [hm] at hx
      exact absurd (.at before r m hr hb hp) (hx _)

/-- What is kept is ended by the same return. -/
theorem Ended.again (h : Ended p xs kept) : Ended p kept kept := by
  obtain ⟨before, r, -, hr, hb, hp⟩ := h
  exact .at before r [] hr hb hp

theorem Ended.strict (h : Ended p xs kept) : Ended .strict xs kept := by
  obtain ⟨before, r, after, hr, hb, -⟩ := h
  exact .at before r after hr hb (.inr rfl)

theorem exists_ended_iff (p : Policy) (xs : List Instruction) :
    (∃ kept, Ended p xs kept) ↔
      (∃ i ∈ xs, i.isReturn) ∧ (p = .strict ∨ ∀ i ∈ xs.head?, ¬ i.isReturn) := by
  constructor
  · rintro ⟨_, before, r, after, hr, hb, hp⟩
    refine ⟨⟨r, by simp, hr⟩, ?_⟩
    rcases hp with hne | hp
    · obtain ⟨i, before, rfl⟩ := List.exists_cons_of_ne_nil hne
      exact .inr (by simpa using hb i List.mem_cons_self)
    · exact .inl hp
  · rintro ⟨⟨i, hi, hr⟩, hp⟩
    cases hf : findReturn xs with
    | none => exact absurd hr (by simpa using List.findIdx?_eq_none_iff.1 hf i hi)
    | some k =>
      obtain ⟨before, r, after, rfl, -, hr, hb⟩ := exists_of_findReturn hf
      refine ⟨before ++ [r], .at before r after hr hb ?_⟩
      rcases hp with hp | hp
      · exact .inr hp
      · refine .inl ?_
        rintro rfl
        exact hp r rfl hr

/-- Strictly trimmed, a stream is warned of if it has no return. -/
theorem trim_strict_warning_iff (xs : List Instruction) (n : Nat) :
    (trim xs .strict).2 = some (.truncated n) ↔
      n = (trim xs .strict).1.length ∧ ∀ i ∈ (trim xs .strict).1, ¬ i.isReturn := by
  rcases ended_or_not .strict xs with ⟨kept, h⟩ | h
  · rw [trim_of_ended h]
    obtain ⟨before, r, after, hr, -, -⟩ := h
    refine iff_of_false nofun ?_
    rintro ⟨-, hall⟩
    exact hall r (by simp) hr
  · have hno : ∀ i ∈ xs, ¬ i.isReturn := by
      intro i hi hret
      obtain ⟨kept, he⟩ := (exists_ended_iff .strict xs).2 ⟨⟨i, hi, hret⟩, .inl rfl⟩
      exact h kept he
    rw [trim_of_not_ended h]
    simp only [Option.some.injEq, Warning.truncated.injEq]
    exact ⟨fun he => ⟨he.symm, hno⟩, fun he => he.1.symm⟩

/-- A function whose end was found has the same end in every longer stream. -/
theorem trim_append_of_ended (h : (trim xs p).2 = none) : trim (xs ++ ys) p = trim xs p := by
  rcases ended_or_not p xs with ⟨kept, he⟩ | he
  · rw [trim_of_ended he, trim_of_ended (he.append ys)]
  · rw [trim_of_not_ended he] at h
    cases h

theorem trim_mono (h : xs <+: ys) : (trim xs p).1 <+: (trim ys p).1 := by
  obtain ⟨zs, rfl⟩ := h
  rcases ended_or_not p xs with ⟨kept, hx⟩ | hx
  · have ht : trim (xs ++ zs) p = trim xs p := trim_append_of_ended (by rw [trim_of_ended hx])
    exact ⟨[], by rw [ht, List.append_nil]⟩
  · rw [trim_of_not_ended hx]
    rcases ended_or_not p (xs ++ zs) with ⟨kept, hy⟩ | hy
    · rw [trim_of_ended hy]
      exact hy.of_append hx
    · rw [trim_of_not_ended hy]
      exact List.prefix_append xs zs

theorem trim_trim (xs : List Instruction) (p : Policy) : trim (trim xs p).1 p = trim xs p := by
  rcases ended_or_not p xs with ⟨kept, h⟩ | h
  · rw [trim_of_ended h, trim_of_ended h.again]
  · rw [trim_of_not_ended h, trim_of_not_ended h]

theorem trim_legacy_ne_strict_iff (xs : List Instruction) :
    trim xs .legacy ≠ trim xs .strict ↔ ∃ i ∈ xs.head?, i.isReturn := by
  by_cases hhead : ∃ i ∈ xs.head?, i.isReturn
  · refine iff_of_true ?_ hhead
    obtain ⟨i, hi, hr⟩ := hhead
    obtain ⟨after, rfl⟩ := List.head?_eq_some_iff.1 hi
    have hstrict : Ended .strict (i :: after) [i] := .at [] i after hr nofun (.inr rfl)
    have hlegacy : ∀ kept, ¬ Ended .legacy (i :: after) kept := by
      intro kept h
      have hp := ((exists_ended_iff .legacy _).1 ⟨kept, h⟩).2
      exact hp.resolve_left nofun i rfl hr
    rw [trim_of_ended hstrict, trim_of_not_ended hlegacy]
    simp
  · refine iff_of_false (fun h => h ?_) hhead
    rcases ended_or_not .legacy xs with ⟨kept, h⟩ | hlegacy
    · rw [trim_of_ended h, trim_of_ended h.strict]
    · have hstrict : ∀ kept, ¬ Ended .strict xs kept := by
        intro kept h
        have hret := ((exists_ended_iff .strict xs).1 ⟨kept, h⟩).1
        obtain ⟨kept, h⟩ := (exists_ended_iff .legacy xs).2
          ⟨hret, .inr fun i hi hr => hhead ⟨i, hi, hr⟩⟩
        exact hlegacy kept h
      rw [trim_of_not_ended hlegacy, trim_of_not_ended hstrict]

/-- Trimming cuts right behind the first return, unless there is none or the legacy policy finds it at the
very start; then it keeps everything and warns. A second time it changes nothing, and no more does what
comes behind the end. The policies differ on streams that start with a return. -/
theorem trim_exact (xs : List Instruction) (p : Policy) :
    let kept := (trim xs p).1
    let warning := (trim xs p).2
    let ends := (∃ i ∈ xs, i.isReturn) ∧ (p = .strict ∨ ∀ i ∈ xs.head?, ¬ i.isReturn)
    kept <+: xs ∧
      (ends → warning = none ∧ ∃ before r after, xs = before ++ r :: after ∧ kept = before ++ [r] ∧
        r.isReturn ∧ ∀ i ∈ before, ¬ i.isReturn) ∧
      (¬ ends → kept = xs ∧ warning = some (.truncated xs.length)) ∧
      trim kept p = (kept, warning) ∧
      (warning = none → ∀ ys, trim (xs ++ ys) p = (kept, none)) ∧
      (trim xs .legacy ≠ trim xs .strict ↔ ∃ i ∈ xs.head?, i.isReturn) ∧
      ∀ i : Instruction, i.isReturn ↔ ∃ t, Text.LastWord i.mnemonic.toList t ∧
        ∃ n ∈ ["ret", "retn", "retf", "retq", "retfq", "iret", "iretd", "iretq"],
          t.map Char.toLower = n.toList := by
  intro kept warning ends
  have hfront := trim_fst_prefix xs p
  refine ⟨hfront, fun h => ?_, fun h => ?_, trim_trim xs p, fun h ys => ?_,
    trim_legacy_ne_strict_iff xs, Instruction.isReturn_iff_lastWord⟩
  · obtain ⟨_, he⟩ := (exists_ended_iff p xs).2 h
    have ht := trim_of_ended he
    obtain ⟨before, r, after, hr, hb, -⟩ := he
    exact ⟨congrArg Prod.snd ht, before, r, after, rfl, congrArg Prod.fst ht, hr, hb⟩
  · have ht : trim xs p = _ := trim_of_not_ended fun kept he => h ((exists_ended_iff p xs).1 ⟨kept, he⟩)
    exact ⟨congrArg Prod.fst ht, congrArg Prod.snd ht⟩
  · rw [trim_append_of_ended h, ← h]

/-- The last word of the first instruction is a return, in capitals and behind a tabulator. -/
theorem trim_exact_entry :
    let r : Instruction := .of 0x10 [0xf2, 0xc3] "bnd\tRET " ""
    let n : Instruction := .of 0x12 [0x90] "nop" ""
    r.isReturn ∧ trim [r, n] .strict = ([r], none) ∧ trim [r] .strict = ([r], none) ∧
      trim [r, n] .legacy = ([r, n], some (.truncated 2)) := by
  intro r n
  obtain ⟨-, -, -, -, -, -, hreturn⟩ := trim_exact [r, n] .strict
  have hcut : r.mnemonic.toList = ['b', 'n', 'd', '\t'] ++ ['R', 'E', 'T'] ++ [' '] := by decide
  have hlast : Text.LastWord r.mnemonic.toList ['R', 'E', 'T'] := by
    rw [hcut]
    exact .at _ _ _ (by simp [Text.isBlank]) (List.cons_ne_nil _ _) (by simp [Text.isBlank])
      (by simp [Text.isBlank])
  have hr : r.isReturn := (hreturn r).2 ⟨_, hlast, "ret", by decide, by decide⟩
  have hstrict : trim [r, n] .strict = ([r], none) := by decide +kernel
  obtain ⟨-, -, -, hagain, -⟩ := trim_exact [r, n] .strict
  obtain ⟨-, -, hkept, -⟩ := trim_exact [r, n] .legacy
  have hlegacy := hkept fun h => h.2.resolve_left (by decide) r rfl hr
  rw [hstrict] at hagain
  exact ⟨hr, hstrict, hagain, Prod.ext hlegacy.1 hlegacy.2⟩

end FunctionSlice
