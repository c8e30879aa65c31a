import FunctionSlice.Mangled

/-! The flavor of a symbol is that of its readable form. A symbol that looks as one scheme writes it does not look
as the other does, so what one reader leaves to the next is never read under another flavor, and the underscore
of a platform changes neither the flavor nor the text. -/

namespace FunctionSlice.Mangled

variable {r : Readers} {s : String} {x : Readable}

theorem head_of_looksItanium (h : looksItanium s) : s.toList.head? = some '_' := by
  unfold looksItanium at h
  split at h
  · rename_i hs
    rw [hs]
    rfl
  · rename_i hs
    rw [hs]
    rfl
  · contradiction

theorem head_of_looksDecorated (h : looksDecorated s) : s.toList.head? = some '?' := by
  unfold looksDecorated at h
  split at h
  · rename_i hs
    rw [hs]
    rfl
  · contradiction

/-- The two looks start with different characters. -/
theorem looksItanium_of_looksDecorated (h : looksDecorated s) : looksItanium s = false := by
  rw [Bool.eq_false_iff]
  intro hi
  have hd := head_of_looksDecorated h
  rw [head_of_looksItanium hi] at hd
  cases hd

namespace Readers

/-- The symbol is read by the first scheme that can read it, and those before it cannot. -/
inductive ReadsAs (r : Readers) (s : String) : Readable → Prop
  | path (t : String) : r.path s = some t → ReadsAs r s ⟨s, t, .path⟩
  | itanium (t : String) : r.path s = none → looksItanium s → r.itanium (bare s) = some t →
      ReadsAs r s ⟨s, t, .itanium⟩
  | decorated (t : String) : r.path s = none → looksDecorated s → r.decorated s = some t →
      ReadsAs r s ⟨s, t, .decorated⟩

theorem readsAs_of_read? (h : r.read? s = some x) : ReadsAs r s x := by
  simp only [read?, Option.orElse_eq_orElse, Option.orElse_eq_or] at h
  cases hp : r.path s with
  | some t =>
    rw [hp] at h
    cases h
    exact .path t hp
  | none =>
    rw [hp, Option.map_none, Option.none_or] at h
    by_cases hd : looksDecorated s
    · rw [looksItanium_of_looksDecorated hd, if_neg Bool.false_ne_true, Option.none_or, if_pos hd] at h
      obtain ⟨t, ht, rfl⟩ := Option.map_eq_some_iff.1 h
      exact .decorated t hp hd ht
    · rw [if_neg hd, Option.or_none, Option.ite_none_right_eq_some] at h
      obtain ⟨hi, h⟩ := h
      obtain ⟨t, ht, rfl⟩ := Option.map_eq_some_iff.1 h
      exact .itanium t hp hi ht

theorem ReadsAs.raw_eq (h : ReadsAs r s x) : x.raw = s := by
  cases h <;> rfl

theorem ReadsAs.flavor_eq (h : ReadsAs r s x) : r.flavor? s = some x.flavor := by
  unfold flavor?
  cases h with
  | path t hp => rw [hp, Option.isSome_some, if_pos rfl]
  | itanium t hp hi => rw [hp, Option.isSome_none, if_neg Bool.false_ne_true, if_pos hi]
  | decorated t hp hd =>
    rw [hp, Option.isSome_none, if_neg Bool.false_ne_true, looksItanium_of_looksDecorated hd,
      if_neg Bool.false_ne_true, if_pos hd]

/-- The marks of the path schemes: `_ZN` is one, with a further underscore or without, and no other starts with
`_Z`. -/
structure PathMarks (path : String → Option String) : Prop where
  alike : ∀ s : String, ['_', 'Z', 'N'] <+: s.toList → path ("_" ++ s) = path s
  other : ∀ s : String, ['_', 'Z'] <+: s.toList → ¬ ['_', 'Z', 'N'] <+: s.toList →
    path s = none ∧ path ("_" ++ s) = none

theorem PathMarks.eq (h : PathMarks r.path) (hs : ['_', 'Z'] <+: s.toList) : r.path ("_" ++ s) = r.path s := by
  by_cases hN : ['_', 'Z', 'N'] <+: s.toList
  · exact h.alike s hN
  · obtain ⟨hone, htwo⟩ := h.other s hs hN
    rw [hone, htwo]

theorem toList_underscore (s : String) : ("_" ++ s).toList = '_' :: s.toList := String.toList_append

/-- The underscore of a platform is no part of the symbol. -/
theorem bare_underscore (hs : ['_', 'Z'] <+: s.toList) : bare ("_" ++ s) = s ∧ bare s = s := by
  obtain ⟨cs, hs⟩ := hs
  unfold bare
  rw [toList_underscore, ← hs]
  refine ⟨?_, rfl⟩
  change String.ofList (['_', 'Z'] ++ cs) = s
  rw [hs, String.ofList_toList]

theorem looksItanium_underscore (hs : ['_', 'Z'] <+: s.toList) :
    looksItanium ("_" ++ s) = looksItanium s := by
  obtain ⟨cs, hs⟩ := hs
  unfold looksItanium
  rw [toList_underscore, ← hs]
  rfl

theorem not_looksDecorated_of_underscore (hs : s.toList.head? = some '_') : looksDecorated s = false := by
  rw [Bool.eq_false_iff]
  intro hd
  rw [head_of_looksDecorated hd] at hs
  cases hs

theorem read?_underscore (h : PathMarks r.path) (hs : ['_', 'Z'] <+: s.toList) :
    (r.read? ("_" ++ s)).map (fun x => (x.flavor, x.text)) =
      (r.read? s).map fun x => (x.flavor, x.text) := by
  have hhead : s.toList.head? = some '_' := by
    obtain ⟨cs, hs⟩ := hs
    rw [← hs]
    rfl
  have hhead' : ("_" ++ s).toList.head? = some '_' := by rw [toList_underscore, List.head?_cons]
  have hbare := bare_underscore hs
  simp only [read?, h.eq hs, looksItanium_underscore hs, not_looksDecorated_of_underscore hhead,
    not_looksDecorated_of_underscore hhead', hbare.1, hbare.2]
  cases r.path s with
  | some t => rfl
  | none =>
    cases looksItanium s with
    | false => rfl
    | true => cases r.itanium s <;> rfl

end Readers

theorem splitMark_prefix (cs : List Char) : (splitMark cs).1 <+: cs := by
  induction cs with
  | nil => exact List.nil_prefix
  | cons c cs ih =>
    unfold splitMark
    split
    · exact List.nil_prefix
    · exact List.cons_prefix_cons.2 ⟨rfl, ih⟩

theorem withoutMark_prefix (cs : List Char) : withoutMark cs <+: cs := by
  have hsplit := splitMark_prefix cs
  unfold withoutMark
  split
  · rename_i before digits h
    rw [h] at hsplit
    split
    · exact hsplit
    · exact List.prefix_refl cs
  · exact List.prefix_refl cs

/-- The mark of link-time optimisation starts with a period, so nothing before one is a part of it. -/
theorem withoutMark_cons {c : Char} (hc : c ≠ '.') (cs : List Char) :
    withoutMark (c :: cs) = c :: withoutMark cs := by
  have hmark : linkerMark.isPrefixOf (c :: cs) = false := by
    rw [Bool.eq_false_iff, ne_eq, List.isPrefixOf_iff_prefix]
    intro h
    exact hc (List.cons_prefix_cons.1 h).1.symm
  unfold withoutMark
  rw [splitMark, if_neg (Bool.eq_false_iff.1 hmark)]
  obtain ⟨before, after⟩ := splitMark cs
  cases after with
  | none => rfl
  | some digits =>
    by_cases hd : digits.all isMarkDigit <;> simp [hd]

theorem withoutMark_underscores (cs : List Char) :
    withoutMark ('_' :: 'Z' :: cs) = '_' :: 'Z' :: withoutMark cs ∧
      withoutMark ('_' :: '_' :: 'Z' :: cs) = '_' :: '_' :: 'Z' :: withoutMark cs := by
  simp only [withoutMark_cons (show '_' ≠ '.' by decide), withoutMark_cons (show 'Z' ≠ '.' by decide),
    and_self]

theorem V0Path.demangle?_underscores (cs : List Char) :
    V0Path.demangle? ('_' :: 'Z' :: cs) = none ∧ V0Path.demangle? ('_' :: '_' :: 'Z' :: cs) = none :=
  ⟨rfl, rfl⟩

theorem LegacyPath.demangle?_unmarked {cs : List Char} (h : cs.head? ≠ some 'N') :
    LegacyPath.demangle? ('_' :: 'Z' :: cs) = none ∧ LegacyPath.demangle? ('_' :: '_' :: 'Z' :: cs) = none := by
  cases cs with
  | nil => exact ⟨rfl, rfl⟩
  | cons c cs =>
    have hc : c ≠ 'N' := fun hc => h (congrArg some hc)
    simp [LegacyPath.demangle?, LegacyPath.body?, hc]

/-- A path in either scheme, and what follows it. -/
def path? (cs : List Char) : Option (List Char × List Char) :=
  LegacyPath.demangle? cs <|> V0Path.demangle? cs

theorem pathText?_eq (s : String) : pathText? s = (path? (withoutMark s.toList)).bind fun p =>
    if isSuffix p.2 then some (String.ofList (p.1 ++ p.2)) else none := rfl

theorem path?_underscores (cs : List Char) :
    path? ('_' :: '_' :: 'Z' :: 'N' :: cs) = path? ('_' :: 'Z' :: 'N' :: cs) := rfl

theorem path?_unmarked {cs : List Char} (h : cs.head? ≠ some 'N') :
    path? ('_' :: 'Z' :: cs) = none ∧ path? ('_' :: '_' :: 'Z' :: cs) = none := by
  have hlegacy := LegacyPath.demangle?_unmarked h
  have hv0 := V0Path.demangle?_underscores cs
  simp only [path?, hlegacy, hv0]
  exact ⟨rfl, rfl⟩

/-- The reader of paths here has these marks. -/
theorem readers_pathMarks : Readers.PathMarks readers.path where
  alike s hs := by
    obtain ⟨cs, hs⟩ := hs
    have hN : withoutMark ('N' :: cs) = 'N' :: withoutMark cs := withoutMark_cons (by decide) cs
    change pathText? ("_" ++ s) = pathText? s
    rw [pathText?_eq, pathText?_eq, Readers.toList_underscore, ← hs]
    change (path? (withoutMark ('_' :: '_' :: 'Z' :: 'N' :: cs))).bind _ =
      (path? (withoutMark ('_' :: 'Z' :: 'N' :: cs))).bind _
    rw [(withoutMark_underscores _).1, (withoutMark_underscores _).2, hN, path?_underscores]
  other s hs hN := by
    obtain ⟨cs, hs⟩ := hs
    have hhead : (withoutMark cs).head? ≠ some 'N' := by
      intro h
      obtain ⟨front, hfront⟩ := List.head?_eq_some_iff.1 h
      obtain ⟨back, hback⟩ := withoutMark_prefix cs
      refine hN ⟨front ++ back, ?_⟩
      rw [← hs, ← hback, hfront]
      rfl
    have hpath := path?_unmarked hhead
    change pathText? s = none ∧ pathText? ("_" ++ s) = none
    rw [pathText?_eq, pathText?_eq, Readers.toList_underscore, ← hs]
    change (path? (withoutMark ('_' :: 'Z' :: cs))).bind _ = none ∧
      (path? (withoutMark ('_' :: '_' :: 'Z' :: cs))).bind _ = none
    rw [(withoutMark_underscores cs).1, (withoutMark_underscores cs).2, hpath.1, hpath.2]
    exact ⟨rfl, rfl⟩

/-- What is read of a symbol keeps the symbol and has the flavor that it is told to have by its look, and nothing is
read of a symbol that has none, whatever the readers of the schemes do. Where the reader of paths takes its mark
with a further underscore as without, an underscore before `_Z` changes neither flavor nor text. -/
theorem flavor_agrees (r : Readers) :
    (∀ s x, r.read? s = some x → x.raw = s ∧ r.flavor? s = some x.flavor) ∧
      (∀ s, r.flavor? s = none → r.read? s = none ∧ r.name? s = none) ∧
      (Readers.PathMarks r.path → ∀ s : String, ['_', 'Z'] <+: s.toList →
        (r.read? ("_" ++ s)).map (fun x => (x.flavor, x.text)) =
          (r.read? s).map fun x => (x.flavor, x.text)) := by
  have hagree {s : String} {x : Readable} (h : r.read? s = some x) : x.raw = s ∧ r.flavor? s = some x.flavor :=
    ⟨(Readers.readsAs_of_read? h).raw_eq, (Readers.readsAs_of_read? h).flavor_eq⟩
  refine ⟨fun s x => hagree, fun s hs => ?_, fun h s hs => Readers.read?_underscore h hs⟩
  have hnone : r.read? s = none := by
    cases h : r.read? s with
    | none => rfl
    | some x =>
      rw [(hagree h).2] at hs
      cases hs
  exact ⟨hnone, by rw [Readers.name?, hnone]; rfl⟩

/-- A path and another name, each with the underscore and without, and a symbol of no flavor. -/
theorem flavor_agrees_underscores :
    Readers.PathMarks readers.path ∧
      (readers.read? ("_" ++ "_ZN3foo3bar17h0123456789abcdefE")).map (fun x => (x.flavor, x.text)) =
        some (.path, "foo::bar") ∧
      (readers.read? ("_" ++ "_Z3foov")).map (fun x => (x.flavor, x.text)) = some (.itanium, "foo()") ∧
      readers.flavor? "_Z3foov" = some .itanium ∧ readers.read? "__Z%" = none := by
  obtain ⟨hflavor, hnone, hmarks⟩ := flavor_agrees readers
  have hpath := hmarks readers_pathMarks "_ZN3foo3bar17h0123456789abcdefE" (by decide)
  have hitanium := hmarks readers_pathMarks "_Z3foov" (by decide)
  have hread : readers.read? "_Z3foov" = some ⟨"_Z3foov", "foo()", .itanium⟩ := by decide +kernel
  refine ⟨readers_pathMarks, ?_, ?_, (hflavor _ _ hread).2, (hnone "__Z%" (by decide +kernel)).1⟩
  · rw [hpath]
    decide +kernel
  · rw [hitanium, hread]
    rfl

end FunctionSlice.Mangled
