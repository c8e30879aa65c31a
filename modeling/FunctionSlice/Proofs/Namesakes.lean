import FunctionSlice.Proofs.SymbolSet

/-! A symbol can be asked for by its raw name, unless that name is also the readable form of another symbol.
The literal lookup does not prefer the one to the other: together they are too many. -/

namespace FunctionSlice

namespace SymbolTable

/-- The other symbols that are read as `r` is called. -/
def namesakes (t : SymbolTable) (r : Symbol) (read : Mangled.Readers := Mangled.readers) :
    List Symbol :=
  t.symbols.filter fun x => x ≠ r ∧ read.name? x.name = some r.name

variable {read : Mangled.Readers} {xs : List Symbol} {r x : Symbol}

theorem isMatch_literal_of (n : String) (x : Symbol) :
    (Entry.of x read).isMatch ⟨n, false⟩ ↔ x.name = n ∨ read.name? x.name = some n := by
  unfold Entry.isMatch Entry.of
  rw [Bool.or_eq_true, Mask.isMatch_literal]
  cases read.name? x.name with
  | none => simp
  | some d => simp [Mask.isMatch_literal]

/-- A raw name that only `r` has finds `r` and its namesakes. -/
theorem lookup_raw_perm (hr : r ∈ (ofSymbols xs read).symbols)
    (hu : ∀ x ∈ (ofSymbols xs read).symbols, x.name = r.name → x = r) :
    ((ofSymbols xs read).lookup ⟨r.name, false⟩).Perm
      (r :: (ofSymbols xs read).namesakes r read) := by
  rw [lookup_ofSymbols]
  unfold namesakes
  rw [symbols_ofSymbols] at hr hu ⊢
  have hp : (fresh [] xs).Perm (r :: (fresh [] xs).erase r) := List.perm_cons_erase hr
  have hself : (Entry.of r read).isMatch ⟨r.name, false⟩ := (isMatch_literal_of _ _).2 (.inl rfl)
  have hothers : ∀ x ∈ (fresh [] xs).erase r, (Entry.of x read).isMatch ⟨r.name, false⟩ =
      decide (x ≠ r ∧ read.name? x.name = some r.name) := by
    intro x hx
    obtain ⟨hne, hmem⟩ := (nodup_fresh [] xs).mem_erase_iff.1 hx
    rw [Bool.eq_iff_iff, isMatch_literal_of, decide_eq_true_iff]
    constructor
    · intro h
      exact ⟨hne, h.resolve_left fun hn => hne (hu x hmem hn)⟩
    · rintro ⟨-, h⟩
      exact .inr h
  have hl := hp.filter fun x => (Entry.of x read).isMatch ⟨r.name, false⟩
  have hn := hp.filter fun x => decide (x ≠ r ∧ read.name? x.name = some r.name)
  rw [List.filter_cons, if_pos hself, List.filter_congr hothers] at hl
  rw [List.filter_cons_of_neg (by simp)] at hn
  exact hl.trans (hn.symm.cons r)

end SymbolTable

/-- The raw name that only one symbol has leads to that symbol, if no other is read so; else it is
refused, with the number of all that it may mean. -/
theorem resolve_raw_name (read : Mangled.Readers) (limit : Expression.Limit) (xs : List Symbol)
    (r : Symbol) (hr : r ∈ (SymbolTable.ofSymbols xs read).symbols) (hn : r.name ≠ "")
    (hu : ∀ x ∈ (SymbolTable.ofSymbols xs read).symbols, x.name = r.name → x = r) :
    let t := SymbolTable.ofSymbols xs read
    (t.namesakes r read = [] → (resolve t.lookup (.byName r.name) limit).outcome = .ok r.rva) ∧
      (t.namesakes r read ≠ [] → (resolve t.lookup (.byName r.name) limit).outcome =
        .error (.notUnique r.name ((t.namesakes r read).length + 1))) := by
  intro t
  have hp : (t.lookup ⟨r.name, false⟩).Perm (r :: t.namesakes r read) :=
    SymbolTable.lookup_raw_perm hr hu
  have hfound : t.lookup ⟨r.name, false⟩ ≠ [] := by
    intro h
    rw [h] at hp
    exact List.cons_ne_nil _ _ hp.symm.eq_nil
  have hh : hits t.lookup r.name limit = .ok (t.lookup ⟨r.name, false⟩) :=
    hits_of_found hn hfound
  constructor
  · intro hnone
    rw [hnone] at hp
    rw [hp.eq_singleton] at hh
    exact outcome_of_one_hit hh
  · intro hsome
    have hlen := hp.length_eq
    have hpos := List.length_pos_iff.2 hsome
    rw [List.length_cons] at hlen
    rw [outcome_of_other_hits hh (by omega), hlen]

/-- The same raw name alone in its table, and beside a decorated name that is read so. -/
theorem resolve_raw_name_entry :
    let r : Symbol := ⟨"entry", 0x20⟩
    (resolve (SymbolTable.ofSymbols [⟨"?exit@@YAXXZ", 0x10⟩, r]).lookup (.byName "entry")).outcome =
        .ok 0x20 ∧
      (resolve (SymbolTable.ofSymbols [⟨"?entry@@YAXXZ", 0x10⟩, r]).lookup (.byName "entry")).outcome =
        .error (.notUnique "entry" 2) := by
  intro r
  have hfree := (resolve_raw_name Mangled.readers Expression.sizeLimit [⟨"?exit@@YAXXZ", 0x10⟩, r] r
    (by decide +kernel) (by decide) (by decide +kernel)).1
  have htaken := (resolve_raw_name Mangled.readers Expression.sizeLimit
    [⟨"?entry@@YAXXZ", 0x10⟩, r] r (by decide +kernel) (by decide) (by decide +kernel)).2
  have hone : ((SymbolTable.ofSymbols [⟨"?entry@@YAXXZ", 0x10⟩, r]).namesakes r).length = 1 := by
    decide +kernel
  rw [hone] at htaken
  exact ⟨hfree (by decide +kernel), htaken (by decide +kernel)⟩

/-- A raw name that one symbol alone has need not lead to it. -/
theorem raw_name_shadowed :
    let r : Symbol := ⟨"entry", 0x20⟩
    let t := SymbolTable.ofSymbols [⟨"?entry@@YAXXZ", 0x10⟩, r]
    r ∈ t.symbols ∧ r.name ≠ "" ∧ (∀ x ∈ t.symbols, x.name = r.name → x = r) ∧
      (resolve t.lookup (.byName r.name)).outcome ≠ .ok r.rva := by
  decide +kernel

end FunctionSlice
