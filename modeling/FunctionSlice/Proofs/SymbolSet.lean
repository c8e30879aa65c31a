import FunctionSlice.Proofs.Resolution
import Mathlib.Data.List.Induction

/-! A table built from a list of symbols is the list with the first occurrences only, and a mask finds in it what
it matches. Resolution does not see the order of a table, so neither the order of the list nor a repetition in it
counts. -/

namespace FunctionSlice

namespace SymbolTable

variable {seen xs ys : List Symbol} {x : Symbol}

theorem mem_fresh : x ∈ fresh seen xs ↔ x ∈ xs ∧ x ∉ seen := by
  induction xs generalizing seen with
  | nil => simp [fresh]
  | cons s rest ih =>
    unfold fresh
    by_cases hs : s ∈ seen
    · rw [if_pos hs, ih, List.mem_cons]
      constructor
      · rintro ⟨hx, hn⟩
        exact ⟨.inr hx, hn⟩
      · rintro ⟨rfl | hx, hn⟩
        · exact absurd hs hn
        · exact ⟨hx, hn⟩
    · rw [if_neg hs, List.mem_cons, ih, List.mem_cons, List.mem_cons]
      constructor
      · rintro (rfl | ⟨hx, hn⟩)
        · exact ⟨.inl rfl, hs⟩
        · exact ⟨.inr hx, fun h => hn (.inr h)⟩
      · rintro ⟨hx, hn⟩
        by_cases he : x = s
        · exact .inl he
        · exact .inr ⟨hx.resolve_left he, fun h => h.elim he hn⟩

theorem nodup_fresh (seen xs : List Symbol) : (fresh seen xs).Nodup := by
  induction xs generalizing seen with
  | nil => exact .nil
  | cons s rest ih =>
    unfold fresh
    by_cases hs : s ∈ seen
    · rw [if_pos hs]
      exact ih seen
    · rw [if_neg hs]
      refine List.nodup_cons.2 ⟨fun h => ?_, ih (s :: seen)⟩
      exact (mem_fresh.1 h).2 List.mem_cons_self

variable (read : Mangled.Readers)

@[simp] theorem symbols_ofSymbols (xs : List Symbol) :
    (ofSymbols xs read).symbols = fresh [] xs := by
  unfold symbols ofSymbols
  rw [List.map_map]
  exact List.map_id _

theorem lookup_ofSymbols (xs : List Symbol) (m : Mask) :
    (ofSymbols xs read).lookup m = (fresh [] xs).filter fun x => (Entry.of x read).isMatch m := by
  unfold lookup ofSymbols
  rw [List.filter_map, List.map_map]
  exact List.map_id _

theorem fresh_perm (h : ∀ x, x ∈ xs ↔ x ∈ ys) : (fresh [] xs).Perm (fresh [] ys) := by
  rw [List.perm_ext_iff_of_nodup (nodup_fresh _ _) (nodup_fresh _ _)]
  intro x
  rw [mem_fresh, mem_fresh, h]

theorem lookup_perm (h : ∀ x, x ∈ xs ↔ x ∈ ys) (m : Mask) :
    ((ofSymbols xs read).lookup m).Perm ((ofSymbols ys read).lookup m) := by
  rw [lookup_ofSymbols, lookup_ofSymbols]
  exact (fresh_perm h).filter _

/-- A symbol of the same name elsewhere is another symbol. One that the mask matches by both of its names is found
once. -/
example :
    (ofSymbols [⟨"_Z1bv", 8⟩, ⟨"a", 1⟩, ⟨"_Z1bv", 9⟩, ⟨"a", 1⟩, ⟨"_Z1bv", 8⟩]).lookup ⟨"*b*", true⟩ =
      [⟨"_Z1bv", 8⟩, ⟨"_Z1bv", 9⟩] := by
  decide +kernel

end SymbolTable

variable {f g : SymbolSource} (limit : Expression.Limit)

/-- A name stands for the same symbols in both sources, or is refused in both for the same cause. -/
theorem hits_perm (h : ∀ m, (f m).Perm (g m)) (n : String) :
    (∃ e, hits f n limit = .error e ∧ hits g n limit = .error e) ∨
      ∃ xs ys, hits f n limit = .ok xs ∧ hits g n limit = .ok ys ∧ xs.Perm ys := by
  by_cases hn : n = ""
  · subst hn
    exact .inl ⟨_, rfl, rfl⟩
  have hl := h ⟨n, false⟩
  by_cases hf : f ⟨n, false⟩ = []
  · have hg : g ⟨n, false⟩ = [] := by
      rw [hf] at hl
      exact hl.symm.eq_nil
    by_cases hw : Mask.hasWildcards n
    · cases hm : Mask.ofText n limit with
      | error d => exact .inl ⟨_, hits_of_defect hn hf hw hm, hits_of_defect hn hg hw hm⟩
      | ok m => exact .inr ⟨_, _, hits_of_mask hn hf hw hm, hits_of_mask hn hg hw hm, h m⟩
    · exact .inr ⟨[], [], hits_of_plain hn hf hw, hits_of_plain hn hg hw, .refl _⟩
  · have hg : g ⟨n, false⟩ ≠ [] := by
      intro hg
      rw [hg] at hl
      exact hf hl.eq_nil
    exact .inr ⟨_, _, hits_of_found hn hf, hits_of_found hn hg, hl⟩

/-- Of several symbols only the number counts, and a single one has no order. -/
theorem resolve_perm (h : ∀ m, (f m).Perm (g m)) (q : Query) :
    resolve f q limit = resolve g q limit := by
  cases q with
  | byAddress rva => rfl
  | byName n =>
    rcases hits_perm limit h n with ⟨e, hf, hg⟩ | ⟨xs, ys, hf, hg, hp⟩
    · simp only [resolve, hf, hg]
    · have hlen := hp.length_eq
      rcases xs with - | ⟨x, - | ⟨x', xs⟩⟩
      · obtain rfl := hp.symm.eq_nil
        simp only [resolve, hf, hg]
      · obtain rfl := hp.symm.eq_singleton
        simp only [resolve, hf, hg]
      · rcases ys with - | ⟨y, - | ⟨y', ys⟩⟩
        · simp at hlen
        · simp at hlen
        · simp only [resolve, hf, hg, hlen]

/-- Lists of the same symbols, in whatever order and however often each, resolve every query alike, and
report the same on the way; however names are read and whichever masks are too large. -/
theorem resolve_of_same_symbols (read : Mangled.Readers) (limit : Expression.Limit)
    (xs ys : List Symbol) (h : ∀ x, x ∈ xs ↔ x ∈ ys) (q : Query) :
    resolve (SymbolTable.ofSymbols xs read).lookup q limit =
      resolve (SymbolTable.ofSymbols ys read).lookup q limit :=
  resolve_perm limit (SymbolTable.lookup_perm read h) q

/-- Both matches of a mask are counted once, however often and in whatever order they are listed. -/
theorem resolve_of_same_symbols_repeated :
    let xs : List Symbol := [⟨"fb", 2⟩, ⟨"fa", 1⟩, ⟨"fb", 2⟩, ⟨"fa", 1⟩, ⟨"fa", 1⟩]
    let ys : List Symbol := [⟨"fa", 1⟩, ⟨"fb", 2⟩]
    (∀ x, x ∈ xs ↔ x ∈ ys) ∧
      (resolve (SymbolTable.ofSymbols xs).lookup (.byName "f?")).outcome =
        .error (.notUnique "f?" 2) := by
  intro xs ys
  have h : ∀ x, x ∈ xs ↔ x ∈ ys := by
    intro x
    simp only [xs, ys, List.mem_cons, List.not_mem_nil, or_false]
    grind
  have hy : (resolve (SymbolTable.ofSymbols ys).lookup (.byName "f?")).outcome =
      .error (.notUnique "f?" 2) := by
    decide +kernel
  exact ⟨h, by rw [resolve_of_same_symbols _ _ xs ys h, hy]⟩

end FunctionSlice
