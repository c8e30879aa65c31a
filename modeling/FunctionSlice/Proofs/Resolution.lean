import FunctionSlice.Proofs.Glob
import FunctionSlice.Resolve

/-! A name is resolved in two stages, and each stage asks for exactly one entry of the table. An entry has
up to two forms and counts once, whichever of them is meant. -/

namespace FunctionSlice

namespace SymbolTable

/-- The names that an entry can be found by. -/
def Entry.forms (e : Entry) : List String := e.symbol.name :: e.readable.toList

/-- The entries with a form that satisfies `P`. -/
def having (t : SymbolTable) (P : String → Prop) [DecidablePred P] : List Entry :=
  t.entries.filter fun e => ∃ s ∈ e.forms, P s

/-- Those called `n` to the letter. -/
def called (t : SymbolTable) (n : String) : List Entry := t.having (· = n)

/-- Those that `n` stands for when it is read as a mask. -/
def meant (t : SymbolTable) (n : String) : List Entry := t.having fun s => Glob n.toList s.toList

theorem lookup_eq_having (t : SymbolTable) {m : Mask} {P : String → Prop} [DecidablePred P]
    (h : ∀ s, m.isMatch s ↔ P s) : t.lookup m = (t.having P).map (·.symbol) := by
  unfold lookup having
  congr 1
  refine List.filter_congr fun e _ => ?_
  rw [Bool.eq_iff_iff, decide_eq_true_iff]
  unfold Entry.isMatch Entry.forms
  cases e.readable with
  | none => simp [h]
  | some d => simp [h]

theorem lookup_literal (t : SymbolTable) (n : String) :
    t.lookup ⟨n, false⟩ = (t.called n).map (·.symbol) :=
  t.lookup_eq_having (Mask.isMatch_literal n)

theorem lookup_wild (t : SymbolTable) (n : String) :
    t.lookup ⟨n, true⟩ = (t.meant n).map (·.symbol) :=
  t.lookup_eq_having (Mask.isMatch_wild n)

end SymbolTable

variable {source : SymbolSource} {n : String} {limit : Expression.Limit}

theorem Mask.literal_eq_ok (hn : n ≠ "") : literal n = .ok ⟨n, false⟩ := by
  simp [literal, hn]

theorem literal_of_ne (hn : n ≠ "") :
    (Mask.literal n).mapError MaskDefect.toFault = .ok ⟨n, false⟩ := by
  rw [Mask.literal_eq_ok hn]
  rfl

theorem hits_of_found (hn : n ≠ "") (h : source ⟨n, false⟩ ≠ []) :
    hits source n limit = .ok (source ⟨n, false⟩) := by
  unfold hits
  rw [literal_of_ne hn]
  simp only [bind, Except.bind]
  cases hs : source ⟨n, false⟩ with
  | nil => exact absurd hs h
  | cons x xs => rfl

theorem hits_of_plain (hn : n ≠ "") (h : source ⟨n, false⟩ = []) (hw : ¬ Mask.hasWildcards n) :
    hits source n limit = .ok [] := by
  unfold hits
  rw [literal_of_ne hn]
  simp only [bind, Except.bind, h, hw]
  rfl

theorem hits_of_mask {m : Mask} (hn : n ≠ "") (h : source ⟨n, false⟩ = [])
    (hw : Mask.hasWildcards n) (hm : Mask.ofText n limit = .ok m) :
    hits source n limit = .ok (source m) := by
  unfold hits
  rw [literal_of_ne hn, hm]
  simp only [bind, Except.bind, h, hw]
  rfl

theorem hits_of_defect {d : MaskDefect} (hn : n ≠ "") (h : source ⟨n, false⟩ = [])
    (hw : Mask.hasWildcards n) (hm : Mask.ofText n limit = .error d) :
    hits source n limit = .error d.toFault := by
  unfold hits
  rw [literal_of_ne hn, hm]
  simp only [bind, Except.bind, h, hw]
  rfl

theorem outcome_of_one_hit {x : Symbol} (h : hits source n limit = .ok [x]) :
    (resolve source (.byName n) limit).outcome = .ok x.rva := by
  simp [resolve, h]

theorem outcome_of_other_hits {xs : List Symbol} (h : hits source n limit = .ok xs)
    (hl : xs.length ≠ 1) : (resolve source (.byName n) limit).outcome = .error (.notUnique n xs.length) := by
  match xs with
  | [] => simp [resolve, h]
  | [x] => exact absurd rfl hl
  | x :: y :: xs => simp [resolve, h]

/-- The outcome is that of asking for exactly one of the entries `es`. -/
structure Settles (es : List SymbolTable.Entry) (n : String) (r : Except Fault Word) : Prop where
  one : ∀ e, es = [e] → r = .ok e.symbol.rva
  other : es.length ≠ 1 → r = .error (.notUnique n es.length)

theorem settles_of_hits {es : List SymbolTable.Entry} 
    (h : hits source n limit = .ok (es.map (·.symbol))) :
    Settles es n (resolve source (.byName n) limit).outcome := by
  constructor
  · rintro e rfl
    exact outcome_of_one_hit h
  · intro hl
    rw [outcome_of_other_hits h (by rwa [List.length_map]), List.length_map]

/-- An address stands for itself. A name stands for the one entry that is called so, or for the one that
it means as a mask if none is called so; which masks are too large does not matter. -/
theorem resolve_two_stages (t : SymbolTable) (limit : Expression.Limit) :
    (∀ a, (resolve t.lookup (.byAddress a) limit).outcome = .ok a) ∧
    (resolve t.lookup (.byName "") limit).outcome = .error (.badMask "empty mask") ∧
    ∀ n, n ≠ "" →
      (t.called n ≠ [] ∨ ¬ ('*' ∈ n.toList ∨ '?' ∈ n.toList) →
        Settles (t.called n) n (resolve t.lookup (.byName n) limit).outcome) ∧
      (t.called n = [] → '*' ∈ n.toList ∨ '?' ∈ n.toList →
        (∀ m, Mask.ofText n limit = .ok m →
          Settles (t.meant n) n (resolve t.lookup (.byName n) limit).outcome) ∧
        ∀ d, Mask.ofText n limit = .error d →
          (resolve t.lookup (.byName n) limit).outcome = .error (.badMask d.message)) := by
  refine ⟨fun a => rfl, rfl, fun n hn => ⟨?_, fun hc hw => ⟨fun m hm => ?_, fun d hd => ?_⟩⟩⟩
  · rw [← Mask.hasWildcards_iff]
    intro h
    refine settles_of_hits ?_
    rw [← t.lookup_literal]
    by_cases hc : t.lookup ⟨n, false⟩ = []
    · rw [hc]
      refine hits_of_plain hn hc (h.resolve_left fun hne => hne ?_)
      rw [t.lookup_literal] at hc
      exact List.map_eq_nil_iff.1 hc
    · exact hits_of_found hn hc
  all_goals
    have hw := Mask.hasWildcards_iff.2 hw
    have hl : t.lookup ⟨n, false⟩ = [] := by rw [t.lookup_literal, hc, List.map_nil]
  · refine settles_of_hits ?_
    rw [← t.lookup_wild, ← Mask.ofText_of_wildcards hw hm]
    exact hits_of_mask hn hl hw hm
  · simp [resolve, hits_of_defect hn hl hw hd, MaskDefect.toFault]

/-- A decorated name begins with a wildcard and is still found to the letter. An entry of which both forms
fit a mask is one match. -/
theorem resolve_two_stages_decorated :
    let t : SymbolTable := ⟨[⟨⟨"?f@@YAXXZ", 0x10⟩, some "f"⟩, ⟨⟨"gf", 0x20⟩, none⟩]⟩
    t.called "?f@@YAXXZ" ≠ [] ∧
      (resolve t.lookup (.byName "?f@@YAXXZ")).outcome = .ok 0x10 ∧
      t.called "*f*" = [] ∧ Mask.ofText "*f*" = .ok ⟨"*f*", true⟩ ∧ (t.meant "*f*").length = 2 ∧
      (resolve t.lookup (.byName "*f*")).outcome = .error (.notUnique "*f*" 2) := by
  intro t
  obtain ⟨-, -, h⟩ := resolve_two_stages t Expression.sizeLimit
  have he : t.called "?f@@YAXXZ" = [⟨⟨"?f@@YAXXZ", 0x10⟩, some "f"⟩] := by decide +kernel
  have hne : t.called "?f@@YAXXZ" ≠ [] := by
    rw [he]
    exact List.cons_ne_nil _ _
  have hc : t.called "*f*" = [] := by decide +kernel
  have hm : Mask.ofText "*f*" = .ok ⟨"*f*", true⟩ := rfl
  have hw : (t.meant "*f*").length = 2 := by decide +kernel
  have hd := ((h "?f@@YAXXZ" (by decide)).1 (.inl hne)).one _ he
  have hf := (((h "*f*" (by decide)).2 hc (by decide)).1 _ hm).other (by rw [hw]; decide)
  rw [hw] at hf
  exact ⟨hne, hd, hc, hm, hw, hf⟩

end FunctionSlice
