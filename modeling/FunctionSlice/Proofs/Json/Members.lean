import FunctionSlice.Proofs.Json.Refusal
import FunctionSlice.Proofs.Json.Skipping
import Mathlib.Data.List.Duplicate

/-! Records that are read from any object. Members of other names are skipped, whatever their values; a name that
comes twice, a key that spells nothing and a value that its field refuses are failures, wherever they stand. -/

namespace FunctionSlice.Json

open Read

variable {t ts ws r : List Char} {first : Bool} {ms : List (Option String × List Char)}

/-- The text of a key, and what it spells if it spells anything. -/
inductive KeyText : List Char → Option String → Prop
  | spelled (t : List Char) (us : List CodeUnit) (s : String) : UnitsText t us → Spells us s.toList →
      KeyText t (some s)
  | unspelled (t : List Char) (us : List CodeUnit) : UnitsText t us → (∀ cs, ¬ Spells us cs) → KeyText t none

/-- A member by its key and the text of its value, which may be any. -/
inductive MemberText : List Char → Option String × List Char → Prop
  | mk (key ws ws' v : List Char) (k : Option String) : KeyText key k → Blanks ws → Blanks ws' →
      Derives .value v → MemberText ('"' :: key ++ '"' :: (ws ++ ':' :: (ws' ++ v))) (k, v)

/-- The text of an object with these members and nothing but blanks around it. -/
inductive ObjectText : List Char → List (Option String × List Char) → Prop
  | mk (ws ts ws₁ ws₂ : List Char) (ms : List (Option String × List Char)) : Blanks ws →
      Joined MemberText true ts ms → Blanks ws₁ → Blanks ws₂ →
      ObjectText (ws ++ ('\x7b' :: ts ++ ws₁ ++ ['\x7d']) ++ ws₂) ms

theorem exists_keyText {us : List CodeUnit} (h : UnitsText t us) : ∃ k, KeyText t k := by
  by_cases hs : ∃ cs, Spells us cs
  · obtain ⟨cs, hs⟩ := hs
    exact ⟨_, .spelled t us (String.ofList cs) h (by rwa [String.toList_ofList])⟩
  · exact ⟨none, .unspelled t us h fun cs hcs => hs ⟨cs, hcs⟩⟩

theorem exists_units_plain (h : ∀ c ∈ t, 0x20 ≤ c.toNat ∧ c ≠ '"' ∧ c ≠ '\\') :
    ∃ us, UnitsText t us ∧ Spells us t := by
  induction t with
  | nil => exact ⟨[], .nil, .nil⟩
  | cons c t ih =>
    obtain ⟨us, hus, hs⟩ := ih fun d hd => h d (List.mem_cons_of_mem c hd)
    obtain ⟨hc, hq, hb⟩ := h c List.mem_cons_self
    exact ⟨_, .plain c t us hc hq hb hus, .char c us t hs⟩

theorem keyText_plain {s : String} (h : ∀ c ∈ s.toList, 0x20 ≤ c.toNat ∧ c ≠ '"' ∧ c ≠ '\\') :
    KeyText s.toList (some s) := by
  obtain ⟨us, hus, hs⟩ := exists_units_plain h
  exact .spelled _ us s hus hs

theorem Derives.exists_joined (h : Derives (.object first) t) :
    ∃ ts ws ms, t = ts ++ ws ++ ['\x7d'] ∧ Joined MemberText first ts ms ∧ Blanks ws := by
  generalize hp : Piece.object first = p at h
  induction h generalizing first with
  | objectEnd _ ws hw => exact ⟨[], ws, [], rfl, .nil first, hw⟩
  | member _ lead key ws ws' v ts us hl hkey hw hw' hv _ _ ih =>
    cases hp
    obtain ⟨k, hk⟩ := exists_keyText hkey
    obtain ⟨ts, ws₁, ms, rfl, hts, hw₁⟩ := ih rfl
    refine ⟨_, ws₁, (k, v) :: ms, ?_, .cons _ lead _ ts (k, v) ms hl (.mk key ws ws' v k hk hw hw' hv) hts, hw₁⟩
    simp only [List.append_assoc]
  | _ => cases hp

/-- Every object has its members. -/
theorem Derives.exists_objectText (h : Derives .value ('\x7b' :: t)) : ∃ ms, ObjectText ('\x7b' :: t) ms := by
  obtain ⟨ts, ws, ms, rfl, hts, hw⟩ := h.members.exists_joined
  have hobject := ObjectText.mk [] ts ws [] ms blanks_nil hts hw blanks_nil
  exact ⟨ms, by simpa only [List.append_nil, List.nil_append, List.append_assoc, List.cons_append] using hobject⟩

theorem names_of_spells {us : List CodeUnit} {s : String} (h : UnitsText t us) (hs : Spells us s.toList) :
    Names t s := by
  intro r
  rw [string_spelled h hs, String.ofList_toList]

section Given

variable {R : Record} {given : String → Option Value}

/-- The name with its value, if it has both. -/
def valued (given : String → Option Value) (key : Option String) : Option (String × Value) :=
  key.bind fun k => (given k).map (k, ·)

@[simp] theorem valued_none : valued given none = none := rfl

@[simp] theorem valued_some (k : String) : valued given (some k) = (given k).map (k, ·) := rfl

theorem lookup_valued (keys : List (Option String)) (k : String) :
    (keys.filterMap (valued given)).lookup k = if some k ∈ keys then given k else none := by
  induction keys with
  | nil => rfl
  | cons key keys ih =>
    cases key with
    | none => simpa [List.filterMap_cons] using ih
    | some key =>
      by_cases hk : k = key
      · subst hk
        cases hg : given k with
        | none => simpa [hg] using ih
        | some value => simp [hg]
      · cases hg : given key with
        | none => simpa [hg, hk] using ih
        | some value => simpa [hg, hk, List.lookup_cons, beq_false_of_ne hk] using ih

theorem count_valued (keys : List (Option String)) (k : String) :
    ((keys.filterMap (valued given)).map (·.1)).count k = if (given k).isSome then keys.count (some k) else 0 := by
  induction keys with
  | nil => simp
  | cons key keys ih =>
    cases key with
    | none => simpa [List.filterMap_cons] using ih
    | some key =>
      by_cases hk : key = k
      · subst hk
        cases hg : given key with
        | none => simpa [hg] using ih
        | some value => simpa [hg] using ih
      · cases hg : given key with
        | none => simpa [hg, hk] using ih
        | some value => simpa [hg, hk] using ih

/-- What a record makes of what was seen has each of its fields as it was seen. -/
theorem Record.lookup_given (seen : List (String × Value)) {k : String} (hk : k ∈ R.fields.map (·.1)) :
    (R.given seen).lookup k = seen.lookup k := by
  have hgiven : R.given seen = (R.fields.map (some ·.1)).filterMap (valued (seen.lookup ·)) := by
    rw [List.filterMap_map]
    rfl
  rw [hgiven, lookup_valued, if_pos]
  obtain ⟨f, hf, rfl⟩ := List.mem_map.1 hk
  exact List.mem_map.2 ⟨f, hf, rfl⟩

/-- A record is read from an object in which each field stands at most once and with the text of a value given. -/
theorem reads_given (h : Joined MemberText true ts ms) (hnamed : none ∉ ms.map (·.1))
    (hunknown : ∀ k, R.fields.lookup k = none → given k = none)
    (hknown : ∀ k field, R.fields.lookup k = some field → (ms.map (·.1)).count (some k) ≤ 1 ∧
      ∀ v, (some k, v) ∈ ms → ∃ value, given k = some value ∧ Reads field v value)
    (hp : R.partly) (hw : Blanks ws) :
    Reads R.read ('\x7b' :: ts ++ ws ++ ['\x7d'])
      (.object (R.given ((ms.map (·.1)).filterMap (valued given)))) := by
  have hmembers : Joined (Member R) true ts (ms.map fun m => valued given m.1) := by
    refine h.map fun t m hm ht => ?_
    cases ht with
    | mk key ws ws' v k hkey hws hws' hv =>
      cases hkey with
      | unspelled us _ _ => exact absurd (List.mem_map_of_mem hm) hnamed
      | spelled us s hus hs =>
        have hname := names_of_spells hus hs
        cases hk : R.fields.lookup s with
        | none =>
          simp only [valued_some, hunknown s hk, Option.map_none]
          exact .unknown key ws ws' v s hname hk hws hws' (reads_skipValue hv)
        | some field =>
          obtain ⟨value, hvalue, hreads⟩ := (hknown s field hk).2 v hm
          simp only [valued_some, hvalue, Option.map_some]
          exact .known key ws ws' v s value field hname hk hws hws' hreads
  have hseen : (ms.map fun m => valued given m.1).reduceOption = (ms.map (·.1)).filterMap (valued given) := by
    rw [List.reduceOption, List.filterMap_map, List.filterMap_map]
    rfl
  rw [← hseen]
  refine reads_record hmembers ?_ (fun _ _ => .inl hp) hw
  rw [hseen]
  refine List.nodup_iff_count_le_one.2 fun k => ?_
  rw [count_valued]
  split
  · rename_i hsome
    cases hk : R.fields.lookup k with
    | none => simp [hunknown k hk] at hsome
    | some field => exact (hknown k field hk).1
  · exact Nat.zero_le 1

end Given

section Refused

variable {R : Record}

/-- A member that is refused by itself: its key spells nothing, or its value is none for its field. -/
def Record.Refuses (R : Record) (m : Option String × List Char) : Prop :=
  m.1 = none ∨ ∃ k field, m.1 = some k ∧ R.fields.lookup k = some field ∧
    ∀ ws r, Blanks ws → Ends r → Fails field (ws ++ m.2 ++ r)

/-- A known name comes twice, once perhaps among those already seen. -/
def Record.Repeats (R : Record) (seen : List (String × Value)) (keys : List (Option String)) : Prop :=
  ∃ k, (R.fields.lookup k).isSome ∧
    (List.Duplicate (some k) keys ∨ (seen.lookup k).isSome ∧ some k ∈ keys)

theorem Record.Repeats.later {k : String} {v : Value} {seen : List (String × Value)} {keys : List (Option String)}
    (h : R.Repeats seen (some k :: keys)) (hs : seen.lookup k = none) : R.Repeats ((k, v) :: seen) keys := by
  obtain ⟨k', hknown, h⟩ := h
  refine ⟨k', hknown, ?_⟩
  by_cases hk : k' = k
  · subst hk
    rcases h with h | ⟨hseen, -⟩
    · exact .inr ⟨by simp, h.mem_cons_self⟩
    · simp [hs] at hseen
  · rcases h with h | ⟨hseen, hmem⟩
    · exact .inl (h.of_duplicate_cons (by simpa using hk))
    · refine .inr ⟨?_, by simpa [hk] using hmem⟩
      rwa [List.lookup_cons, beq_false_of_ne hk]

theorem Record.Repeats.skip {k : String} {seen : List (String × Value)} {keys : List (Option String)}
    (h : R.Repeats seen (some k :: keys)) (hk : R.fields.lookup k = none) : R.Repeats seen keys := by
  obtain ⟨k', hknown, h⟩ := h
  have hne : k' ≠ k := by
    rintro rfl
    simp [hk] at hknown
  refine ⟨k', hknown, h.imp (fun h => h.of_duplicate_cons (by simpa using hne)) (fun h => ⟨h.1, ?_⟩)⟩
  simpa [hne] using h.2

theorem Record.not_refuses_of_unknown {k : String} (hk : R.fields.lookup k = none) (v : List Char) :
    ¬ R.Refuses (some k, v) := by
  rintro (h | ⟨k', field, h, hfield, -⟩)
  · cases h
  · cases h
    rw [hk] at hfield
    cases hfield

theorem Record.not_refuses_of_run {k : String} {v : List Char} {field : Read Value} {value : Value}
    (hk : R.fields.lookup k = some field) (hrun : field.run (ws ++ v ++ r) = .ok value r) (hw : Blanks ws)
    (hr : Ends r) : ¬ R.Refuses (some k, v) := by
  rintro (h | ⟨k', field', h, hfield, hfails⟩)
  · cases h
  · cases h
    rw [hk] at hfield
    cases hfield
    obtain ⟨e, cs, hfails⟩ := hfails ws r hw hr
    rw [hrun] at hfails
    cases hfails

/-- Behind a key: a failure, or the value is not refused by itself and what is seen then leads to the rest. -/
theorem afterKey_step {n : Nat} {ws' v : List Char} {k : String} (seen : List (String × Value))
    (hexact : ∀ k field, R.fields.lookup k = some field → Exact field) (hw : Blanks ws) (hw' : Blanks ws')
    (hv : Derives .value v) (hr : Ends r) :
    Fails (R.afterKey n seen k) (ws ++ ':' :: (ws' ++ v ++ r)) ∨ ¬ R.Refuses (some k, v) ∧
      ∃ seen', (R.afterKey n seen k).run (ws ++ ':' :: (ws' ++ v ++ r)) = (R.members n false seen').run r ∧
        ∀ keys, R.Repeats seen (some k :: keys) → R.Repeats seen' keys := by
  cases hk : R.fields.lookup k with
  | none =>
    refine .inr ⟨R.not_refuses_of_unknown hk v, seen, ?_, fun keys h => h.skip hk⟩
    rw [run_afterKey_unknown hk hw, run_bind_of_ok (reads_skipValue hv ws' r hw' hr)]
  | some field =>
    cases hseen : seen.lookup k with
    | some value =>
      simp only [Record.afterKey, hk, hseen, Option.isSome_some, ↓reduceIte]
      exact .inl (fails_failUnplaced _ _)
    | none =>
      rcases hexact k field hk v ws' r hv hw' hr with hfails | ⟨value, hrun⟩
      · exact .inl ((hfails.bind _).of_run_eq (run_afterKey_known hk hseen hw _))
      · refine .inr ⟨R.not_refuses_of_run hk hrun hw' hr, (k, value) :: seen, ?_, fun keys h => h.later hseen⟩
        rw [run_afterKey_known hk hseen hw, run_bind_of_ok hrun]

theorem members_step {n : Nat} {lead : List Char} {m : Option String × List Char} (seen : List (String × Value))
    (hexact : ∀ k field, R.fields.lookup k = some field → Exact field) (hl : Leads first lead) (ht : MemberText t m)
    (hr : Ends r) : Fails (R.members (n + 1) first seen) (lead ++ t ++ r) ∨ ¬ R.Refuses m ∧
      ∃ seen', (R.members (n + 1) first seen).run (lead ++ t ++ r) = (R.members n false seen').run r ∧
        ∀ keys, R.Repeats seen (m.1 :: keys) → R.Repeats seen' keys := by
  cases ht with
  | mk key ws ws' v k hkey hw hw' hv =>
    cases hkey with
    | unspelled us hus hnone =>
      simp only [List.append_assoc, List.cons_append]
      exact .inl (((string_unspelled hus hnone _).bind _).of_run_eq (run_members_key hl _))
    | spelled us s hus hs =>
      have hname (cs : List Char) : (R.members (n + 1) first seen).run (lead ++ '"' :: (key ++ '"' :: cs)) =
          (R.afterKey n seen s).run cs := run_members_name hl (names_of_spells hus hs) cs
      have hstep := afterKey_step (k := s) (n := n) seen hexact hw hw' hv hr
      simp only [List.append_assoc, List.cons_append] at hstep ⊢
      rcases hstep with hfails | ⟨hm, seen', hrun, hrepeats⟩
      · exact .inl (hfails.of_run_eq (hname _))
      · exact .inr ⟨hm, seen', (hname _).trans hrun, hrepeats⟩

theorem fails_members {n : Nat} {seen : List (String × Value)} (h : Joined MemberText first ts ms)
    (hexact : ∀ k field, R.fields.lookup k = some field → Exact field) (hn : ms.length < n)
    (hbad : (∃ m ∈ ms, R.Refuses m) ∨ R.Repeats seen (ms.map (·.1))) (hw : Blanks ws) (r : List Char) :
    Fails (R.members n first seen) (ts ++ (ws ++ '\x7d' :: r)) := by
  induction h generalizing n seen with
  | nil first =>
    rcases hbad with ⟨m, hm, -⟩ | ⟨k, -, h | ⟨-, h⟩⟩
    · cases hm
    · cases h
    · cases h
  | cons first lead t ts m ms hl ht hms ih =>
    obtain ⟨n, rfl⟩ := Nat.exists_eq_add_one_of_ne_zero (Nat.ne_zero_of_lt hn)
    have hends := hms.ends hw (.inr (.inr rfl)) r
    rw [List.append_assoc]
    rcases members_step seen hexact hl ht hends with hfails | ⟨hm, seen', hrun, hrepeats⟩
    · exact hfails
    · refine (ih (by simpa using hn) ?_).of_run_eq hrun
      rcases hbad with ⟨m', hm', hrefuses⟩ | hrep
      · rcases List.mem_cons.1 hm' with rfl | hm'
        · exact absurd hrefuses hm
        · exact .inl ⟨m', hm', hrefuses⟩
      · exact .inr (hrepeats _ hrep)

theorem MemberText.ne_nil {m : Option String × List Char} (h : MemberText t m) : t ≠ [] := by
  cases h
  exact List.cons_ne_nil _ _

theorem Fails.closing {α : Type} {p : Read α} {cs : List Char} (h : Fails p cs) (finish : Read Unit) :
    Fails (closing p finish) cs := by
  obtain ⟨f, s, h⟩ := h
  have h : p cs = .error f s := h
  unfold Fails
  change ∃ f s, Json.closing p finish cs = .error f s
  rw [Json.closing, h]
  cases hf : finish s with
  | ok _ s' => exact ⟨f, s', by simp only [hf]⟩
  | error _ s' => exact ⟨f, s', by simp only [hf]⟩

theorem fails_record (h : Joined MemberText true ts ms)
    (hexact : ∀ k field, R.fields.lookup k = some field → Exact field)
    (hbad : (∃ m ∈ ms, R.Refuses m) ∨ R.Repeats [] (ms.map (·.1))) (hw : Blanks ws) {ws' : List Char}
    (hw' : Blanks ws') (r : List Char) : Fails R.read (ws' ++ ('\x7b' :: ts ++ ws ++ ['\x7d']) ++ r) := by
  have hn := h.length_le fun t m ht => ht.ne_nil
  simp only [List.cons_append, List.append_assoc, List.nil_append]
  refine Fails.placed (Fails.of_run_eq ?_ (run_afterBlanks hw' (by decide) _ _))
  refine Fails.of_run_eq (Fails.bind (Fails.closing ?_ _) _) (run_skip_bind _ _ _)
  refine Fails.of_run_eq (Fails.bind (fails_members h hexact ?_ hbad hw r) _) (run_get_bind _ _)
  rw [List.length_append]
  omega

end Refused

end FunctionSlice.Json
