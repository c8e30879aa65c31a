import FunctionSlice.Proofs.Json.Words
import Mathlib.Data.List.ReduceOption
import Mathlib.Data.List.TakeWhile

/-! Readers on texts that are put together from the texts of parts, with any blanks between the words.
If the reader of each part takes its text, the reader of the whole takes the whole. -/

namespace FunctionSlice.Json

open Read

variable {α β : Type} {ws r : List Char}

def Blanks (ws : List Char) : Prop := ∀ c ∈ ws, isBlank c

theorem blanks_nil : Blanks [] := nofun

/-- The reader takes the text for the value, after any blanks and wherever a value can end. -/
def Reads (p : Read α) (t : List Char) (a : α) : Prop :=
  ∀ ws r, Blanks ws → Ends r → p.run (ws ++ t ++ r) = .ok a r

theorem Reads.run {p : Read α} {t : List Char} {a : α} (h : Reads p t a) (hr : Ends r) :
    p.run (t ++ r) = .ok a r := h [] r blanks_nil hr

theorem ends_blanks (hw : Blanks ws) : Ends ws :=
  fun _ hc => .inr (.inr (.inr (hw _ (List.mem_of_mem_head? hc))))

theorem ends_of_blanks {c : Char} (hw : Blanks ws) (hc : c = ',' ∨ c = ']' ∨ c = '\x7d')
    (r : List Char) : Ends (ws ++ c :: r) := by
  intro d hd
  cases ws with
  | nil =>
    cases hd
    rcases hc with h | h | h <;> simp [h]
  | cons b ws =>
    cases hd
    exact .inr (.inr (.inr (hw d List.mem_cons_self)))

theorem run_placed {p : Read α} {cs : List Char} {a : α} (h : p.run cs = .ok a r) :
    (placed p).run cs = .ok a r := by
  have h : p cs = .ok a r := h
  change placed p cs = _
  rw [placed, h]

theorem run_closing {p : Read α} {finish : Read Unit} {cs mid : List Char} {a : α}
    (hp : p.run cs = .ok a mid) (hf : finish.run mid = .ok () r) :
    (closing p finish).run cs = .ok a r := by
  have hp : p cs = .ok a mid := hp
  have hf : finish mid = .ok () r := hf
  change closing p finish cs = _
  rw [closing, hp]
  simp only [hf]

theorem run_skip_bind (f : Unit → Read β) (c : Char) (cs : List Char) :
    (skip >>= f).run (c :: cs) = (f ()).run cs := rfl

theorem run_get_bind (f : List Char → Read β) (cs : List Char) :
    ((get : Read (List Char)) >>= f).run cs = (f cs).run cs := rfl

theorem run_afterBlanks {c : Char} (hw : Blanks ws) (hc : isBlank c = false)
    (f : Option Char → Read β) (r : List Char) :
    (afterBlanks >>= f).run (ws ++ c :: r) = (f (some c)).run (c :: r) := by
  have hd : (ws ++ c :: r).dropWhile isBlank = c :: r := by
    rw [List.dropWhile_append_of_pos hw]
    simp [hc]
  change (f ((ws ++ c :: r).dropWhile isBlank).head?).run ((ws ++ c :: r).dropWhile isBlank) = _
  rw [hd]
  rfl

theorem run_afterBlanks_end (hw : Blanks ws) (f : Option Char → Read β) :
    (afterBlanks >>= f).run ws = (f none).run [] := by
  have hd : ws.dropWhile isBlank = [] := List.dropWhile_eq_nil_iff.2 hw
  change (f (ws.dropWhile isBlank).head?).run (ws.dropWhile isBlank) = _
  rw [hd]
  rfl

theorem isBlank_of_isDigit {d : Char} (hd : d.isDigit) : isBlank d = false := by
  rw [Bool.eq_false_iff]
  intro hb
  simp only [isBlank, Bool.or_eq_true, beq_iff_eq] at hb
  rcases hb with ((rfl | rfl) | rfl) | rfl <;> cases hd

theorem reads_natural {n limit : Nat} (hn : n < limit) (hl : limit ≤ 0x1_0000_0000_0000_0000)
    (expected : String) : Reads (natural limit expected) (Nat.toDigits 10 n) (.number n) := by
  intro ws r hw hr
  obtain ⟨d, ds, hds, hd⟩ := exists_toDigits_eq_cons n
  have hb : isBlank d = false := isBlank_of_isDigit hd
  have hnum := number_written (n := n) (by omega) hr
  rw [hds, List.cons_append] at hnum
  rw [hds, List.append_assoc, List.cons_append]
  refine run_placed ?_
  rw [run_afterBlanks hw hb]
  split
  · contradiction
  · rename_i h
    cases h
    cases hd
  · rename_i c h h'
    cases h'
    rw [if_pos hd, run_bind_of_ok hnum]
    simp only [hn]
    rfl

/-- What stands between quotes is read as the string. -/
def Names (t : List Char) (s : String) : Prop := ∀ r, string.run (t ++ '"' :: r) = .ok s r

theorem reads_text {t : List Char} {s : String} (h : Names t s) (expected : String) :
    Reads (text expected) ('"' :: t ++ ['"']) (.text s) := by
  intro ws r hw hr
  refine run_placed ?_
  simp only [List.append_assoc, List.cons_append, List.nil_append]
  rw [run_afterBlanks hw (by decide)]
  simp only
  rw [run_skip_bind, run_bind_of_ok (h r)]
  rfl

/-- What leads to the next part of a list or an object: blanks, and a comma unless it is the first. -/
inductive Leads : Bool → List Char → Prop
  | first (ws : List Char) : Blanks ws → Leads true ws
  | next (ws ws' : List Char) : Blanks ws → Blanks ws' → Leads false (ws ++ ',' :: ws')

theorem Leads.ends {lead : List Char} (h : Leads false lead) (r : List Char) : Ends (lead ++ r) := by
  cases h with
  | next ws ws' hw _ =>
    rw [List.append_assoc, List.cons_append]
    exact ends_of_blanks hw (.inl rfl) _

/-- The texts of parts one after another, each with what leads to it. -/
inductive Joined (part : List Char → β → Prop) : Bool → List Char → List β → Prop
  | nil (first : Bool) : Joined part first [] []
  | cons (first : Bool) (lead t ts : List Char) (b : β) (bs : List β) : Leads first lead →
      part t b → Joined part false ts bs → Joined part first (lead ++ t ++ ts) (b :: bs)

section Joined

variable {γ : Type} {part : List Char → β → Prop} {first : Bool} {ts : List Char} {bs : List β}

theorem Joined.map {part' : List Char → γ → Prop} {f : β → γ} (h : Joined part first ts bs)
    (hf : ∀ t, ∀ b ∈ bs, part t b → part' t (f b)) : Joined part' first ts (bs.map f) := by
  induction h with
  | nil first => exact .nil first
  | cons first lead t ts b bs hl ht _ ih =>
    exact .cons first lead t ts _ _ hl (hf t b List.mem_cons_self ht)
      (ih fun t a ha => hf t a (List.mem_cons_of_mem b ha))

theorem Joined.length_le (h : Joined part first ts bs) (hp : ∀ t b, part t b → t ≠ []) :
    bs.length ≤ ts.length := by
  induction h with
  | nil => exact Nat.le_refl 0
  | cons first lead t ts b bs _ ht _ ih =>
    have hpos : 0 < t.length := List.length_pos_iff.2 (hp t b ht)
    simp only [List.length_append, List.length_cons]
    omega

theorem Joined.ends {c : Char} (h : Joined part false ts bs) (hw : Blanks ws)
    (hc : c = ',' ∨ c = ']' ∨ c = '\x7d') (r : List Char) : Ends (ts ++ (ws ++ c :: r)) := by
  cases h with
  | nil => exact ends_of_blanks hw hc r
  | cons _ lead t ts b bs hl =>
    rw [List.append_assoc, List.append_assoc]
    exact hl.ends _

end Joined

/-- The text starts with neither a blank nor the end of a list. -/
def Begins (t : List Char) : Prop := ∃ c cs, t = c :: cs ∧ isBlank c = false ∧ c ≠ ']'

theorem Begins.ne_nil {t : List Char} (h : Begins t) : t ≠ [] := by
  obtain ⟨c, cs, rfl, -⟩ := h
  exact List.cons_ne_nil c cs

variable {first : Bool}

theorem run_hasItem {lead t : List Char} (hl : Leads first lead) (ht : Begins t)
    (f : Bool → Read β) (r : List Char) :
    (hasItem first >>= f).run (lead ++ t ++ r) = (f true).run (t ++ r) := by
  obtain ⟨c, cs, rfl, hb, hc⟩ := ht
  rw [List.append_assoc, List.cons_append]
  refine run_bind_of_ok ?_ f
  cases hl with
  | first _ hw =>
    unfold hasItem
    rw [run_afterBlanks hw hb]
    split
    · contradiction
    · rename_i h
      exact absurd (Option.some.inj h) hc
    · rfl
  | next ws ws' hw hw' =>
    unfold hasItem
    rw [List.append_assoc, List.cons_append, run_afterBlanks hw (by decide)]
    split
    · contradiction
    · contradiction
    · rename_i h
      cases h
      simp only [Bool.false_eq_true, ↓reduceIte]
      rw [run_skip_bind, run_afterBlanks hw' hb]
      split
      · rename_i h
        exact absurd (Option.some.inj h) hc
      · rfl
      · contradiction

theorem run_hasItem_end (first : Bool) (hw : Blanks ws) (f : Bool → Read β) (r : List Char) :
    (hasItem first >>= f).run (ws ++ ']' :: r) = (f false).run (']' :: r) := by
  refine run_bind_of_ok ?_ f
  unfold hasItem
  rw [run_afterBlanks hw (by decide)]
  rfl

/-- An item of a list, whose text does not start like the end of the list. -/
structure Item (item : Read Value) (t : List Char) (v : Value) : Prop where
  begins : Begins t
  reads : Reads item t v

variable {item : Read Value} {ts : List Char} {vs : List Value}

theorem run_items {n : Nat} (h : Joined (Item item) first ts vs) (hn : vs.length < n)
    (hw : Blanks ws) (r : List Char) :
    (items item n first).run (ts ++ (ws ++ ']' :: r)) = .ok vs (']' :: r) := by
  induction h generalizing n with
  | nil first =>
    obtain ⟨k, rfl⟩ := Nat.exists_eq_add_one_of_ne_zero (Nat.ne_zero_of_lt hn)
    exact run_hasItem_end first hw _ r
  | cons first lead t ts v vs hl ht hvs ih =>
    obtain ⟨k, rfl⟩ := Nat.exists_eq_add_one_of_ne_zero (Nat.ne_zero_of_lt hn)
    rw [items, List.append_assoc, run_hasItem hl ht.begins]
    simp only [↓reduceIte]
    have hv : item.run (t ++ (ts ++ (ws ++ ']' :: r))) = .ok v (ts ++ (ws ++ ']' :: r)) :=
      ht.reads.run (hvs.ends hw (.inr (.inl rfl)) r)
    rw [run_bind_of_ok hv, run_bind_of_ok (ih (by simpa using hn))]
    rfl

theorem run_endList (r : List Char) : endList.run (']' :: r) = .ok () r := rfl

theorem reads_list (h : Joined (Item item) true ts vs) (hw : Blanks ws) :
    Reads (list item) ('[' :: ts ++ ws ++ [']']) (.list vs) := by
  intro ws' r hw' _
  have hn := h.length_le fun t v ht => ht.begins.ne_nil
  refine run_placed ?_
  simp only [List.cons_append, List.append_assoc, List.nil_append]
  rw [run_afterBlanks hw' (by decide)]
  simp only
  rw [run_skip_bind]
  have hitems : EStateM.run (do items item ((← get).length + 1) true) (ts ++ (ws ++ ']' :: r)) =
      .ok vs (']' :: r) := by
    rw [run_get_bind]
    exact run_items h (by rw [List.length_append]; omega) hw r
  rw [run_bind_of_ok (run_closing hitems (run_endList r))]
  rfl

theorem run_hasMember {lead : List Char} (hl : Leads first lead) (f : Bool → Read β) (r : List Char) :
    (hasMember first >>= f).run (lead ++ '"' :: r) = (f true).run ('"' :: r) := by
  refine run_bind_of_ok ?_ f
  unfold hasMember
  cases hl with
  | first _ hw =>
    rw [run_afterBlanks hw (by decide)]
    rfl
  | next ws ws' hw hw' =>
    rw [List.append_assoc, List.cons_append, run_afterBlanks hw (by decide)]
    split
    · contradiction
    · contradiction
    · rename_i h
      cases h
      simp only [Bool.false_eq_true, ↓reduceIte]
      rw [run_skip_bind, run_afterBlanks hw' (by decide)]
      rfl

theorem run_hasMember_end (first : Bool) (hw : Blanks ws) (f : Bool → Read β) (r : List Char) :
    (hasMember first >>= f).run (ws ++ '\x7d' :: r) = (f false).run ('\x7d' :: r) := by
  refine run_bind_of_ok ?_ f
  unfold hasMember
  rw [run_afterBlanks hw (by decide)]
  rfl

theorem run_colon (hw : Blanks ws) (f : Unit → Read β) (r : List Char) :
    (colon >>= f).run (ws ++ ':' :: r) = (f ()).run r := by
  refine run_bind_of_ok ?_ f
  unfold colon
  rw [run_afterBlanks hw (by decide)]
  rfl

theorem run_endObject (r : List Char) : endObject.run ('\x7d' :: r) = .ok () r := rfl

theorem lookup_of_mem {table : List (String × β)} {k : String} {b : β}
    (hd : (table.map (·.1)).Nodup) (h : (k, b) ∈ table) : table.lookup k = some b := by
  induction table with
  | nil => cases h
  | cons m table ih =>
    obtain ⟨hnew, hd⟩ := List.nodup_cons.1 hd
    rcases List.mem_cons.1 h with rfl | h
    · rw [List.lookup_cons, beq_self_eq_true]
    · have hne : k ≠ m.1 := fun he => hnew (List.mem_map.2 ⟨(k, b), h, he⟩)
      rw [List.lookup_cons, beq_false_of_ne hne]
      exact ih hd h

theorem mem_of_lookup {table : List (String × β)} {k : String} {b : β}
    (h : table.lookup k = some b) : (k, b) ∈ table := by
  obtain ⟨front, back, rfl, -⟩ := List.lookup_eq_some_iff.1 h
  exact List.mem_append_right front List.mem_cons_self

theorem lookup_of_perm {table table' : List (String × β)} (h : table.Perm table')
    (hd : (table.map (·.1)).Nodup) (k : String) : table.lookup k = table'.lookup k := by
  have hd' := ((h.map (·.1)).nodup_iff).1 hd
  ext b
  exact ⟨fun hb => lookup_of_mem hd' (h.mem_iff.1 (mem_of_lookup hb)),
    fun hb => lookup_of_mem hd (h.mem_iff.2 (mem_of_lookup hb))⟩

theorem lookup_isSome_iff {table : List (String × β)} {k : String} :
    (table.lookup k).isSome ↔ k ∈ table.map (·.1) := by
  simp [List.lookup_isSome_iff, List.mem_map]

section Record

variable {R : Record} {seen : List (String × Value)} {ms : List (Option (String × Value))} {key : List Char}
  {k : String}

/-- The text of a member: one with a known name and its value, or one to skip. -/
inductive Member (R : Record) : List Char → Option (String × Value) → Prop
  | known (key ws ws' t : List Char) (k : String) (v : Value) (field : Read Value) : Names key k →
      R.fields.lookup k = some field → Blanks ws → Blanks ws' → Reads field t v →
      Member R ('"' :: key ++ '"' :: (ws ++ ':' :: (ws' ++ t))) (some (k, v))
  | unknown (key ws ws' t : List Char) (k : String) : Names key k → R.fields.lookup k = none →
      Blanks ws → Blanks ws' → Reads skipValue t () →
      Member R ('"' :: key ++ '"' :: (ws ++ ':' :: (ws' ++ t))) none

theorem Member.ne_nil {t : List Char} {m : Option (String × Value)} (h : Member R t m) : t ≠ [] := by
  cases h <;> exact List.cons_ne_nil _ _

/-- The rest of a member and the members behind it, once its key is known. -/
def Record.afterKey (R : Record) (n : Nat) (seen : List (String × Value)) (k : String) :
    Read (List (String × Value)) :=
  match R.fields.lookup k with
  | some field =>
    if (seen.lookup k).isSome then failUnplaced (.duplicateField k)
    else do
      colon
      let v ← field
      R.members n false ((k, v) :: seen)
  | none => do
    colon
    skipValue
    R.members n false seen

theorem run_members_key {n : Nat} {lead : List Char} (hl : Leads first lead) (cs : List Char) :
    (R.members (n + 1) first seen).run (lead ++ '"' :: cs) = (string >>= R.afterKey n seen).run cs := by
  rw [Record.members, run_hasMember hl]
  rfl

theorem run_members_name {n : Nat} {lead : List Char} (hl : Leads first lead) (hkey : Names key k)
    (cs : List Char) : (R.members (n + 1) first seen).run (lead ++ '"' :: (key ++ '"' :: cs)) = (R.afterKey n seen k).run cs := by
  rw [run_members_key hl, run_bind_of_ok (hkey cs)]

theorem run_afterKey_known {n : Nat} {field : Read Value} (hk : R.fields.lookup k = some field)
    (hs : seen.lookup k = none) (hw : Blanks ws) (cs : List Char) :
    (R.afterKey n seen k).run (ws ++ ':' :: cs) =
      (field >>= fun v => R.members n false ((k, v) :: seen)).run cs := by
  unfold Record.afterKey
  simp only [hk, hs, Option.isSome_none, Bool.false_eq_true, ↓reduceIte]
  rw [run_colon hw]

theorem run_afterKey_unknown {n : Nat} (hk : R.fields.lookup k = none) (hw : Blanks ws) (cs : List Char) :
    (R.afterKey n seen k).run (ws ++ ':' :: cs) = (skipValue >>= fun _ => R.members n false seen).run cs := by
  unfold Record.afterKey
  simp only [hk]
  rw [run_colon hw]

/-- A member with a known name is read by the reader of its field, unless it has been seen; any other is skipped. -/
theorem run_member {lead t : List Char} {m : Option (String × Value)} {n : Nat} (hl : Leads first lead)
    (hm : Member R t m) (hs : ∀ p ∈ m, seen.lookup p.1 = none) (hr : Ends r) :
    (R.members (n + 1) first seen).run (lead ++ t ++ r) = (R.members n false (m.toList ++ seen)).run r := by
  cases hm with
  | known key ws ws' t k v field hkey hk hw hw' hv =>
    have hv : field.run (ws' ++ t ++ r) = .ok v r := hv ws' r hw' hr
    simp only [List.append_assoc, List.cons_append] at hv ⊢
    rw [run_members_name hl hkey, run_afterKey_known hk (hs _ rfl) hw, run_bind_of_ok hv]
    rfl
  | unknown key ws ws' t k hkey hk hw hw' hskip =>
    have hskip : skipValue.run (ws' ++ t ++ r) = .ok () r := hskip ws' r hw' hr
    simp only [List.append_assoc, List.cons_append] at hskip ⊢
    rw [run_members_name hl hkey, run_afterKey_unknown hk hw, run_bind_of_ok hskip]
    rfl

/-- Members are seen from the last one read to the first. -/
theorem run_members {n : Nat} (h : Joined (Member R) first ts ms) (hn : ms.length < n)
    (hd : (ms.reduceOption.map (·.1)).Nodup) (hs : ∀ m ∈ ms.reduceOption, seen.lookup m.1 = none)
    (hw : Blanks ws) (r : List Char) : (R.members n first seen).run (ts ++ (ws ++ '\x7d' :: r)) =
      .ok (ms.reduceOption.reverse ++ seen) ('\x7d' :: r) := by
  induction h generalizing n seen with
  | nil first =>
    obtain ⟨k, rfl⟩ := Nat.exists_eq_add_one_of_ne_zero (Nat.ne_zero_of_lt hn)
    exact run_hasMember_end first hw _ r
  | cons first lead t ts m ms hl hm hms ih =>
    obtain ⟨k, rfl⟩ := Nat.exists_eq_add_one_of_ne_zero (Nat.ne_zero_of_lt hn)
    have hk : ms.length < k := by simpa using hn
    have hends := hms.ends hw (.inr (.inr rfl)) r
    rw [List.append_assoc]
    cases m with
    | none =>
      rw [List.reduceOption_cons_of_none] at hd hs ⊢
      rw [run_member hl hm (by simp) hends, Option.toList_none, List.nil_append, ih hk hd hs]
    | some m =>
      rw [List.reduceOption_cons_of_some] at hd hs ⊢
      obtain ⟨hnew, hd⟩ := List.nodup_cons.1 hd
      rw [run_member hl hm (by simpa using hs m List.mem_cons_self) hends]
      rw [Option.toList_some, List.singleton_append, ih hk hd, List.reverse_cons, List.append_assoc]
      · rfl
      · intro m' hm'
        have hne : m'.1 ≠ m.1 := fun he => hnew (List.mem_map.2 ⟨m', hm', he⟩)
        rw [List.lookup_cons, beq_false_of_ne hne]
        exact hs m' (List.mem_cons_of_mem m hm')

/-- The fields that were seen, in the order of the record. -/
def Record.given (R : Record) (seen : List (String × Value)) : List (String × Value) :=
  R.fields.filterMap fun f => (seen.lookup f.1).map (f.1, ·)

theorem run_arrange (hs : ∀ f ∈ R.fields, R.partly ∨ f.1 ∈ seen.map (·.1)) (r : List Char) :
    (R.arrange seen).run r = .ok (R.given seen) r := by
  unfold Record.arrange
  split
  · rename_i name field h
    have hmissing := List.find?_some h
    rcases hs _ (List.mem_of_find?_eq_some h) with hp | hseen
    · simp [hp] at hmissing
    · rw [← lookup_isSome_iff] at hseen
      simp [Option.isNone_iff_eq_none.1 (Bool.and_eq_true_iff.1 hmissing).2] at hseen
  · rfl

/-- An object is read as the known members in it, whatever else it has. -/
theorem reads_record (h : Joined (Member R) true ts ms) (hd : (ms.reduceOption.map (·.1)).Nodup)
    (hs : ∀ f ∈ R.fields, R.partly ∨ f.1 ∈ ms.reduceOption.map (·.1)) (hw : Blanks ws) :
    Reads R.read ('\x7b' :: ts ++ ws ++ ['\x7d']) (.object (R.given ms.reduceOption)) := by
  intro ws' r hw' _
  have hn := h.length_le fun t m hm => hm.ne_nil
  have hperm : (ms.reduceOption.reverse ++ []).Perm ms.reduceOption := by
    rw [List.append_nil]
    exact List.reverse_perm _
  have hgiven : R.given (ms.reduceOption.reverse ++ []) = R.given ms.reduceOption := by
    have hd' := ((hperm.map (·.1)).nodup_iff).2 hd
    exact List.filterMap_congr fun f _ => by rw [lookup_of_perm hperm hd']
  refine run_placed ?_
  simp only [List.cons_append, List.append_assoc, List.nil_append]
  rw [run_afterBlanks hw' (by decide)]
  simp only
  rw [run_skip_bind]
  have hbody : EStateM.run (do R.arrange (← R.members ((← get).length + 1) true []))
      (ts ++ (ws ++ '\x7d' :: r)) = .ok (R.given ms.reduceOption) ('\x7d' :: r) := by
    have hm : (R.members ((ts ++ (ws ++ '\x7d' :: r)).length + 1) true []).run
        (ts ++ (ws ++ '\x7d' :: r)) = .ok (ms.reduceOption.reverse ++ []) ('\x7d' :: r) :=
      run_members h (by rw [List.length_append]; omega) hd (fun _ _ => rfl) hw r
    rw [run_get_bind, run_bind_of_ok hm, run_arrange, hgiven]
    intro f hf
    rw [(hperm.map (·.1)).mem_iff]
    exact hs f hf
  rw [run_bind_of_ok (run_closing hbody (run_endObject r))]
  rfl

/-- What has all fields in their order is arranged as it is. -/
theorem Record.given_of_complete {ms : List (String × Value)} (hf : ms.map (·.1) = R.fields.map (·.1))
    (hd : (ms.map (·.1)).Nodup) : R.given ms = ms := by
  calc R.fields.filterMap (fun f => (ms.lookup f.1).map (f.1, ·))
      = (R.fields.map (·.1)).filterMap fun name => (ms.lookup name).map (name, ·) := by
        rw [List.filterMap_map]
        rfl
    _ = ms.filterMap fun m => (ms.lookup m.1).map (m.1, ·) := by
        rw [← hf, List.filterMap_map]
        rfl
    _ = ms.filterMap some := List.filterMap_congr fun m hm => by
        rw [lookup_of_mem hd hm]
        rfl
    _ = ms := List.filterMap_some

end Record

/-- A known name is read wherever it stands, since it ends by itself. -/
theorem run_variantName {known : List String} {name : String} {t : List Char} (ht : Names t name)
    (hk : name ∈ known) (hw : Blanks ws) (r : List Char) :
    (variantName known).run (ws ++ '"' :: (t ++ '"' :: r)) = .ok name r := by
  refine run_placed ?_
  rw [run_afterBlanks hw (by decide)]
  simp only
  rw [run_skip_bind, run_bind_of_ok (ht r)]
  simp only [List.contains_iff_mem.2 hk, ↓reduceIte]
  rfl

section Variant

variable {known : List String} {alone member : String → Read Value} {name : String} {v : Value} {t : List Char}

theorem run_variant_alone (ht : Names t name) (hk : name ∈ known) (hw : Blanks ws) (r : List Char) :
    (variant known alone member).run (ws ++ '"' :: (t ++ '"' :: r)) = (alone name).run r := by
  have hname : (variantName known).run ('"' :: (t ++ '"' :: r)) = .ok name r := run_variantName ht hk blanks_nil r
  unfold variant
  rw [run_afterBlanks hw (by decide)]
  simp only
  rw [run_bind_of_ok hname]

theorem run_variant_member {ws₁ ws₂ ws₃ cs : List Char} (ht : Names t name) (hk : name ∈ known) (hw : Blanks ws)
    (h₁ : Blanks ws₁) (h₂ : Blanks ws₂) (h₃ : Blanks ws₃)
    (hm : (member name).run cs = .ok v (ws₃ ++ '\x7d' :: r)) :
    (variant known alone member).run
      (ws ++ '\x7b' :: (ws₁ ++ '"' :: (t ++ '"' :: (ws₂ ++ ':' :: cs)))) = .ok v r := by
  unfold variant
  rw [run_afterBlanks hw (by decide)]
  simp only
  rw [run_skip_bind, run_bind_of_ok (run_variantName ht hk h₁ _), run_colon h₂, run_bind_of_ok hm]
  rw [run_afterBlanks h₃ (by decide)]
  rfl

theorem reads_choice (ht : Names t name) (hk : name ∈ known) :
    Reads (choice known) ('"' :: t ++ ['"']) (.text name) := by
  intro ws r hw _
  simp only [List.append_assoc, List.cons_append, List.nil_append]
  exact run_variant_alone ht hk hw r

theorem reads_tagged {kinds : List (String × Read Value)} {p : Read Value}
    {ws₁ ws₂ ws₃ : List Char} (hk : kinds.lookup name = some p) (hw : Blanks ws) (h₁ : Blanks ws₁)
    (h₂ : Blanks ws₂) (h₃ : Blanks ws₃) (hv : Reads p t v) :
    Reads (tagged kinds)
      ('\x7b' :: (ws ++ (writeText name ++ (ws₁ ++ ':' :: (ws₂ ++ t)))) ++ ws₃ ++ ['\x7d'])
      (.object [(name, v)]) := by
  intro ws' r hw' _
  have hmem : name ∈ kinds.map (·.1) := List.mem_map.2 ⟨(name, p), mem_of_lookup hk, rfl⟩
  have hv : p.run (ws₂ ++ t ++ (ws₃ ++ '\x7d' :: r)) = .ok v (ws₃ ++ '\x7d' :: r) :=
    hv ws₂ _ h₂ (ends_of_blanks h₃ (.inr (.inr rfl)) r)
  simp only [writeText, List.cons_append, List.append_assoc, List.nil_append] at hv ⊢
  refine run_variant_member (string_written name) hmem hw' hw h₁ h₃ ?_
  simp only [hk]
  rw [run_bind_of_ok hv]
  rfl

end Variant

end FunctionSlice.Json
