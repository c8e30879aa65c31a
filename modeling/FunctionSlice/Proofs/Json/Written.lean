import FunctionSlice.Json.Data
import FunctionSlice.Proofs.Json.Parts
import Mathlib.Data.List.Forall2

/-! What is written of a value is read back as that value, by every reader that has a place for it and in
every layout that puts nothing but blanks between the words. -/

namespace FunctionSlice

namespace Json

/-- A layout opens its lines with blanks, and has a colon and blanks behind a key. -/
structure Layout.OnlyBlanks (l : Layout) : Prop where
  line : ∀ depth, Blanks (l.line depth)
  colon : ∃ ws, Blanks ws ∧ l.colon = ':' :: ws

theorem compact_onlyBlanks : compact.OnlyBlanks := ⟨fun _ => blanks_nil, [], blanks_nil, rfl⟩

theorem indented_onlyBlanks : indented.OnlyBlanks := by
  refine ⟨fun depth c hc => ?_, [' '], fun c hc => ?_, rfl⟩
  · rcases List.mem_cons.1 hc with rfl | hc
    · rfl
    · rw [List.eq_of_mem_replicate hc]
      rfl
  · rw [List.mem_singleton.1 hc]
    rfl

/-- The reader takes back what is written of the value, in whatever layout and at any depth. -/
def Recovers (p : Read Value) (v : Value) : Prop :=
  ∀ (l : Layout) (depth : Nat), l.OnlyBlanks → Reads p (v.write l depth) v

/-- The texts of parts after the first one, a separator before each. -/
def followed (sep : List Char) (parts : List (List Char)) : List Char := parts.flatMap (sep ++ ·)

theorem separated_cons (sep t : List Char) (ts : List (List Char)) :
    separated sep (t :: ts) = t ++ followed sep ts := by
  induction ts generalizing t with
  | nil => exact (List.append_nil t).symm
  | cons u ts ih =>
    rw [separated, ih u, followed, followed, List.flatMap_cons, List.append_assoc, List.append_assoc]
    · intro h
      cases h

theorem enclosed_cons (l : Layout) (depth : Nat) (first last : Char) (t : List Char)
    (ts : List (List Char)) : enclosed l depth first last (t :: ts) =
      first :: (l.line (depth + 1) ++ t ++ followed (',' :: l.line (depth + 1)) ts) ++ l.line depth ++
        [last] := by
  simp only [enclosed, List.isEmpty_cons, Bool.false_eq_true, ↓reduceIte, separated_cons,
    List.append_assoc, List.cons_append, List.nil_append]

theorem begins_enclosed (l : Layout) (depth : Nat) {first : Char} (last : Char)
    (parts : List (List Char)) (hb : isBlank first = false) (hf : first ≠ ']') :
    Begins (enclosed l depth first last parts) := by
  cases parts with
  | nil => exact ⟨first, [last], rfl, hb, hf⟩
  | cons t ts =>
    rw [enclosed_cons]
    exact ⟨first, _, rfl, hb, hf⟩

theorem begins_write (l : Layout) (depth : Nat) (v : Value) : Begins (v.write l depth) := by
  cases v with
  | null => exact ⟨'n', ['u', 'l', 'l'], rfl, by decide, by decide⟩
  | number n =>
    obtain ⟨d, ds, hds, hd⟩ := exists_toDigits_eq_cons n
    exact ⟨d, ds, hds, isBlank_of_isDigit hd, fun h => by subst h; cases hd⟩
  | text s => exact ⟨'"', _, rfl, by decide, by decide⟩
  | list items => exact begins_enclosed l depth ']' _ (by decide) (by decide)
  | object members => exact begins_enclosed l depth '\x7d' _ (by decide) (by decide)

section Joined

variable {β : Type} {part : List Char → β → Prop} {write : β → List Char} {bs : List β} {l : Layout}

theorem joined_followed (hl : l.OnlyBlanks) (depth : Nat) (h : ∀ b ∈ bs, part (write b) b) :
    Joined part false (followed (',' :: l.line depth) (bs.map write)) bs := by
  induction bs with
  | nil => exact .nil false
  | cons b bs ih =>
    have hbs := ih fun a ha => h a (List.mem_cons_of_mem b ha)
    exact .cons false _ _ _ b bs (.next [] _ blanks_nil (hl.line depth)) (h b List.mem_cons_self) hbs

/-- Between its ends an enclosed text has its parts one after another, and blanks behind them. -/
theorem enclosed_joined (hl : l.OnlyBlanks) (depth : Nat) (first last : Char)
    (h : ∀ b ∈ bs, part (write b) b) :
    ∃ ts ws, enclosed l depth first last (bs.map write) = first :: ts ++ ws ++ [last] ∧
      Joined part true ts bs ∧ Blanks ws := by
  cases bs with
  | nil => exact ⟨[], [], rfl, .nil true, blanks_nil⟩
  | cons b bs =>
    have hbs := joined_followed hl (depth + 1) fun a ha => h a (List.mem_cons_of_mem b ha)
    exact ⟨_, _, enclosed_cons l depth first last (write b) (bs.map write),
      .cons true _ _ _ b bs (.first _ (hl.line (depth + 1))) (h b List.mem_cons_self) hbs,
      hl.line depth⟩

end Joined

theorem writeItems_eq (l : Layout) (depth : Nat) (vs : List Value) :
    Value.writeItems l depth vs = vs.map (Value.write l depth) := by
  induction vs with
  | nil => rfl
  | cons v vs ih => rw [Value.writeItems, ih, List.map_cons]

def writeMember (l : Layout) (depth : Nat) (m : String × Value) : List Char :=
  writeText m.1 ++ l.colon ++ m.2.write l depth

theorem writeMembers_eq (l : Layout) (depth : Nat) (ms : List (String × Value)) :
    Value.writeMembers l depth ms = ms.map (writeMember l depth) := by
  induction ms with
  | nil => rfl
  | cons m ms ih =>
    rw [Value.writeMembers, ih, List.map_cons]
    rfl

theorem recovers_list {item : Read Value} (vs : List Value) (h : ∀ v ∈ vs, Recovers item v) :
    Recovers (list item) (.list vs) := by
  intro l depth hl
  have hv : ∀ v ∈ vs, Item item (v.write l (depth + 1)) v :=
    fun v hv => ⟨begins_write l (depth + 1) v, h v hv l (depth + 1) hl⟩
  obtain ⟨ts, ws, he, hts, hw⟩ := enclosed_joined hl depth '[' ']' hv
  rw [Value.write, writeItems_eq, he]
  exact reads_list hts hw

section Record

variable {R : Record} {ms : List (String × Value)}

theorem member_written {k : String} {v : Value} {field : Read Value} {l : Layout}
    (hk : R.fields.lookup k = some field) (hv : Recovers field v) (hl : l.OnlyBlanks) (depth : Nat) :
    Member R (writeMember l depth (k, v)) (some (k, v)) := by
  obtain ⟨ws, hw, hc⟩ := hl.colon
  have hm := Member.known _ [] ws _ k v field (string_written k) hk blanks_nil hw (hv l depth hl)
  simpa only [writeMember, writeText, hc, List.append_assoc, List.cons_append, List.nil_append] using hm

theorem matched {fields : List (String × Read Value)}
    (h : List.Forall₂ (fun f m => f.1 = m.1 ∧ Recovers f.2 m.2) fields ms) :
    ms.map (·.1) = fields.map (·.1) ∧
      ∀ m ∈ ms, ∃ field, (m.1, field) ∈ fields ∧ Recovers field m.2 := by
  induction h with
  | nil => exact ⟨rfl, nofun⟩
  | @cons f m fields ms hfm _ ih =>
    obtain ⟨k, field⟩ := f
    obtain ⟨rfl, hv⟩ := hfm
    refine ⟨congrArg (m.1 :: ·) ih.1, fun u hu => ?_⟩
    rcases List.mem_cons.1 hu with rfl | hu
    · exact ⟨field, List.mem_cons_self, hv⟩
    · obtain ⟨field', hmem, hv'⟩ := ih.2 u hu
      exact ⟨field', List.mem_cons_of_mem _ hmem, hv'⟩

/-- A record recovers what has its fields in order, if each reader recovers its own value. -/
theorem recovers_record (hd : (R.fields.map (·.1)).Nodup)
    (h : List.Forall₂ (fun f m => f.1 = m.1 ∧ Recovers f.2 m.2) R.fields ms) :
    Recovers R.read (.object ms) := by
  intro l depth hl
  obtain ⟨hf, hms⟩ := matched h
  have hm : ∀ m ∈ ms, Member R (writeMember l (depth + 1) m) (some m) := by
    intro m hm
    obtain ⟨field, hmem, hv⟩ := hms m hm
    exact member_written (lookup_of_mem hd hmem) hv hl (depth + 1)
  obtain ⟨ts, ws, he, hts, hw⟩ : ∃ ts ws, enclosed l depth '\x7b' '\x7d' (ms.map (writeMember l (depth + 1))) =
      '\x7b' :: ts ++ ws ++ ['\x7d'] ∧ Joined (fun t m => Member R t (some m)) true ts ms ∧ Blanks ws :=
    enclosed_joined hl depth '\x7b' '\x7d' hm
  have hall : (ms.map some).reduceOption = ms := by
    rw [List.reduceOption, List.filterMap_map]
    exact List.filterMap_some
  have hread := reads_record (hts.map fun _ _ _ ht => ht) (by rwa [hall, hf])
    (fun f hfm => .inr (by rw [hall, hf]; exact List.mem_map_of_mem hfm)) hw
  rw [hall, Record.given_of_complete hf (hf ▸ hd)] at hread
  rw [Value.write, writeMembers_eq, he]
  exact hread

end Record

theorem recovers_natural {n limit : Nat} (hn : n < limit) (hl : limit ≤ 0x1_0000_0000_0000_0000)
    (expected : String) : Recovers (natural limit expected) (.number n) :=
  fun _ _ _ => reads_natural hn hl expected

theorem recovers_word (w : Word) (expected : String) : Recovers (word expected) (.ofWord w) :=
  recovers_natural w.toNat_lt (Nat.le_refl _) expected

theorem recovers_byte (b : UInt8) : Recovers byte (.number b.toNat) :=
  recovers_natural b.toNat_lt (by decide) "u8"

theorem recovers_text (s expected : String) : Recovers (text expected) (.text s) :=
  fun _ _ _ => reads_text (string_written s) expected

theorem recovers_choice {known : List String} {name : String} (hk : name ∈ known) :
    Recovers (choice known) (.text name) :=
  fun _ _ _ => reads_choice (string_written name) hk

theorem recovers_tagged {kinds : List (String × Read Value)} {name : String} {p : Read Value}
    {v : Value} (hk : kinds.lookup name = some p) (hv : Recovers p v) :
    Recovers (tagged kinds) (.object [(name, v)]) := by
  intro l depth hl
  obtain ⟨ws, hw, hc⟩ := hl.colon
  have h := reads_tagged hk (hl.line (depth + 1)) blanks_nil hw (hl.line depth)
    (hv l (depth + 1) hl)
  rw [Value.write, Value.writeMembers, Value.writeMembers, enclosed_cons, hc]
  simpa only [followed, List.flatMap_nil, List.append_nil, List.nil_append, List.append_assoc,
    List.cons_append] using h

/-- A text that is taken from its start to its end, blanks apart, is parsed. -/
theorem parse_of_reads {p : Read Value} {ws t ws' : List Char} {v : Value} (h : Reads p t v) (hw : Blanks ws)
    (hw' : Blanks ws') : parse p (String.ofList (ws ++ t ++ ws')) = .ok v := by
  have hp : p.run (ws ++ t ++ ws') = .ok v ws' := h ws ws' hw (ends_blanks hw')
  have hwhole : (whole p).run (ws ++ t ++ ws') = .ok v [] := by
    rw [whole, run_bind_of_ok hp, run_afterBlanks_end hw']
    rfl
  rw [parse, String.toList_ofList, hwhole]

theorem Codec.parse_of_decode {α : Type} {c : Codec α} {s : String} {v : Value} {a : α}
    (hp : Json.parse c.reader s = .ok v) (hd : c.decode v = some a) : c.parse s = .ok a := by
  unfold Codec.parse
  rw [hp]
  simp only [bind, Except.bind, hd]
  rfl

/-- What is written of a value is read and understood as that value. -/
structure Codec.Faithful {α : Type} (c : Codec α) (a : α) : Prop where
  recovers : Recovers c.reader (c.encode a)
  decodes : c.decode (c.encode a) = some a

section Faithful

variable {α : Type} {c : Codec α} {a : α}

theorem Codec.Faithful.parse (h : c.Faithful a) {l : Layout} (hl : l.OnlyBlanks) :
    c.parse (String.ofList ((c.encode a).write l 0)) = .ok a := by
  have hp := parse_of_reads (h.recovers l 0 hl) blanks_nil blanks_nil
  rw [List.nil_append, List.append_nil] at hp
  exact Codec.parse_of_decode hp h.decodes

theorem Codec.Faithful.parse_write (h : c.Faithful a) : c.parse (c.write a) = .ok a :=
  h.parse compact_onlyBlanks

/-- A choice is faithful to what its names name. -/
theorem faithful_choice [DecidableEq α] {table : List (String × α)}
    (h : table.lookup (named table a) = some a) : (choiceCodec table).Faithful a where
  recovers := recovers_choice (List.mem_map.2 ⟨(named table a, a), mem_of_lookup h, rfl⟩)
  decodes := h

end Faithful

end Json

end FunctionSlice
