import FunctionSlice.Proofs.Json.Members
import FunctionSlice.Proofs.Json.RoundTrip
import Mathlib.Data.Finset.Basic

/-! A configuration may be written in part and among anything else: what is left out has its default, whatever the
order of the members, the blanks between the words and the escapes in the strings. -/

namespace FunctionSlice

namespace Json

/-- How a value may be written: a number in its digits, a string in any escapes that spell it. -/
inductive Spelled : Value → List Char → Prop
  | number (n : Nat) : Spelled (.number n) (Nat.toDigits 10 n)
  | text (t : List Char) (us : List CodeUnit) (s : String) : UnitsText t us → Spells us s.toList →
      Spelled (.text s) ('"' :: t ++ ['"'])

theorem reads_spelled_text {s : String} {t : List Char} (h : Spelled (.text s) t) (expected : String) :
    Reads (text expected) t (.text s) := by
  cases h with
  | text t us s hus hs => exact reads_text (names_of_spells hus hs) expected

theorem reads_spelled_choice {s : String} {t : List Char} {known : List String} (h : Spelled (.text s) t)
    (hs : s ∈ known) : Reads (choice known) t (.text s) := by
  cases h with
  | text t us s hus hspells => exact reads_choice (names_of_spells hus hspells) hs

end Json

namespace Config

open Json

inductive Field where
  | maxWindow
  | codeSection
  | policy
  | dialect
  | addressBase
  deriving DecidableEq

namespace Field

def all : List Field := [maxWindow, codeSection, policy, dialect, addressBase]

def key : Field → String
  | maxWindow => "max_window"
  | codeSection => "code_section"
  | policy => "boundary"
  | dialect => "backend"
  | addressBase => "address_base"

/-- The JSON value of the field. -/
def value : Field → Config → Value
  | maxWindow, c => .number c.maxWindow.toNat
  | codeSection, c => .text c.codeSection
  | policy, c => .text (named Policy.names c.policy)
  | dialect, c => .text (named Dialect.names c.dialect)
  | addressBase, c => .text (named AddressBase.names c.addressBase)

def reader : Field → Read Value
  | maxWindow => word "usize"
  | codeSection => aString
  | policy => Policy.codec.reader
  | dialect => Dialect.codec.reader
  | addressBase => AddressBase.codec.reader

end Field

/-- The configuration on these fields, and the defaults on the others. -/
def only (c : Config) (F : Finset Field) : Config where
  maxWindow := if .maxWindow ∈ F then c.maxWindow else ({} : Config).maxWindow
  codeSection := if .codeSection ∈ F then c.codeSection else ({} : Config).codeSection
  policy := if .policy ∈ F then c.policy else ({} : Config).policy
  dialect := if .dialect ∈ F then c.dialect else ({} : Config).dialect
  addressBase := if .addressBase ∈ F then c.addressBase else ({} : Config).addressBase

theorem check_only {c : Config} (h : c.check = .ok ()) (F : Finset Field) : (c.only F).check = .ok () := by
  rw [check_eq_ok_iff] at h ⊢
  obtain ⟨hw, hs⟩ := h
  constructor
  · change 0 < if Field.maxWindow ∈ F then c.maxWindow else 512
    split
    · exact hw
    · decide
  · change (if Field.codeSection ∈ F then c.codeSection else ".text") ≠ ""
    split
    · exact hs
    · decide

def record : Record := ⟨"SliceConfig", Field.all.map fun f => (f.key, f.reader), true⟩

theorem reader_eq : codec.reader = record.read := rfl

theorem lookup_record (f : Field) : record.fields.lookup f.key = some f.reader := by
  cases f <;> rfl

theorem exists_field {k : String} {reader : Read Value} (h : record.fields.lookup k = some reader) :
    ∃ f : Field, k = f.key ∧ reader = f.reader := by
  obtain ⟨f, -, hf⟩ := List.mem_map.1 (mem_of_lookup h)
  cases hf
  exact ⟨f, rfl, rfl⟩

/-- The values of the configuration by their keys. -/
def given (c : Config) (k : String) : Option Value := (Field.all.map fun f => (f.key, f.value c)).lookup k

theorem given_key (c : Config) (f : Field) : c.given f.key = some (f.value c) := by
  cases f <;> rfl

theorem given_of_unknown {k : String} (h : record.fields.lookup k = none) (c : Config) : c.given k = none := by
  cases hg : c.given k with
  | none => rfl
  | some v =>
    obtain ⟨f, -, hf⟩ := List.mem_map.1 (mem_of_lookup hg)
    cases hf
    rw [lookup_record] at h
    cases h

theorem reads_field {f : Field} {c : Config} {t : List Char} (h : Spelled (f.value c) t) :
    Reads f.reader t (f.value c) := by
  cases f with
  | maxWindow =>
    cases h with
    | number => exact reads_natural c.maxWindow.toNat_lt (Nat.le_refl _) _
  | codeSection => exact reads_spelled_text h _
  | policy => exact reads_spelled_choice h (by cases c.policy <;> decide)
  | dialect => exact reads_spelled_choice h (by cases c.dialect <;> decide)
  | addressBase => exact reads_spelled_choice h (by cases c.addressBase <;> decide)

theorem exact_field (f : Field) : Exact f.reader := by
  cases f with
  | maxWindow => exact exact_natural _ _
  | codeSection => exact exact_text _
  | policy => exact exact_choice _
  | dialect => exact exact_choice _
  | addressBase => exact exact_choice _

/-- A field that is decoded alike by the defaults and by what is given. -/
theorem getD_given {α : Type} {F : Finset Field} {f : Field} {c : Config} {decode : Value → Option α} {a : α}
    (h : decode (f.value c) = some a) (b : α) :
    ((if f ∈ F then some (f.value c) else none).bind decode).getD b = if f ∈ F then a else b := by
  split
  · rw [Option.bind_some, h, Option.getD_some]
  · rfl

theorem decode_given {c : Config} {F : Finset Field} {seen : List (String × Value)}
    (h : ∀ f : Field, seen.lookup f.key = if f ∈ F then some (f.value c) else none) :
    codec.decode (.object (record.given seen)) = some (c.only F) := by
  have hmember (f : Field) : (Value.object (record.given seen)).member? f.key =
      if f ∈ F then some (f.value c) else none := by
    rw [← h f]
    exact record.lookup_given seen (by cases f <;> decide)
  change some (Config.mk
    (((Value.object (record.given seen)).member? (Field.key .maxWindow)).bind Value.word? |>.getD 512)
    (((Value.object (record.given seen)).member? (Field.key .codeSection)).bind Value.text? |>.getD ".text")
    (((Value.object (record.given seen)).member? (Field.key .policy)).bind Policy.codec.decode |>.getD .legacy)
    (((Value.object (record.given seen)).member? (Field.key .dialect)).bind Dialect.codec.decode |>.getD .tight)
    (((Value.object (record.given seen)).member? (Field.key .addressBase)).bind AddressBase.codec.decode
      |>.getD .relative)) = _
  have hword : Value.word? (Field.value .maxWindow c) = some c.maxWindow := by
    change some (UInt64.ofNat c.maxWindow.toNat) = _
    rw [UInt64.ofNat_toNat]
  rw [hmember, hmember, hmember, hmember, hmember, getD_given hword, getD_given (a := c.codeSection) rfl,
    getD_given c.policy.faithful.decodes, getD_given c.dialect.faithful.decodes,
    getD_given c.addressBase.faithful.decodes]
  rfl

section Members

variable {c : Config} {F : Finset Field} {ts ws : List Char} {ms : List (Option String × List Char)}

theorem mem_keys_iff (hcount : ∀ f : Field, (ms.map (·.1)).count (some f.key) = if f ∈ F then 1 else 0)
    (f : Field) : some f.key ∈ ms.map (·.1) ↔ f ∈ F := by
  rw [← List.count_pos_iff, hcount f]
  split <;> simp_all

theorem reads_only (hts : Joined MemberText true ts ms) (hw : Blanks ws) (hnamed : none ∉ ms.map (·.1))
    (hcount : ∀ f : Field, (ms.map (·.1)).count (some f.key) = if f ∈ F then 1 else 0)
    (hspelled : ∀ f ∈ F, ∀ v, (some f.key, v) ∈ ms → Spelled (f.value c) v) :
    Reads record.read ('\x7b' :: ts ++ ws ++ ['\x7d'])
      (.object (record.given ((ms.map (·.1)).filterMap (valued c.given)))) := by
  refine reads_given hts hnamed (fun k hk => given_of_unknown hk c) (fun k reader hk => ?_) rfl hw
  obtain ⟨f, rfl, rfl⟩ := exists_field hk
  refine ⟨?_, fun v hv => ⟨_, given_key c f, reads_field (hspelled f ?_ v hv)⟩⟩
  · rw [hcount f]
    split <;> decide
  · exact (mem_keys_iff hcount f).1 (List.mem_map_of_mem hv)

theorem decode_only (hcount : ∀ f : Field, (ms.map (·.1)).count (some f.key) = if f ∈ F then 1 else 0) :
    codec.decode (.object (record.given ((ms.map (·.1)).filterMap (valued c.given)))) = some (c.only F) := by
  refine decode_given fun f => ?_
  rw [lookup_valued, given_key]
  exact if_congr (mem_keys_iff hcount f) rfl rfl

theorem fails_repeated {ws' : List Char} (hts : Joined MemberText true ts ms) (hw : Blanks ws) (hw' : Blanks ws')
    (h : (∃ f : Field, 2 ≤ (ms.map (·.1)).count (some f.key)) ∨ none ∈ ms.map (·.1)) (r : List Char) :
    Fails record.read (ws' ++ ('\x7b' :: ts ++ ws ++ ['\x7d']) ++ r) := by
  refine fails_record hts (fun k reader hk => ?_) ?_ hw hw' r
  · obtain ⟨f, rfl, rfl⟩ := exists_field hk
    exact exact_field f
  · rcases h with ⟨f, hf⟩ | hnone
    · refine .inr ⟨f.key, ?_, .inl (List.duplicate_iff_sublist.2 (List.replicate_sublist_iff.2 hf))⟩
      rw [lookup_record]
      rfl
    · obtain ⟨m, hm, hnone⟩ := List.mem_map.1 hnone
      exact .inl ⟨m, hm, .inl hnone⟩

end Members

/-- In an object whose keys all spell something, with each of some fields of a valid configuration once and with
its value, what else there is does not count: the fields are read, and the others have their defaults. An object
in which a field comes twice, or with a key that spells nothing, is refused. -/
theorem parse_partial {t : String} {ms : List (Option String × List Char)} (ht : ObjectText t.toList ms) :
    (∀ (c : Config) (F : Finset Field), c.check = .ok () → none ∉ ms.map (·.1) →
      (∀ f : Field, (ms.map (·.1)).count (some f.key) = if f ∈ F then 1 else 0) →
      (∀ f ∈ F, ∀ v, (some f.key, v) ∈ ms → Spelled (f.value c) v) → parse t = .ok (c.only F)) ∧
    ((∃ f : Field, 2 ≤ (ms.map (·.1)).count (some f.key)) ∨ none ∈ ms.map (·.1) →
      ∃ e, parse t = .error (.badConfig e)) := by
  generalize hcs : t.toList = cs at ht
  cases ht with
  | mk ws' ts ws r ms hw' hts hw hr =>
    refine ⟨fun c F hc hnamed hcount hspelled => ?_, fun hbad => ?_⟩
    · have hread := parse_of_reads (reads_only hts hw hnamed hcount hspelled) hw' hr
      rw [← hcs, String.ofList_toList, ← reader_eq] at hread
      unfold parse
      rw [Codec.parse_of_decode hread (decode_only hcount)]
      simp only [validated, check_only hc F]
    · have hfails := fails_repeated hts hw hw' hbad r
      rw [← hcs, ← reader_eq] at hfails
      obtain ⟨e, he⟩ := Codec.parse_of_fails (c := codec) hfails
      refine ⟨e, ?_⟩
      unfold parse
      rw [he]

theorem parse_partial_escaped :
    ObjectText "\x7b \"x\" : [0],\"\\u006dax_window\":4096\x7d".toList
        [(some "x", "[0]".toList), (some "max_window", "4096".toList)] ∧
      parse "\x7b \"x\" : [0],\"\\u006dax_window\":4096\x7d" = .ok ⟨4096, ".text", .legacy, .tight, .relative⟩ ∧
      ObjectText "\x7b\"backend\":0,\"backend\":0\x7d".toList [(some "backend", ['0']), (some "backend", ['0'])] ∧
      ∃ e, parse "\x7b\"backend\":0,\"backend\":0\x7d" = .error (.badConfig e) := by
  have hzero : Derives .value ['0'] := .number _ (.mk ['0'] [] [] .zero .absent .absent)
  have hblank : Blanks [' '] := by
    intro c hc
    cases List.mem_singleton.1 hc
    rfl
  have hpartial : ObjectText "\x7b \"x\" : [0],\"\\u006dax_window\":4096\x7d".toList
      [(some "x", "[0]".toList), (some "max_window", "4096".toList)] := by
    have hlist : Derives .value "[0]".toList :=
      .list _ (.item true [] ['0'] [']'] (.first [] blanks_nil) hzero (.listEnd false [] blanks_nil))
    have hx := MemberText.mk _ [' '] [' '] _ _ (keyText_plain (s := "x") (by simp)) hblank hblank hlist
    have hkey : KeyText "\\u006dax_window".toList (some "max_window") := by
      obtain ⟨us, hus, hs⟩ := exists_units_plain (t := "ax_window".toList) (by simp)
      have hm : Text.hexNumber? 0x1_0000 ['0', '0', '6', 'd'] = some 'm'.toNat := by decide
      have hunits := UnitsText.code ['0', '0', '6', 'd'] _ _ us rfl (Text.hexNumber?_eq_some_iff.1 hm).2.1 hus
      exact .spelled _ _ "max_window" hunits (.code 'm' us _ hs)
    have hnumber : Derives .value "4096".toList :=
      .number _ (.mk ['4', '0', '9', '6'] [] [] (.digits '4' _ (by decide) ⟨nofun, List.all_eq_true.1 rfl⟩)
        .absent .absent)
    have hwindow := MemberText.mk _ [] [] _ _ hkey blanks_nil blanks_nil hnumber
    have hjoined := Joined.cons true [' '] _ _ _ _ (.first _ hblank) hx
      (.cons false [','] _ _ _ _ (.next [] [] blanks_nil blanks_nil) hwindow (.nil false))
    exact .mk [] _ [] [] _ blanks_nil hjoined blanks_nil blanks_nil
  have htwice : ObjectText "\x7b\"backend\":0,\"backend\":0\x7d".toList
      [(some "backend", ['0']), (some "backend", ['0'])] := by
    have hkey := keyText_plain (s := "backend") (by simp)
    have hmember := MemberText.mk _ [] [] _ _ hkey blanks_nil blanks_nil hzero
    have hjoined := Joined.cons true [] _ _ _ _ (.first [] blanks_nil) hmember
      (.cons false [','] _ _ _ _ (.next [] [] blanks_nil blanks_nil) hmember (.nil false))
    exact .mk [] _ [] [] _ blanks_nil hjoined blanks_nil blanks_nil
  refine ⟨hpartial, ?_, htwice, (parse_partial htwice).2 (.inl ⟨.dialect, by decide⟩)⟩
  refine (parse_partial hpartial).1 ⟨4096, "code", .strict, .spaced, .absolute⟩ {.maxWindow} rfl (by decide) ?_ ?_
  · intro f
    cases f <;> decide
  · intro f hf v hv
    cases Finset.mem_singleton.1 hf
    have hdigits : Nat.toDigits 10 4096 = "4096".toList := by decide
    have hv : v = Nat.toDigits 10 4096 := by simpa [Field.key, hdigits] using hv
    rw [hv]
    exact .number 4096

/-- A key of a lone surrogate is grammatical and spells nothing, and a number with a fraction is no window, though a
whole one: both are refused. -/
theorem parse_grammatical_refused :
    (ObjectText "\x7b\"\\ud800\":0\x7d".toList [(none, ['0'])] ∧ (parse "\x7b\"\\ud800\":0\x7d").isOk = false) ∧
    ObjectText "\x7b\"max_window\":512.0\x7d".toList [(some "max_window", "512.0".toList)] ∧
      (parse "\x7b\"max_window\":512.0\x7d").isOk = false := by
  refine ⟨⟨?_, by decide +kernel⟩, ?_, by decide +kernel⟩
  · have hd : Text.hexNumber? 0x1_0000 ['d', '8', '0', '0'] = some 0xd800 := by decide
    have hunits : UnitsText "\\ud800".toList [.code 0xd800] :=
      .code ['d', '8', '0', '0'] [] 0xd800 [] rfl (Text.hexNumber?_eq_some_iff.1 hd).2.1 .nil
    have hnone : ∀ cs, ¬ Spells [.code 0xd800] cs := by
      intro cs h
      generalize hn : 0xd800 = n at h
      cases h with
      | code c =>
        have hc := toNat_valid c
        omega
    have hzero : Derives .value ['0'] := .number _ (.mk ['0'] [] [] .zero .absent .absent)
    have hmember := MemberText.mk _ [] [] ['0'] none (.unspelled _ _ hunits hnone) blanks_nil blanks_nil hzero
    have hjoined := Joined.cons true [] _ [] _ [] (.first [] blanks_nil) hmember (.nil false)
    exact .mk [] _ [] [] _ blanks_nil hjoined blanks_nil blanks_nil
  · have hkey : KeyText "max_window".toList (some "max_window") := keyText_plain (by simp)
    have hnumber : Derives .value "512.0".toList :=
      .number _ (.mk ['5', '1', '2'] ['.', '0'] [] (.digits '5' _ (by decide) ⟨nofun, List.all_eq_true.1 rfl⟩)
        (.digits ['0'] ⟨nofun, List.all_eq_true.1 rfl⟩) .absent)
    have hmember := MemberText.mk _ [] [] _ _ hkey blanks_nil blanks_nil hnumber
    have hjoined := Joined.cons true [] _ [] _ [] (.first [] blanks_nil) hmember (.nil false)
    exact .mk [] _ [] [] _ blanks_nil hjoined blanks_nil blanks_nil

end Config

end FunctionSlice
