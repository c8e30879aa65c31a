import FunctionSlice.Proofs.Json.Written

/-! What is written of the data is read back as the same data, whatever it holds. A configuration is read
back if it can be worked with, and is refused for its defect if not. -/

namespace FunctionSlice

open Json

theorem Width.faithful (w : Width) : Width.codec.Faithful w := by
  cases w <;> exact faithful_choice rfl

theorem Policy.faithful (p : Policy) : Policy.codec.Faithful p := by
  cases p <;> exact faithful_choice rfl

theorem Dialect.faithful (d : Dialect) : Dialect.codec.Faithful d := by
  cases d <;> exact faithful_choice rfl

theorem AddressBase.faithful (b : AddressBase) : AddressBase.codec.Faithful b := by
  cases b <;> exact faithful_choice rfl

theorem Query.faithful (q : Query) : Query.codec.Faithful q := by
  cases q with
  | byName s => exact ⟨recovers_tagged rfl (recovers_text s _), rfl⟩
  | byAddress a =>
    refine ⟨recovers_tagged rfl (recovers_word a _), ?_⟩
    change some (Query.byAddress (UInt64.ofNat a.toNat)) = _
    rw [UInt64.ofNat_toNat]

theorem Section.faithful (s : Section) : Section.codec.Faithful s where
  recovers := recovers_record (by decide)
    (.cons ⟨rfl, recovers_text _ _⟩ <| .cons ⟨rfl, recovers_word _ _⟩ <|
      .cons ⟨rfl, recovers_word _ _⟩ <| .cons ⟨rfl, recovers_word _ _⟩ .nil)
  decodes := by
    change some (Section.mk s.name (UInt64.ofNat s.virtualAddress.toNat)
      (UInt64.ofNat s.rawSize.toNat) (UInt64.ofNat s.rawOffset.toNat)) = _
    simp only [UInt64.ofNat_toNat]

theorem Window.faithful (w : Window) : Window.codec.Faithful w where
  recovers := recovers_record (by decide)
    (.cons ⟨rfl, recovers_word _ _⟩ <| .cons ⟨rfl, recovers_word _ _⟩ <|
      .cons ⟨rfl, recovers_word _ _⟩ <| .cons ⟨rfl, recovers_word _ _⟩ .nil)
  decodes := by
    change some (Window.mk (UInt64.ofNat w.rva.toNat) (UInt64.ofNat w.fileOffset.toNat)
      (UInt64.ofNat w.length.toNat) (UInt64.ofNat w.remaining.toNat)) = _
    simp only [UInt64.ofNat_toNat]

theorem Symbol.faithful (s : Symbol) : Symbol.codec.Faithful s where
  recovers := recovers_record (by decide)
    (.cons ⟨rfl, recovers_text _ _⟩ <| .cons ⟨rfl, recovers_word _ _⟩ .nil)
  decodes := by
    change some (Symbol.mk s.name (UInt64.ofNat s.rva.toNat)) = _
    rw [UInt64.ofNat_toNat]

theorem mapM_map_of_forall {α β : Type} {f : α → β} {g : β → Option α} (h : ∀ a, g (f a) = some a)
    (xs : List α) : (xs.map f).mapM g = some xs := by
  induction xs with
  | nil => rfl
  | cons x xs ih =>
    rw [List.map_cons, List.mapM_cons, h, ih]
    rfl

theorem Module.faithful (m : Module) : Module.codec.Faithful m where
  recovers := by
    have hs : Recovers (list Section.codec.reader) (.list (m.sections.map Section.codec.encode)) := by
      refine recovers_list _ fun v hv => ?_
      obtain ⟨s, -, rfl⟩ := List.mem_map.1 hv
      exact s.faithful.recovers
    exact recovers_record (by decide)
      (.cons ⟨rfl, recovers_text _ _⟩ <| .cons ⟨rfl, m.width.faithful.recovers⟩ <|
        .cons ⟨rfl, recovers_word _ _⟩ <| .cons ⟨rfl, hs⟩ .nil)
  decodes := by
    have hs := mapM_map_of_forall (fun s => (Section.faithful s).decodes) m.sections
    change (do
      let width ← Width.codec.decode (Width.codec.encode m.width)
      let sections ← (m.sections.map Section.codec.encode).mapM Section.codec.decode
      pure (Module.mk m.path width (UInt64.ofNat m.imageBase.toNat) sections)) = some m
    rw [m.width.faithful.decodes, hs, UInt64.ofNat_toNat]
    rfl

/-- The size of an instruction is a number of 64 bits; all else is as large as it is. -/
theorem Instruction.faithful {i : Instruction} (h : i.size < 0x1_0000_0000_0000_0000) :
    Instruction.codec.Faithful i where
  recovers := by
    have hb : Recovers (list byte) (bytesValue i.bytes) := by
      refine recovers_list _ fun v hv => ?_
      obtain ⟨b, -, rfl⟩ := List.mem_map.1 hv
      exact recovers_byte b
    exact recovers_record (by decide)
      (.cons ⟨rfl, recovers_word _ _⟩ <| .cons ⟨rfl, recovers_natural h (Nat.le_refl _) _⟩ <|
        .cons ⟨rfl, recovers_text _ _⟩ <| .cons ⟨rfl, recovers_text _ _⟩ <| .cons ⟨rfl, hb⟩ .nil)
  decodes := by
    have hb : (i.bytes.map fun b => Value.number b.toNat).mapM
        (fun v => v.number?.map UInt8.ofNat) = some i.bytes := by
      refine mapM_map_of_forall (fun b => ?_) i.bytes
      change some (UInt8.ofNat b.toNat) = some b
      rw [UInt8.ofNat_toNat]
    change (do
      let bytes ← (i.bytes.map fun b => Value.number b.toNat).mapM fun v => v.number?.map UInt8.ofNat
      pure (Instruction.mk (UInt64.ofNat i.address.toNat) i.size i.mnemonic i.operands bytes)) = some i
    rw [hb, UInt64.ofNat_toNat]
    rfl

theorem Config.faithful (c : Config) : Config.codec.Faithful c where
  recovers := recovers_record (by decide)
    (.cons ⟨rfl, recovers_word _ _⟩ <| .cons ⟨rfl, recovers_text _ _⟩ <|
      .cons ⟨rfl, c.policy.faithful.recovers⟩ <| .cons ⟨rfl, c.dialect.faithful.recovers⟩ <|
      .cons ⟨rfl, c.addressBase.faithful.recovers⟩ .nil)
  decodes := by
    change some (Config.mk (UInt64.ofNat c.maxWindow.toNat) c.codeSection
      ((Policy.codec.decode (Policy.codec.encode c.policy)).getD .legacy)
      ((Dialect.codec.decode (Dialect.codec.encode c.dialect)).getD .tight)
      ((AddressBase.codec.decode (AddressBase.codec.encode c.addressBase)).getD .relative)) = some c
    rw [c.policy.faithful.decodes, c.dialect.faithful.decodes, c.addressBase.faithful.decodes,
      UInt64.ofNat_toNat]
    rfl

/-- The compact text of a value is read back as that value. -/
theorem data_roundtrip (q : Query) (w : Width) (s : Section) (m : Module) (b : Window)
    (i : Instruction) (y : Symbol) :
    Query.codec.parse (Query.codec.write q) = .ok q ∧
      Width.codec.parse (Width.codec.write w) = .ok w ∧
      Section.codec.parse (Section.codec.write s) = .ok s ∧
      Module.codec.parse (Module.codec.write m) = .ok m ∧
      Window.codec.parse (Window.codec.write b) = .ok b ∧
      Symbol.codec.parse (Symbol.codec.write y) = .ok y ∧
      (i.size < 0x1_0000_0000_0000_0000 →
        Instruction.codec.parse (Instruction.codec.write i) = .ok i) :=
  ⟨q.faithful.parse_write, w.faithful.parse_write, s.faithful.parse_write, m.faithful.parse_write,
    b.faithful.parse_write, y.faithful.parse_write, fun h => (Instruction.faithful h).parse_write⟩

theorem data_roundtrip_longest_size :
    let i : Instruction := ⟨0, 0xffff_ffff_ffff_ffff, "say \"\\\" \x00\t", "😀, é", [0, 255]⟩
    i.size < 0x1_0000_0000_0000_0000 ∧
      Instruction.codec.parse (Instruction.codec.write i) = .ok i := by
  intro i
  have hi : i.size < 0x1_0000_0000_0000_0000 := by decide
  obtain ⟨-, -, -, -, -, -, h⟩ := data_roundtrip (.byName "") .bits32 ⟨"", 0, 0, 0⟩
    ⟨"", .bits64, 0, []⟩ ⟨0, 0, 0, 0⟩ i ⟨"", 0⟩
  exact ⟨hi, h hi⟩

namespace Config

theorem parse_write (c : Config) : parse c.write = c.validated := by
  have h : codec.parse c.write = .ok c := c.faithful.parse indented_onlyBlanks
  rw [parse, h]

theorem check_eq_ok_iff (c : Config) : c.check = .ok () ↔ 0 < c.maxWindow ∧ c.codeSection ≠ "" := by
  unfold check
  split
  · rename_i h
    simp [h]
  · rename_i h
    have hpos : 0 < c.maxWindow := UInt64.pos_iff_ne_zero.2 h
    split <;> simp_all

theorem check_of_validated {c d : Config} (h : c.validated = .ok d) : d.check = .ok () := by
  unfold validated at h
  cases hc : c.check with
  | ok =>
    rw [hc] at h
    cases h
    exact hc
  | error e =>
    rw [hc] at h
    cases h

theorem check_of_parse {t : String} {c : Config} (h : parse t = .ok c) : c.check = .ok () := by
  unfold parse at h
  split at h
  · exact check_of_validated h
  · cases h

end Config

/-- A configuration that can be worked with is read back from its text, any other is refused for its
defect, and what is read from any text can be worked with. -/
theorem config_roundtrip (c : Config) :
    (0 < c.maxWindow ∧ c.codeSection ≠ "" → Config.parse c.write = .ok c) ∧
      (¬(0 < c.maxWindow ∧ c.codeSection ≠ "") →
        ∃ d, c.check = .error d ∧ Config.parse c.write = .error (.badConfig d.message)) ∧
      ∀ t c', Config.parse t = .ok c' → c'.check = .ok () := by
  rw [← c.check_eq_ok_iff, c.parse_write]
  refine ⟨fun h => ?_, fun h => ?_, fun t c' h => Config.check_of_parse h⟩
  · rw [Config.validated, h]
  · cases hc : c.check with
    | ok => exact absurd hc h
    | error d => exact ⟨d, rfl, by rw [Config.validated, hc]⟩

theorem config_roundtrip_escapes :
    let c : Config := ⟨0xffff_ffff_ffff_ffff, "a\"b\\c\n\x00\x1f😀", .strict, .spaced, .absolute⟩
    (0 < c.maxWindow ∧ c.codeSection ≠ "") ∧ Config.parse c.write = .ok c ∧ c.check = .ok () ∧
      ∃ d, ({ c with maxWindow := 0 } : Config).check = .error d ∧
        Config.parse ({ c with maxWindow := 0 } : Config).write = .error (.badConfig d.message) := by
  intro c
  have hc : 0 < c.maxWindow ∧ c.codeSection ≠ "" := by decide
  obtain ⟨hread, -, hany⟩ := config_roundtrip c
  obtain ⟨-, hbad, -⟩ := config_roundtrip { c with maxWindow := 0 }
  exact ⟨hc, hread hc, hany _ _ (hread hc), hbad (by decide)⟩

end FunctionSlice
