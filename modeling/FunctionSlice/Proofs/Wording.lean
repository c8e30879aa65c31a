import FunctionSlice.Library
import FunctionSlice.Proofs.LastWord

/-! How libraries write returns and other instructions. An instruction is written as its prefixes and then
its name, and the first of its bytes that is no prefix tells whether it is a return. What is relied on of a
library is stated of its words; that its readings are taken for returns where they are is a consequence, for
the tight library by way of the word that its reader puts in. -/

namespace FunctionSlice

namespace X86

/-- The near returns, the returns to another segment and the return from an interrupt, among the opcodes of
one byte. -/
def returnOpcodes : List Nat := [0xc2, 0xc3, 0xca, 0xcb, 0xcf]

def returnNames (n : Nat) : List String :=
  if n = 0xc2 ∨ n = 0xc3 then ["ret"]
  else if n = 0xca ∨ n = 0xcb then ["retf", "retfq"]
  else ["iret", "iretd", "iretq"]

/-- A legacy prefix, or a REX prefix in 64-bit code. -/
def isPrefix (w : Width) (n : Nat) : Bool :=
  [0x66, 0x67, 0xf0, 0xf2, 0xf3, 0x26, 0x2e, 0x36, 0x3e, 0x64, 0x65].contains n ||
    (w = .bits64 && 0x40 ≤ n && n < 0x50)

/-- The first byte that is no prefix. -/
def opcode? (w : Width) (bs : Bytes) : Option Nat :=
  ((bs.dropWhile fun b => isPrefix w b.toNat).head?).map (·.toNat)

/-- The opcode is one of the five for returns. -/
def opensReturn (w : Width) (bs : Bytes) : Bool := (opcode? w bs).any (· ∈ returnOpcodes)

theorem opensReturn_iff {w : Width} {bs : Bytes} :
    opensReturn w bs ↔ ∃ n ∈ returnOpcodes, opcode? w bs = some n := by
  rw [opensReturn, Option.any_eq_true]
  constructor
  · rintro ⟨n, hn, hmem⟩
    exact ⟨n, of_decide_eq_true hmem, hn⟩
  · rintro ⟨n, hmem, hn⟩
    exact ⟨n, hn, decide_eq_true hmem⟩

end X86

open X86 Instruction

/-- The name, alone or behind other words. -/
def EndsIn (name text : String) : Prop := text = name ∨ ∃ before, text = before ++ " " ++ name

/-- A word in small letters that is no name for a return. -/
def isOtherWord (t : List Char) : Bool :=
  t.all (!·.isUpper) && !returnMnemonics.contains (String.ofList t)

namespace Finding

/-- What is told of an instruction with the bytes `own` fits its opcode. For a return by one of the opcodes
`named` it ends in a name for it, and no word of what is no return is one. -/
structure Fits (named : List Nat) (w : Width) (own : Bytes) (f : Finding) : Prop where
  name : ∀ n ∈ named, opcode? w own = some n → ∃ s ∈ returnNames n, EndsIn s f.words
  other : (∀ n ∈ returnOpcodes, opcode? w own ≠ some n) →
    ∀ t ∈ Text.words f.words.toList, isOtherWord t

/-- The tight library marks the returns to another segment, and their words can be any. -/
structure Tight (w : Width) (own : Bytes) (f : Finding) : Prop
    extends f.Fits [0xc2, 0xc3, 0xcf] w own where
  far : f.far ↔ opcode? w own = some 0xca ∨ opcode? w own = some 0xcb

end Finding

namespace Library

/-- What is relied on of the tight library. -/
def IsTight (find : Library) : Prop :=
  ∀ w a bs f, find w a bs = some f → f.Tight w (bs.take f.size)

/-- What is relied on of the spaced library. -/
def IsSpaced (find : Library) : Prop :=
  ∀ w a bs f, find w a bs = some f → f.Fits returnOpcodes w (bs.take f.size)

end Library

theorem lastWord_of_endsIn {name text : String} (h : EndsIn name text) (hne : name.toList ≠ [])
    (hs : ∀ c ∈ name.toList, ¬ Text.isBlank c) : Text.LastWord text.toList name.toList := by
  rcases h with rfl | ⟨before, rfl⟩
  · have := Text.LastWord.at [] text.toList [] (by simp) hne hs (by simp)
    simpa using this
  · have := Text.LastWord.at (before.toList ++ [' ']) name.toList [] (by simp; decide) hne hs (by simp)
    simpa [String.toList_append] using this

theorem endsInReturn_of_endsIn {name text : String} (hn : name ∈ returnMnemonics)
    (h : EndsIn name text) : endsInReturn text := by
  have hall : ∀ s ∈ returnMnemonics, s.toList ≠ [] ∧ s.toList.all (!Text.isBlank ·) ∧
      isReturnWord s.toList := by
    decide
  obtain ⟨hne, hs, hr⟩ := hall name hn
  have hs : ∀ c ∈ name.toList, ¬ Text.isBlank c := by simpa using hs
  rw [endsInReturn, (lastWord_of_endsIn h hne hs).getLast?_words]
  exact hr

theorem not_isReturnWord_of_other {t : List Char} (h : isOtherWord t) : ¬ isReturnWord t := by
  obtain ⟨hsmall, hnot⟩ := Bool.and_eq_true_iff.1 h
  have hlow : t.map Char.toLower = t := by
    refine (List.map_congr_left fun c hc => toLower_of_not_isUpper ?_).trans (List.map_id t)
    simpa using List.all_eq_true.1 hsmall c hc
  rw [isReturnWord_iff, hlow]
  rintro ⟨n, hn, rfl⟩
  simp [hn] at hnot

theorem not_endsInReturn_of_others {text : String}
    (h : ∀ t ∈ Text.words text.toList, isOtherWord t) : ¬ endsInReturn text := by
  rw [endsInReturn, Option.any_eq_true]
  rintro ⟨t, ht, hr⟩
  exact not_isReturnWord_of_other (h t (List.mem_of_getLast? ht)) hr

theorem mem_returnMnemonics_of_returnNames {n : Nat} : ∀ s ∈ returnNames n, s ∈ returnMnemonics := by
  unfold returnNames
  split
  · decide
  · split <;> decide

namespace Finding

variable {f : Finding} {w : Width} {own : Bytes}

theorem Fits.endsInReturn_words {named : List Nat} (h : f.Fits named w own)
    (hn : ∀ n ∈ returnOpcodes, opcode? w own = some n → n ∈ named) :
    endsInReturn f.words = opensReturn w own := by
  rw [Bool.eq_iff_iff, opensReturn_iff]
  constructor
  · intro hr
    refine Classical.byContradiction fun hnot => ?_
    exact not_endsInReturn_of_others (h.other fun n hn ho => hnot ⟨n, hn, ho⟩) hr
  · rintro ⟨n, hmem, ho⟩
    obtain ⟨s, hs, hend⟩ := h.name n (hn n hmem ho) ho
    exact endsInReturn_of_endsIn (mem_returnMnemonics_of_returnNames s hs) hend

theorem Fits.endsInReturn_spaced (h : f.Fits returnOpcodes w own) :
    endsInReturn (f.mnemonic .spaced) = opensReturn w own :=
  h.endsInReturn_words fun _ hn _ => hn

/-- The word put in for a return to another segment is a name for one. -/
theorem Tight.endsInReturn_tight (h : f.Tight w own) :
    endsInReturn (f.mnemonic .tight) = opensReturn w own := by
  by_cases hf : f.far
  · have ho : opensReturn w own := by
      rw [opensReturn_iff]
      rcases h.far.1 hf with ho | ho
      · exact ⟨0xca, by decide, ho⟩
      · exact ⟨0xcb, by decide, ho⟩
    rw [ho, mnemonic, farReturn?, if_pos hf, Option.getD_some]
    split <;> decide
  · rw [mnemonic, farReturn?, if_neg hf, Option.getD_none]
    refine h.endsInReturn_words fun n hn ho => ?_
    obtain ⟨hca, hcb⟩ := not_or.1 (mt h.far.2 hf)
    have hne : n ≠ 0xca ∧ n ≠ 0xcb := ⟨fun h => hca (h ▸ ho), fun h => hcb (h ▸ ho)⟩
    revert hne hn
    simp only [returnOpcodes, List.mem_cons, List.not_mem_nil, or_false]
    omega

end Finding

end FunctionSlice
