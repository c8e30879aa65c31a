import FunctionSlice.Listing
import FunctionSlice.Proofs.Query

/-! A listing can be told from its text: the lines give back the address, the bytes and the text of each
instruction, and the last one the warning. -/

namespace FunctionSlice

variable {x y r s : List Char} {a : Char}

/-- A text is cut in one way at the first place of a character. -/
theorem append_cons_inj (hx : a ∉ x) (hy : a ∉ y) : x ++ a :: r = y ++ a :: s ↔ x = y ∧ r = s := by
  constructor
  · intro h
    induction x generalizing y with
    | nil =>
      cases y with
      | nil => exact ⟨rfl, (List.cons.inj h).2⟩
      | cons c y => exact absurd ((List.cons.inj h).1 ▸ List.mem_cons_self) hy
    | cons b x ih =>
      cases y with
      | nil => exact absurd ((List.cons.inj h).1 ▸ List.mem_cons_self) hx
      | cons c y =>
        rw [List.cons_append, List.cons_append, List.cons.injEq] at h
        obtain ⟨rfl, h⟩ := h
        obtain ⟨rfl, hr⟩ := ih (List.not_mem_of_not_mem_cons hx) (List.not_mem_of_not_mem_cons hy) h
        exact ⟨rfl, hr⟩
  · rintro ⟨rfl, rfl⟩
    rfl

namespace Text

variable {cs : List Char} {n m k : Nat}

theorem Writes.unique (hm : Writes cs m) (hn : Writes cs n) : m = n := by
  induction cs using List.reverseRecOn generalizing m n with
  | nil => rw [writes_nil.1 hm, writes_nil.1 hn]
  | append_singleton cs c ih =>
    obtain ⟨m', v, hm', hv, rfl⟩ := writes_concat.1 hm
    obtain ⟨n', w, hn', hw, rfl⟩ := writes_concat.1 hn
    have hvw : some v = some w := (hexValue?_eq_some_iff.2 hv).symm.trans (hexValue?_eq_some_iff.2 hw)
    rw [ih hm' hn', Option.some.inj hvw]

theorem Writes.zero_cons (h : Writes cs n) : Writes ('0' :: cs) n := by
  induction cs using List.reverseRecOn generalizing n with
  | nil => exact writes_concat.2 ⟨0, 0, writes_nil.2 rfl, ⟨by decide, .inl rfl⟩, writes_nil.1 h⟩
  | append_singleton cs c ih =>
    obtain ⟨m, v, hm, hv, rfl⟩ := writes_concat.1 h
    exact writes_concat.2 ⟨m, v, ih hm, hv, rfl⟩

/-- Zeros in front change no number. -/
theorem Writes.padLeft (h : Writes cs n) (width : Nat) : Writes (padLeft width '0' cs) n := by
  unfold Text.padLeft
  induction width - cs.length with
  | zero => exact h
  | succ k ih => exact ih.zero_cons

theorem toList_hexColumn (w : Word) :
    (hexColumn w).toList = '0' :: 'x' :: padLeft 8 '0' (hexDigits w.toNat) := by
  simp [hexColumn]

theorem writes_hexColumn (w : Word) : Writes (padLeft 8 '0' (hexDigits w.toNat)) w.toNat :=
  (writes_toDigits w.toNat).padLeft 8

theorem hexColumn_inj {v w : Word} (h : hexColumn v = hexColumn w) : v = w := by
  rw [← String.toList_inj, toList_hexColumn, toList_hexColumn, List.cons.injEq, List.cons.injEq] at h
  obtain ⟨-, -, h⟩ := h
  exact UInt64.toNat_inj.1 ((writes_hexColumn v).unique (h ▸ writes_hexColumn w))

/-- There is no other character in the column than `x` and digits. -/
theorem notMem_hexColumn (w : Word) {c : Char} (hx : c ≠ 'x') (hc : hexValue? c = none) :
    c ∉ (hexColumn w).toList := by
  have hdigit : ∀ v, ¬ IsHexDigit c v := by
    intro v hv
    rw [hexValue?_eq_some_iff.2 hv] at hc
    cases hc
  rw [toList_hexColumn]
  intro h
  rcases List.mem_cons.1 h with rfl | h
  · exact hdigit 0 (by decide)
  rcases List.mem_cons.1 h with h | h
  · exact hx h
  · obtain ⟨v, hv⟩ := (writes_hexColumn w).exists_digit c h
    exact hdigit v hv

theorem hexByte_inj {b c : UInt8} (h : hexByte b = hexByte c) : b = c := by
  have hdigit : ∀ k < 16, ∀ l < 16, Nat.digitChar k = Nat.digitChar l → k = l := by decide
  have hb := b.toNat_lt
  have hc := c.toNat_lt
  simp only [hexByte, List.cons.injEq, and_true] at h
  have hhigh := hdigit (b.toNat / 16) (by omega) (c.toNat / 16) (by omega) h.1
  have hlow := hdigit (b.toNat % 16) (by omega) (c.toNat % 16) (by omega) h.2
  exact UInt8.toNat_inj.1 (by omega)

theorem hexBytes_inj {bs cs : Bytes} (h : bs.flatMap hexByte = cs.flatMap hexByte) : bs = cs := by
  induction bs generalizing cs with
  | nil =>
    cases cs with
    | nil => rfl
    | cons c cs => cases h
  | cons b bs ih =>
    cases cs with
    | nil => cases h
    | cons c cs =>
      rw [List.flatMap_cons, List.flatMap_cons] at h
      obtain ⟨hbyte, h⟩ := List.append_inj h rfl
      rw [hexByte_inj hbyte, ih h]

theorem notMem_hexBytes (bs : Bytes) {c : Char} (hc : hexValue? c = none) : c ∉ bs.flatMap hexByte := by
  have hdigit : ∀ k < 16, hexValue? (Nat.digitChar k) = some k := by decide
  intro h
  obtain ⟨b, -, hb⟩ := List.mem_flatMap.1 h
  have hlt := b.toNat_lt
  rcases List.mem_cons.1 hb with rfl | hb
  · rw [hdigit _ (by omega)] at hc
    cases hc
  · rw [List.mem_singleton.1 hb, hdigit _ (by omega)] at hc
    cases hc

/-- Behind a padded column a blank is one more of its blanks. -/
theorem padRight_blank (width : Nat) (cs r : List Char) :
    padRight width ' ' cs ++ ' ' :: r = cs ++ ' ' :: (List.replicate (width - cs.length) ' ' ++ r) := by
  rw [padRight, List.append_assoc, ← List.cons_append, ← List.replicate_succ, List.replicate_succ',
    List.append_assoc, List.singleton_append]

/-- A padded column and what stands behind it can be told apart if there is no blank in the column. -/
theorem padRight_inj {width : Nat} {cs ds r s : List Char} (hc : ' ' ∉ cs) (hd : ' ' ∉ ds) :
    padRight width ' ' cs ++ ' ' :: r = padRight width ' ' ds ++ ' ' :: s ↔ cs = ds ∧ r = s := by
  rw [padRight_blank, padRight_blank, append_cons_inj hc hd]
  constructor
  · rintro ⟨rfl, h⟩
    exact ⟨rfl, List.append_cancel_left h⟩
  · rintro ⟨rfl, rfl⟩
    exact ⟨rfl, rfl⟩

end Text

open Text

namespace Instruction

/-- What is shown of an instruction. -/
structure Alike (i j : Instruction) : Prop where
  address : i.address = j.address
  bytes : i.bytes = j.bytes
  text : i.text = j.text

variable {i j : Instruction}

theorem toList_display (i : Instruction) : i.display.toList =
    (hexColumn i.address).toList ++ ':' :: ' ' ::
      (padRight 30 ' ' (i.bytes.flatMap hexByte) ++ ' ' :: i.text.toList) := by
  simp [display, hexBytes, String.toList_append]

theorem display_eq_iff : i.display = j.display ↔ Alike i j := by
  rw [← String.toList_inj, toList_display, toList_display,
    append_cons_inj (notMem_hexColumn _ (by decide) (by decide))
      (notMem_hexColumn _ (by decide) (by decide)), List.cons.injEq,
    padRight_inj (notMem_hexBytes _ (by decide)) (notMem_hexBytes _ (by decide)),
    String.toList_inj, String.toList_inj]
  constructor
  · rintro ⟨ha, -, hb, ht⟩
    exact ⟨hexColumn_inj ha, hexBytes_inj hb, ht⟩
  · rintro ⟨ha, hb, ht⟩
    exact ⟨by rw [ha], rfl, by rw [hb], ht⟩

/-- Nothing in the text of the instruction ends a line. -/
structure OneLine (i : Instruction) : Prop where
  mnemonic : '\n' ∉ i.mnemonic.toList
  operands : '\n' ∉ i.operands.toList

theorem OneLine.text (h : OneLine i) : '\n' ∉ i.text.toList := by
  unfold Instruction.text
  split
  · exact h.mnemonic
  · simp [String.toList_append, h.mnemonic, h.operands]

theorem OneLine.display (h : OneLine i) : '\n' ∉ i.display.toList := by
  have hcolumn := notMem_hexColumn i.address (c := '\n') (by decide) (by decide)
  have hbytes := notMem_hexBytes i.bytes (c := '\n') (by decide)
  simp [toList_display, padRight, hcolumn, hbytes, h.text]

theorem head?_display (i : Instruction) : i.display.toList.head? = some '0' := by
  rw [toList_display, toList_hexColumn]
  rfl

theorem forall₂_alike_iff {is js : List Instruction} :
    List.Forall₂ Alike is js ↔ is.map (·.display.toList) = js.map (·.display.toList) := by
  rw [← List.forall₂_eq_eq_eq, List.forall₂_map_left_iff, List.forall₂_map_right_iff]
  simp only [String.toList_inj, display_eq_iff]

end Instruction

theorem toString_inj {m n : Nat} (h : toString m = toString n) : m = n := by
  have hdigits : Nat.toDigits 10 m = Nat.toDigits 10 n := by
    rw [← Nat.toList_repr, ← Nat.toList_repr]
    exact congrArg String.toList h
  have hm : Nat.ofDigitChars 10 (Nat.toDigits 10 m) 0 = m := Nat.ofDigitChars_ten_toDigits
  rw [hdigits, Nat.ofDigitChars_ten_toDigits] at hm
  exact hm.symm

theorem Warning.message_inj {v w : Warning} (h : v.message = w.message) : v = w := by
  obtain ⟨m⟩ := v
  obtain ⟨n⟩ := w
  have hfront := (String.append_left_inj _).1 h
  exact congrArg truncated (toString_inj ((String.append_right_inj _).1 hfront))

/-- Lines that start with a zero end before what starts otherwise, and before nothing. -/
theorem lines_inj {xs ys : List (List Char)} {t u : List Char}
    (hx : ∀ l ∈ xs, '\n' ∉ l ∧ l.head? = some '0') (hy : ∀ l ∈ ys, '\n' ∉ l ∧ l.head? = some '0')
    (ht : t.head? ≠ some '0') (hu : u.head? ≠ some '0')
    (h : xs.flatMap (· ++ ['\n']) ++ t = ys.flatMap (· ++ ['\n']) ++ u) : xs = ys ∧ t = u := by
  have hhead {l r : List Char} (hl : l.head? = some '0') : (l ++ r).head? = some '0' := by
    rw [List.head?_append, hl, Option.some_or]
  induction xs generalizing ys with
  | nil =>
    cases ys with
    | nil => exact ⟨rfl, h⟩
    | cons l ys =>
      rw [List.flatMap_cons, List.append_assoc, List.append_assoc] at h
      exact absurd ((congrArg List.head? h).trans (hhead (hy l List.mem_cons_self).2)) ht
  | cons k xs ih =>
    obtain ⟨hk, hkhead⟩ := hx k List.mem_cons_self
    cases ys with
    | nil =>
      rw [List.flatMap_cons, List.append_assoc, List.append_assoc] at h
      exact absurd ((congrArg List.head? h.symm).trans (hhead hkhead)) hu
    | cons l ys =>
      simp only [List.flatMap_cons, List.append_assoc, List.singleton_append] at h
      obtain ⟨rfl, hrest⟩ := (append_cons_inj hk (hy l List.mem_cons_self).1).1 h
      obtain ⟨rfl, htu⟩ := ih (fun l hl => hx l (List.mem_cons_of_mem k hl))
        (fun l hl => hy l (List.mem_cons_of_mem k hl)) hrest
      exact ⟨rfl, htu⟩

namespace Listing

/-- The line of a warning. -/
def warningLine : Option Warning → String
  | some w => "; warning: " ++ w.message ++ "\n"
  | none => ""

theorem head?_warningLine (w : Option Warning) : (warningLine w).toList.head? = w.map fun _ => ';' := by
  cases w with
  | none => rfl
  | some w =>
    rw [warningLine, String.toList_append, String.toList_append, List.append_assoc]
    rfl

theorem warningLine_inj {v w : Option Warning} (h : warningLine v = warningLine w) : v = w := by
  have hhead : (v.map fun _ => ';') = w.map fun _ => ';' := by
    rw [← head?_warningLine, ← head?_warningLine, h]
  cases v with
  | none =>
    cases w with
    | none => rfl
    | some w => cases hhead
  | some v =>
    cases w with
    | none => cases hhead
    | some w =>
      have hmessage := (String.append_right_inj _).1 ((String.append_left_inj _).1 h)
      rw [Warning.message_inj hmessage]

theorem toList_display (l : Listing) : l.display.toList =
    (l.instructions.map (·.display.toList)).flatMap (· ++ ['\n']) ++ (warningLine l.warning).toList := by
  have hlines : (String.join (l.instructions.map (·.display ++ "\n"))).toList =
      (l.instructions.map (·.display.toList)).flatMap (· ++ ['\n']) := by
    simp [String.toList_join, List.flatMap_map, String.toList_append]
  rw [← hlines, ← String.toList_append]
  rfl

end Listing

/-- Texts of listings, in which no mnemonic and no operands hold a line feed, are equal where the instructions have
the same addresses, bytes and texts one by one, and the warnings are the same, and nowhere else. -/
theorem display_determines (k l : Listing) (hk : ∀ i ∈ k.instructions, i.OneLine)
    (hl : ∀ i ∈ l.instructions, i.OneLine) :
    k.display = l.display ↔
      List.Forall₂ Instruction.Alike k.instructions l.instructions ∧ k.warning = l.warning := by
  have hlines {l : Listing} (hl : ∀ i ∈ l.instructions, i.OneLine) :
      ∀ t ∈ l.instructions.map (·.display.toList), '\n' ∉ t ∧ t.head? = some '0' := by
    intro t ht
    obtain ⟨i, hi, rfl⟩ := List.mem_map.1 ht
    exact ⟨(hl i hi).display, i.head?_display⟩
  have hlast (w : Option Warning) : (Listing.warningLine w).toList.head? ≠ some '0' := by
    rw [Listing.head?_warningLine]
    cases w <;> simp
  rw [Instruction.forall₂_alike_iff, ← String.toList_inj, Listing.toList_display, Listing.toList_display]
  constructor
  · intro h
    obtain ⟨hsame, hwarning⟩ := lines_inj (hlines hk) (hlines hl) (hlast _) (hlast _) h
    exact ⟨hsame, Listing.warningLine_inj (String.toList_inj.1 hwarning)⟩
  · rintro ⟨hsame, hwarning⟩
    rw [hsame, hwarning]

/-- Where the mnemonic ends is not shown, nor how large the instruction is said to be. An encoding of sixteen bytes
is longer than its column. -/
theorem display_determines_ambiguous :
    let long : Bytes := List.replicate 16 0xc3
    let i : Instruction := ⟨0x1_0000_0000, 1, "repz ret", "", long⟩
    let j : Instruction := ⟨0x1_0000_0000, 16, "repz", "ret", long⟩
    let k : Listing := ⟨0, .bits32, 0, ⟨0, 0, 1, 1⟩, [i, j], some (.truncated 2)⟩
    let l : Listing := ⟨1, .bits64, 0, ⟨1, 0, 1, 1⟩, [j, i], some (.truncated 2)⟩
    (∀ i ∈ k.instructions, i.OneLine) ∧ (∀ i ∈ l.instructions, i.OneLine) ∧ k.display = l.display ∧
      List.Forall₂ Instruction.Alike k.instructions l.instructions := by
  intro long i j k l
  have hi : i.OneLine := ⟨by decide, by decide⟩
  have hj : j.OneLine := ⟨by decide, by decide⟩
  have hk : ∀ x ∈ k.instructions, x.OneLine := by simp [k, hi, hj]
  have hl : ∀ x ∈ l.instructions, x.OneLine := by simp [l, hi, hj]
  have hij : i.Alike j := ⟨rfl, rfl, rfl⟩
  have hdisplay : k.display = l.display :=
    (display_determines k l hk hl).2 ⟨.cons hij (.cons ⟨rfl, rfl, rfl⟩ .nil), rfl⟩
  exact ⟨hk, hl, hdisplay, ((display_determines k l hk hl).1 hdisplay).1⟩

end FunctionSlice
