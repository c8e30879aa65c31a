import FunctionSlice.Image.Blueprint

/-! What is written as a record is read back from it: numbers at their places, rows of a table, strings that
end with a zero byte. -/

namespace FunctionSlice.Binary

@[simp] theorem length_little (size n : Nat) : (little size n).length = size := by
  induction size generalizing n with
  | zero => rfl
  | succ size ih => rw [little, List.length_cons, ih]

/-- How many bytes the fields take up. -/
def recordSize (fs : List (Nat × Nat)) : Nat := fs.foldr (fun f n => f.1 + n) 0

@[simp] theorem length_record (fs : List (Nat × Nat)) : (record fs).length = recordSize fs := by
  induction fs with
  | nil => rfl
  | cons f fs ih =>
    change (little f.1 f.2 ++ record fs).length = f.1 + recordSize fs
    rw [List.length_append, length_little, ih]

/-- Only the sizes of the fields matter to it. -/
theorem recordSize_congr {fs gs : List (Nat × Nat)} (h : fs.map (·.1) = gs.map (·.1)) :
    recordSize fs = recordSize gs := by
  have hmap (fs : List (Nat × Nat)) : recordSize fs = (fs.map (·.1)).foldr (· + ·) 0 := by
    rw [List.foldr_map]
    rfl
  rw [hmap, hmap, h]

end FunctionSlice.Binary
