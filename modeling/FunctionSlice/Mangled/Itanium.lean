import FunctionSlice.Mangled.Itanium.Grammar
import FunctionSlice.Mangled.Itanium.Render

/-! Symbols of C++ compilers other than Microsoft's: a symbol is read whole and written as C++. -/

namespace FunctionSlice.Mangled.Itanium

def demangle? (cs : List Char) : Option (List Char) := (parse? cs).bind Node.render?

end FunctionSlice.Mangled.Itanium
