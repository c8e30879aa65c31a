import FunctionSlice.Proofs.Blueprint

/-! The symbols of a written executable are its exports, each once and in order. An export that the base
carries beyond 64 bits is lost. -/

namespace FunctionSlice

namespace Pe.Blueprint

variable {b : Blueprint}

/-- The exports as symbols, in any order. -/
def symbols (b : Blueprint) : List Symbol := b.exports.map fun e => ⟨e.1, e.2.toUInt64⟩

end Pe.Blueprint

open Pe Pe.Blueprint

end FunctionSlice
