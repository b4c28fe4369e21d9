-- The printed form of frames: the bindings of one frame, or of a whole chain, innermost first.
import SmallLisp.Store
import SmallLisp.Value.Printer

namespace SmallLisp

namespace Table

/-- Bindings in braces, names bare. -/
def text (t : Table Value) : String :=
  "\x7b" ++ commaSeparated (t.entries.map fun (name, value) => name ++ ": " ++ value.text) ++ "\x7d"

/-- The host is ready to write all bound values. -/
def isWritable (t : Table Value) : Bool := t.entries.all fun (_, value) => value.isWritable

end Table

namespace Store

/-- A frame by itself, with a mark if it lies inside another. -/
def frameText (s : Store) (n : Nat) : String :=
  (s.bindings n).text ++ if (s.outer n).isSome then " -> ..." else ""

/-- The chain of a frame. -/
def chainText (s : Store) (n : Nat) : String :=
  "<Environment chain: " ++ " -> ".intercalate ((s.chain n).map fun f => (s.bindings f).text) ++ ">"

/-- The host is ready to write the chain of a frame. -/
def writesChain (s : Store) (n : Nat) : Bool := (s.chain n).all fun f => (s.bindings f).isWritable

end Store

end SmallLisp
