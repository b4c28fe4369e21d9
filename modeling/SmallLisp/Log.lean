-- The log: the part of a trail that a host can listen to, as records of text. Evaluations show
-- only if the machine that makes them traces; look-ups and assignments never show. Records are
-- put into words by whoever listens and outside of the run, so no wording can make a run fail.
import SmallLisp.Run

namespace SmallLisp

/-- The part of the system that a record comes from. -/
inductive LogSource where
  | registry
  | interpreter
  | evaluator
  | closure
  deriving DecidableEq, Repr

/-- One line of the log. -/
structure LogRecord where
  source : LogSource
  text : String
  deriving DecidableEq, Repr

/-- A registry with its names in order. -/
def Registry.text (r : Registry) : String :=
  let pairs := r.aliases.entries.map fun (name, target) => quoted name ++ ": " ++ quoted target
  "operations=[" ++ commaSeparated (r.names.map quoted) ++ "] aliases=\x7b" ++
    commaSeparated pairs ++ "\x7d"

/-- A new closure by the shape it has. -/
def Closure.shapeText (c : Closure Value) : String :=
  "params=(" ++ commaSeparated c.params ++ "), body_forms=" ++ digitText c.body.length ++
    ", env_id=" ++ digitText c.scope

/-- The record of an event, if it shows. -/
def Event.record? (traces : Nat → Bool) : Event → Option LogRecord
  | registryBuilt registry => some ⟨.registry, "OperationRegistry built: " ++ registry.text⟩
  | programGiven program => some ⟨.interpreter, "Evaluating program: " ++ program.text⟩
  | evaluated machine node scope =>
    if traces machine then
      some ⟨.evaluator, "eval " ++ node.text ++ " in env " ++ digitText scope⟩
    else none
  | closureMade c => some ⟨.closure, "Closure created: " ++ c.shapeText⟩
  | closureCalled c arguments =>
    some ⟨.closure, "Closure invoked: " ++ c.text ++ " with " ++ listText arguments⟩
  | dispatched _ | assigned .. => none

/-- The log of a trail, in order. -/
def logOf (traces : Nat → Bool) (trail : Array Event) : List LogRecord :=
  trail.toList.filterMap (Event.record? traces)

end SmallLisp
