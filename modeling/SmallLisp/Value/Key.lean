-- Which values can name something in a table. Only symbols are ever found there, but a value
-- that its host may change, or a tuple that holds one, is refused before any search.
import SmallLisp.Value

namespace SmallLisp

/-- Why a value is refused as a name. -/
inductive Unkeyable where
  | list
  | mapping
  | set
  | signallingNaN
  deriving DecidableEq, Repr

namespace Value

mutual
/-- The first reason to refuse the value as a name, searching round brackets from the left. -/
def unkeyable? : Value → Option Unkeyable
  | .list .square _ => some .list
  | .list .round items => anyUnkeyable? items
  | .host .mapping _ => some .mapping
  | .host .set _ => some .set
  | .number n => if n.isSignalling then some .signallingNaN else none
  | _ => none
termination_by structural v => v

def anyUnkeyable? : List Value → Option Unkeyable
  | [] => none
  | v :: vs => (unkeyable? v).or (anyUnkeyable? vs)
termination_by structural vs => vs
end

end Value

end SmallLisp
