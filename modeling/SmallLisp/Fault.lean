-- The faults of a program and of its host, each a cause with the values that show it, and the
-- one wording that each cause has. A fault is put in words when it is raised; where its wording
-- shows a number that the host does not write, the host's refusal is raised in place of it.
import SmallLisp.Builtin
import SmallLisp.Value.Key
import SmallLisp.Value.Printer

namespace SmallLisp

/-- The cause for which a step fails. -/
inductive Fault where
  /-- The node is a value of the host that is no program node. -/
  | notANode (node : Value)
  /-- A built-in with a fixed number of arguments got another number of them, or `lambda` none. -/
  | argumentCount (operation : Builtin)
  /-- The parameters of a `lambda` are neither empty nor a list. -/
  | parametersNotList (value : Value)
  /-- A parameter of a `lambda` is no symbol. -/
  | parameterNotSymbol (value : Value)
  /-- A closure got another number of arguments than it has parameters. -/
  | callCount (required given : Nat)
  /-- Only a symbol can be bound in a frame. -/
  | undefinable (name : Value)
  /-- Only a symbol can be assigned to. -/
  | unassignable (name : Value)
  /-- The argument of `car` or `cdr` is no list. -/
  | notAList (operation : Builtin) (value : Value)
  /-- A summand is no number. -/
  | notANumber (value : Value)
  /-- A number and the sum so far have no sum. -/
  | sum (cause : SumFault) (value total : Number)
  /-- A signalling NaN is compared. -/
  | undecided
  /-- The operator names no operation. -/
  | undefinedOperation (operator : Value)
  /-- An alias of a registry stands for no operation of it. -/
  | unknownTarget (name target : String)
  /-- The value cannot be looked up as a name. -/
  | unkeyable (cause : Unkeyable)
  /-- A parameter of a closure that its host builds is no text. -/
  | parameterNotText (index : Nat) (value : Value)

namespace Fault

/-- What a caller tells faults apart by. -/
inductive Kind where
  | invalidArgument
  | invalidResult
  | undefinedOperation
  | tooLarge
  | decimalInvalid
  | decimalOverflow
  | badValue
  | badType
  deriving DecidableEq, Repr

/-- The language itself reports these kinds; the others come from below it. -/
def Kind.isReported : Kind → Bool
  | invalidArgument | invalidResult | undefinedOperation => true
  | _ => false

/-- The kind of a fault that can be put in words. -/
def intended : Fault → Kind
  | notANode _ | argumentCount _ | parametersNotList _ | parameterNotSymbol _ | callCount ..
  | undefinable _ => .invalidArgument
  | unassignable _ | notAList .. | notANumber _ | sum .unaddable .. => .invalidResult
  | undefinedOperation _ => .undefinedOperation
  | sum .integerTooLarge .. | sum .fractionTooLarge .. => .tooLarge
  | sum .decimalInvalid .. | undecided => .decimalInvalid
  | sum .decimalOverflow .. => .decimalOverflow
  | unknownTarget .. => .badValue
  | unkeyable _ | parameterNotText .. => .badType

/-- What a built-in says about a wrong number of arguments. -/
def argumentCountMessage : Builtin → String
  | .car => "car requires a single argument"
  | .cdr => "cdr requires a single argument"
  | .quote => "quote expects exactly 1 argument"
  | .cons => "cons requires two arguments"
  | .choose => "if requires a condition, a then-expression and an else-expression"
  | .assign => "set requires exactly 2 arguments: (set name value)"
  | .equal => "equal requires two arguments"
  | .lambda => "lambda requires at least a parameter list"
  | .add => "+ takes any number of arguments"

/-- What is said about an undefined decimal operation. -/
def decimalInvalidMessage : String := "[<class 'decimal.InvalidOperation'>]"

/-- What is said about two numbers that have no sum. -/
def sumMessage (cause : SumFault) (value total : Number) : String :=
  match cause with
  | .unaddable => "+ cannot add " ++ value.text ++ " to " ++ total.text
  | .integerTooLarge => "int too large to convert to float"
  | .fractionTooLarge => "integer division result too large for a float"
  | .decimalInvalid => decimalInvalidMessage
  | .decimalOverflow => "[<class 'decimal.Overflow'>]"

/-- What is said about a value that cannot be a name. -/
def unkeyableMessage : Unkeyable → String
  | .list => "unhashable type: 'list'"
  | .mapping => "unhashable type: 'dict'"
  | .set => "unhashable type: 'set'"
  | .signallingNaN => "Cannot hash a signaling NaN value"

/-- The wording of a fault. -/
def wording : Fault → String
  | notANode node => "Cannot evaluate " ++ node.text ++ ": not a program node"
  | argumentCount operation => argumentCountMessage operation
  | parametersNotList value => "lambda parameters must be a list, got " ++ value.text
  | parameterNotSymbol value => "lambda parameter must be a symbol, got " ++ value.text
  | callCount required given =>
    "lambda parameter count mismatch: requires " ++ digitText required ++ ", got " ++
      digitText given
  | undefinable name => "Cannot define " ++ name.text ++ " as a symbol"
  | unassignable name => "Cannot set " ++ name.text ++ ": name must evaluate to a symbol"
  | notAList operation value =>
    operation.name ++ " argument evaluated to non-list: " ++ value.text
  | notANumber value => "+ argument evaluated to non-number: " ++ value.text
  | sum cause value total => sumMessage cause value total
  | undecided => decimalInvalidMessage
  | undefinedOperation operator => "Undefined operation: " ++ operator.text
  | unknownTarget name target =>
    "Alias " ++ quoted name ++ " refers to unknown operation " ++ quoted target
  | unkeyable cause => unkeyableMessage cause
  | parameterNotText index value =>
    "sequence item " ++ digitText index ++ ": expected str instance, " ++ value.kindText ++
      " found"

/-! ## What is raised -/

/-- The values whose printed forms stand in the wording of a fault. -/
def shown : Fault → List Value
  | notANode v | parametersNotList v | parameterNotSymbol v | undefinable v | unassignable v
  | notAList _ v | notANumber v | undefinedOperation v => [v]
  | sum .unaddable value total => [.number value, .number total]
  | _ => []

/-- The host is ready to write all that the wording shows. -/
def isWritable (f : Fault) : Bool := f.shown.all Value.isWritable

/-- What the host says about a number that it does not write. -/
def digitLimitMessage : String :=
  "Exceeds the limit (" ++ digitText digitLimit ++ " digits) for integer string conversion; " ++
    "use sys.set_int_max_str_digits() to increase the limit"

/-- The kind of a fault as a caller meets it. -/
def kind (f : Fault) : Kind := if f.isWritable then f.intended else .badValue

/-- What a caller reads of a fault. -/
def message (f : Fault) : String := if f.isWritable then f.wording else digitLimitMessage

theorem kind_of_isWritable {f : Fault} (h : f.isWritable = true) : f.kind = f.intended := if_pos h

theorem kind_of_not_isWritable {f : Fault} (h : f.isWritable = false) : f.kind = .badValue :=
  if_neg (by simp [h])

/-- The kind of a fault whose wording shows one value. -/
theorem kind_of_shown {f : Fault} {v : Value} (h : f.shown = [v]) :
    f.kind = if v.isWritable then f.intended else .badValue := by
  simp [kind, isWritable, h]

/-- A fault keeps its intended kind, or is refused by the host for what it shows. -/
theorem kind_eq_or (f : Fault) :
    f.kind = f.intended ∨ f.isWritable = false ∧ f.kind = .badValue := by
  cases h : f.isWritable with
  | true => exact .inl (kind_of_isWritable h)
  | false => exact .inr ⟨rfl, kind_of_not_isWritable h⟩

/-- Unless it has the kind of the host's refusal, a fault keeps its kind where it is put in words, and
shows as the refusal elsewhere. -/
theorem kind_iff_isWritable {f : Fault} (h : f.intended ≠ .badValue) :
    (f.kind = f.intended ↔ f.isWritable = true) ∧ (f.kind = .badValue ↔ f.isWritable = false) := by
  cases hw : f.isWritable with
  | true => simp [kind_of_isWritable hw, h]
  | false => simp [kind_of_not_isWritable hw, h.symm]

end Fault

end SmallLisp
