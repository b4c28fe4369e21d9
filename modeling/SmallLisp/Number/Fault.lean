-- Why two numbers have no sum. Each cause is a value here, and its wording is chosen where
-- messages are written.
namespace SmallLisp

/-- A cause for which a sum has no answer. -/
inductive SumFault where
  /-- The two kinds of number do not mix. -/
  | unaddable
  /-- A whole number is beyond the doubles. -/
  | integerTooLarge
  /-- A fraction is beyond the doubles. -/
  | fractionTooLarge
  /-- The decimal sum is undefined. -/
  | decimalInvalid
  /-- The decimal sum is beyond the greatest exponent. -/
  | decimalOverflow
  deriving DecidableEq, Repr

end SmallLisp
