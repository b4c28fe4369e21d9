-- Equality of values. The language compares by structure: empty values are all equal, lists
-- item by item whatever their brackets, numbers by value, closures by identity. Values of the
-- host are compared by the host's own stricter rule, which tells brackets and empty values
-- apart and takes truth values for numbers. An answer is `none` where a signalling NaN leaves
-- the question undecided.
import SmallLisp.Number.Equality
import SmallLisp.Value

namespace SmallLisp

namespace Value

/-- The number that a value counts as among values of the host. -/
def asNumber? : Value → Option Number
  | number n => some n
  | bool b => some (.int (if b then 1 else 0))
  | _ => none

/-- Both values count as numbers and these are equal. -/
def sameNumber (m : Number) (b : Value) : Option Bool :=
  match b.asNumber? with
  | some n => m.equal n
  | none => some false

/-- The value that stands after the first matching key in a list of keys and values, if there
is one; undecided if a match on the way is. -/
def afterKey? (isMatch : Value → Option Bool) :
    List Value → Option (Option Value)
  | key :: value :: rest => do
    if ← isMatch key then some (some value) else afterKey? isMatch rest
  | _ => some none

/-- Some member matches. -/
def anyMatch (isMatch : Value → Option Bool) :
    List Value → Option Bool
  | [] => some false
  | v :: vs => do if ← isMatch v then some true else anyMatch isMatch vs

/-! ## The host's equality -/

mutual
/-- Equality as the host has it for the values inside its own containers. -/
def same : Value → Value → Option Bool
  | .nil, b => some (b matches .nil)
  | .null, b => some (b matches .null)
  | .bool p, b => sameNumber (.int (if p then 1 else 0)) b
  | .number m, b => sameNumber m b
  | .symbol s, b => some (match b with | .symbol t => s == t | _ => false)
  | .closure c, b => some (match b with | .closure d => c.id == d.id | _ => false)
  | .list brackets items, b =>
    match b with
    | .list brackets' others =>
      if brackets ≠ brackets' then some false
      else if brackets = .square ∧ items.length ≠ others.length then some false
      else sameItems items others
    | _ => some false
  | .host kind parts, b =>
    match b with
    | .host kind' others =>
      if kind ≠ kind' ∨ parts.length ≠ others.length then some false
      else
        match kind with
        | .mapping => sameEntries parts others
        | .set => sameMembers parts others
        | _ => some true
    | _ => some false
termination_by structural a => a

/-- Items in turn, then the lengths. -/
def sameItems : List Value → List Value → Option Bool
  | [], others => some others.isEmpty
  | v :: vs, others =>
    match others with
    | [] => some false
    | w :: ws => do if ← same v w then sameItems vs ws else some false
termination_by structural items => items

/-- Each key of the first mapping is in the second, with the same value. -/
def sameEntries : List Value → List Value → Option Bool
  | [], _ => some true
  | key :: rest, others =>
    match rest with
    | [] => some true
    | value :: rest => do
      match ← afterKey? (same key) others with
      | none => some false
      | some other => if ← same value other then sameEntries rest others else some false
termination_by structural parts => parts

/-- Each member of the first set is in the second. -/
def sameMembers : List Value → List Value → Option Bool
  | [], _ => some true
  | v :: vs, others => do
    if ← anyMatch (same v) others then sameMembers vs others else some false
termination_by structural parts => parts
end

/-- Puts a key with its value into a list of keys and values; a key that is already there
keeps its place and takes the new value. -/
def putEntry (key value : Value) : List Value → List Value
  | k :: v :: rest =>
    match same k key with
    | some true => k :: value :: rest
    | _ => k :: v :: putEntry key value rest
  | _ => [key, value]

/-- The mapping of these keys and values. -/
def ofEntries (entries : List (Value × Value)) : Value :=
  .host .mapping (entries.foldl (fun parts (key, value) => putEntry key value parts) [])

/-! ## The language's equality -/

mutual
/-- Whether two values are equal. Only a signalling NaN can leave this undecided. -/
def equal : Value → Value → Option Bool
  | .nil, b => some b.isNil
  | .null, b => some b.isNil
  | .list _ items, b =>
    if items.isEmpty || b.isNil then some (items.isEmpty && b.isNil)
    else
      match b with
      | .list _ others =>
        if items.length ≠ others.length then some false else equalItems items others
      | _ => some false
  | .number m, b =>
    match b with
    | .number n => m.equal n
    | _ => some false
  | .bool p, b => some (match b with | .bool q => p == q | _ => false)
  | .symbol s, b => some (match b with | .symbol t => s == t | _ => false)
  | .closure c, b => some (match b with | .closure d => c.id == d.id | _ => false)
  | .host kind parts, b => same (.host kind parts) b
termination_by structural a => a

/-- Corresponding items in turn, up to the first pair that differs. -/
def equalItems : List Value → List Value → Option Bool
  | [], others => some others.isEmpty
  | v :: vs, others =>
    match others with
    | [] => some false
    | w :: ws => do if ← equal v w then equalItems vs ws else some false
termination_by structural items => items
end

end Value

end SmallLisp
