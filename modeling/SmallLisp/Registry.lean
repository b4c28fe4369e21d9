-- Registries: which names stand for which built-in operations, directly or as aliases. An alias
-- names an operation, never another alias, so every look-up ends after two steps at most.
import SmallLisp.Fault
import SmallLisp.Table

namespace SmallLisp

/-- A table of operations and a table of aliases whose targets are all among them. Machines have
registries of the built-in operations. -/
structure Registry (Operation : Type := Builtin) where
  operations : Table Operation
  aliases : Table String
  target_known : ∀ entry ∈ aliases.entries, operations.contains entry.2 = true

namespace Registry

variable {Operation : Type}

/-- The registry of two tables, unless an alias has a target that is no operation; the first
such alias is to blame. -/
def build (operations : Table Operation) (aliases : Table String) :
    Except Fault (Registry Operation) :=
  match h : aliases.entries.find? fun entry => !operations.contains entry.2 with
  | some (name, target) => .error (.unknownTarget name target)
  | none => .ok ⟨operations, aliases, by simpa using h⟩

/-- The operation that a name stands for: as an operation first, then as an alias. -/
def lookup? (r : Registry Operation) (name : String) : Option Operation :=
  match r.operations.get? name with
  | some operation => some operation
  | none => (r.aliases.get? name).bind r.operations.get?

/-- The operation that a name stands for; a name that stands for none is undefined. -/
def lookup (r : Registry Operation) (name : String) : Except Fault Operation :=
  match r.lookup? name with
  | some operation => .ok operation
  | none => .error (.undefinedOperation (.symbol name))

/-- The name is an operation or an alias. -/
def knows (r : Registry Operation) (name : String) : Bool :=
  r.operations.contains name || r.aliases.contains name

/-- The operations alone, in the order of registration. -/
def names (r : Registry Operation) : List String := r.operations.names

/-- The nine built-ins under their own names, `first` for `car` and the quote mark for `quote`. -/
def standard : Registry where
  operations := ⟨Builtin.all.map fun operation => (operation.name, operation)⟩
  aliases := ⟨[("first", "car"), ("'", "quote")]⟩
  target_known := by decide

/-- A registry that knows no name. -/
def empty : Registry Operation := ⟨.empty, .empty, by simp [Table.empty]⟩

instance : Inhabited (Registry Operation) := ⟨empty⟩

/-- An entry that a look-up finds is in the table. -/
theorem mem_of_find? {α : Type} {name : String} {value : α} {entries : List (String × α)}
    (h : Table.find? name entries = some value) : (name, value) ∈ entries := by
  induction entries with
  | nil => simp [Table.find?] at h
  | cons entry rest ih =>
    by_cases hn : entry.1 = name
    · simp only [Table.find?, hn, if_true, Option.some.injEq] at h
      simp [← hn, ← h]
    · simp only [Table.find?, hn, if_false] at h
      exact List.mem_cons_of_mem _ (ih h)

/-- A look-up finds one of the operations of a registry. -/
theorem exists_mem_of_lookup? {r : Registry Operation} {name : String} {operation : Operation}
    (h : r.lookup? name = some operation) : ∃ n, (n, operation) ∈ r.operations.entries := by
  unfold lookup? at h
  cases ho : r.operations.get? name with
  | some found =>
    rw [ho] at h
    exact ⟨name, mem_of_find? (ho.trans h)⟩
  | none =>
    rw [ho] at h
    obtain ⟨target, _, ht⟩ := Option.bind_eq_some_iff.mp h
    exact ⟨target, mem_of_find? ht⟩

/-- A registry knows exactly the names that it finds. -/
theorem knows_eq_isSome_lookup? (r : Registry Operation) (name : String) :
    r.knows name = (r.lookup? name).isSome := by
  unfold knows lookup? Table.contains
  cases ho : r.operations.get? name with
  | some operation => simp
  | none =>
    cases ha : r.aliases.get? name with
    | none => simp
    | some target =>
      have := r.target_known _ (mem_of_find? ha)
      simpa [Table.contains] using this

end Registry

end SmallLisp
