-- Registries of pairs. A table keeps each name once, where it came first, with the value that it was
-- given last. The registry of two such tables is refused for the first alias in order whose target is
-- no operation. If it is not refused, then a name finds the operation of that name, else the operation
-- that it is an alias of; there always is one, so only a name that is neither is undefined.
import Mathlib.Data.List.Basic
import Mathlib.Data.List.Induction
import SmallLisp.Proofs.Lexical

namespace SmallLisp

open Lexical (last?)

/-! ## Tables of pairs -/

namespace Table

variable {α : Type}

/-- Each name once, in the order of the first pairs, with the value of its last pair. -/
def settled (pairs : List (String × α)) : List (String × α) :=
  (pairs.map Prod.fst).eraseDups.filterMap fun name => (last? name pairs).map (name, ·)

/-- The names of a table stand in the order in which they come first. -/
theorem names_ofList (pairs : List (String × α)) :
    (ofList pairs).names = (pairs.map Prod.fst).eraseDups := by
  -- from the right, since the last pair is bound after all others
  induction pairs using List.reverseRecOn with
  | nil => rfl
  | append_singleton pairs p ih =>
    have hput : ofList (pairs ++ [p]) = (ofList pairs).put p.1 p.2 := by
      unfold ofList
      rw [List.foldl_append]
      rfl
    rw [hput, List.map_append, List.eraseDups_append]
    by_cases hp : p.1 ∈ (ofList pairs).names
    · rw [names_put_of_mem _ _ hp, ih]
      rw [ih, List.mem_eraseDups] at hp
      simp [List.removeAll, hp]
    · rw [names_put_of_not_mem _ _ hp, ih]
      rw [ih, List.mem_eraseDups] at hp
      simp [List.removeAll, hp, List.eraseDups_cons]

theorem contains_ofList_iff {pairs : List (String × α)} {name : String} :
    (ofList pairs).contains name = true ↔ name ∈ pairs.map Prod.fst := by
  rw [contains_iff_mem, names_ofList, List.mem_eraseDups]

/-- A table in which no name stands twice can be told from what its names have for values. -/
theorem Distinct.entries_eq {t : Table α} (h : t.Distinct) :
    t.entries = t.names.filterMap fun name => (t.get? name).map (name, ·) := by
  obtain ⟨entries⟩ := t
  unfold Distinct names at h
  unfold names get?
  dsimp only at h ⊢
  induction entries with
  | nil => rfl
  | cons entry rest ih =>
    obtain ⟨n, v⟩ := entry
    rw [List.map_cons, List.nodup_cons] at h
    obtain ⟨hn, hrest⟩ := h
    have hfirst : find? n ((n, v) :: rest) = some v := by simp [find?]
    have hothers : ∀ m ∈ rest.map Prod.fst, find? m ((n, v) :: rest) = find? m rest := by
      intro m hm
      have hne : n ≠ m := by
        rintro rfl
        exact hn hm
      simp [find?, hne]
    rw [List.map_cons, List.filterMap_cons, hfirst]
    dsimp only [Option.map_some]
    congr 1
    apply (ih hrest).trans
    apply List.filterMap_congr
    intro m hm
    rw [hothers m hm]

theorem entries_ofList (pairs : List (String × α)) : (ofList pairs).entries = settled pairs := by
  rw [(distinct_ofList pairs).entries_eq, names_ofList]
  unfold settled
  simp only [Lexical.get?_ofList]

end Table

namespace Registry

variable {Operation : Type}

/-! ## Which tables make a registry -/

/-- An alias, by its name and its target, whose target is no operation, while the aliases before it in
the table have operations for targets. -/
def FirstUnknown (operations : List (String × Operation)) (aliases : List (String × String))
    (name target : String) : Prop :=
  target ∉ operations.map Prod.fst ∧ ∃ before after,
    Table.settled aliases = before ++ (name, target) :: after ∧
      ∀ entry ∈ before, entry.2 ∈ operations.map Prod.fst

theorem find?_unknown_iff {operations : List (String × Operation)}
    {aliases : List (String × String)} {name target : String} :
    ((Table.ofList aliases).entries.find? fun entry =>
        !(Table.ofList operations).contains entry.2) = some (name, target) ↔
      FirstUnknown operations aliases name target := by
  unfold FirstUnknown
  rw [Table.entries_ofList, List.find?_eq_some_iff_append, ← Table.contains_ofList_iff]
  simp only [← Table.contains_ofList_iff, Bool.not_not, Bool.not_eq_true', Bool.not_eq_true]

/-- A registry is refused for the first alias that stands for no operation. -/
theorem build_eq_error_iff {operations : Table Operation} {aliases : Table String} {f : Fault} :
    build operations aliases = .error f ↔ ∃ name target,
      (aliases.entries.find? fun entry => !operations.contains entry.2) = some (name, target) ∧
        f = .unknownTarget name target := by
  unfold build
  split
  · rename_i name target h
    simp only [h, Except.error.injEq, Option.some.injEq, Prod.mk.injEq]
    constructor
    · rintro rfl
      exact ⟨name, target, ⟨rfl, rfl⟩, rfl⟩
    · rintro ⟨_, _, ⟨rfl, rfl⟩, rfl⟩
      rfl
  · rename_i h
    simp [h]

/-- Some alias that stands for no operation is enough. -/
theorem build_fails_iff {operations : Table Operation} {aliases : Table String} :
    (∃ f, build operations aliases = .error f) ↔
      ∃ entry ∈ aliases.entries, operations.contains entry.2 = false := by
  simp only [build_eq_error_iff]
  constructor
  · rintro ⟨_, name, target, hfind, -⟩
    have htarget := List.find?_some hfind
    exact ⟨_, List.mem_of_find?_eq_some hfind, by simpa using htarget⟩
  · rintro ⟨entry, hmem, hentry⟩
    have hsome : (aliases.entries.find? fun entry => !operations.contains entry.2).isSome := by
      rw [List.find?_isSome]
      exact ⟨entry, hmem, by simp [hentry]⟩
    obtain ⟨⟨name, target⟩, hfind⟩ := Option.isSome_iff_exists.mp hsome
    exact ⟨_, name, target, hfind, rfl⟩

/-- A registry that is built has the tables that it was built of. -/
theorem tables_of_build {operations : Table Operation} {aliases : Table String}
    {r : Registry Operation} (h : build operations aliases = .ok r) :
    r.operations = operations ∧ r.aliases = aliases := by
  unfold build at h
  split at h
  · cases h
  · cases h
    exact ⟨rfl, rfl⟩

/-! ## What a registry finds -/

/-- What a registry of these pairs has to find under a name: the last operation of that name, else the
last operation under the last target that it is an alias of. A name that is neither is undefined. -/
inductive Finds (operations : List (String × Operation)) (aliases : List (String × String))
    (name : String) : Except Fault Operation → Prop
  | operation {operation : Operation} (h : last? name operations = some operation) :
      Finds operations aliases name (.ok operation)
  | target {target : String} {operation : Operation} (hname : last? name operations = none)
      (halias : last? name aliases = some target) (h : last? target operations = some operation) :
      Finds operations aliases name (.ok operation)
  | undefined (hname : last? name operations = none) (halias : last? name aliases = none) :
      Finds operations aliases name (.error (.undefinedOperation (.symbol name)))

/-- The pairs leave no choice of what is found. -/
theorem Finds.unique {operations : List (String × Operation)} {aliases : List (String × String)}
    {name : String} {answer other : Except Fault Operation} (h : Finds operations aliases name answer)
    (h' : Finds operations aliases name other) : answer = other := by
  cases h <;> cases h' <;> simp_all

/-- The target of an alias is found without another check: it has been an operation since the
registry was built. -/
theorem finds_lookup {operations : List (String × Operation)} {aliases : List (String × String)}
    {r : Registry Operation} (h : build (.ofList operations) (.ofList aliases) = .ok r)
    (name : String) : Finds operations aliases name (r.lookup name) := by
  obtain ⟨hoperations, haliases⟩ := tables_of_build h
  have hget : ∀ n, r.operations.get? n = last? n operations := by
    intro n
    rw [hoperations, Lexical.get?_ofList]
  have halias : r.aliases.get? name = last? name aliases := by
    rw [haliases, Lexical.get?_ofList]
  unfold lookup lookup?
  rw [hget, halias]
  cases hname : last? name operations with
  | some operation => exact .operation hname
  | none =>
    cases htarget : last? name aliases with
    | none => exact .undefined hname htarget
    | some target =>
      -- no alias is left whose target would be missing
      have hknown := r.target_known _ (mem_of_find? (halias.trans htarget))
      unfold Table.contains at hknown
      rw [hget] at hknown
      obtain ⟨operation, hoperation⟩ := Option.isSome_iff_exists.mp hknown
      simp only [Option.bind_some, hget, hoperation]
      exact .target hname htarget hoperation

theorem knows_iff (r : Registry Operation) (name : String) :
    r.knows name = true ↔ ∃ operation, r.lookup name = .ok operation := by
  rw [knows_eq_isSome_lookup?]
  unfold lookup
  cases r.lookup? name <;> simp

/-- A registry of pairs is refused if and only if some alias, with the target that it has last, stands
for no operation, and the fault names the first such alias in the order of the table. Otherwise each
name finds the operation of that name, else the operation that it is an alias of, and is known if it
finds one; only a name that is neither is undefined. The operations are listed once each, in the order
in which their names came first. -/
theorem a_registry_finds_what_it_was_built_of (operations : List (String × Operation))
    (aliases : List (String × String)) :
    ((∃ f, build (.ofList operations) (.ofList aliases) = .error f) ↔
      ∃ entry ∈ Table.settled aliases, entry.2 ∉ operations.map Prod.fst) ∧
    (∀ f, build (.ofList operations) (.ofList aliases) = .error f → f.kind = .badValue ∧
      ∃ name target, FirstUnknown operations aliases name target ∧
        f = .unknownTarget name target) ∧
    ∀ r, build (.ofList operations) (.ofList aliases) = .ok r →
      (∀ name, Finds operations aliases name (r.lookup name) ∧
        (r.knows name = true ↔ ∃ operation, r.lookup name = .ok operation)) ∧
      r.names = (operations.map Prod.fst).eraseDups ∧ r.names.Nodup := by
  refine ⟨?_, ?_, ?_⟩
  · rw [build_fails_iff, Table.entries_ofList]
    simp only [← Table.contains_ofList_iff, Bool.not_eq_true]
  · intro f hf
    rw [build_eq_error_iff] at hf
    obtain ⟨name, target, hfirst, rfl⟩ := hf
    exact ⟨rfl, name, target, find?_unknown_iff.mp hfirst, rfl⟩
  · intro r hr
    obtain ⟨hoperations, -⟩ := tables_of_build hr
    have hnames : r.names = (Table.ofList operations).names := by
      unfold names
      rw [hoperations]
    refine ⟨fun name => ⟨finds_lookup hr name, r.knows_iff name⟩, ?_, ?_⟩
    · rw [hnames, Table.names_ofList]
    · rw [hnames]
      exact Table.distinct_ofList operations

/-- An alias that was wrong at first is right when the registry is built, and one that has the name of
an operation does not show. -/
theorem an_operation_hides_an_alias :
    let operations : List (String × Builtin) := [("car", .car), ("rest", .car), ("rest", .cdr)]
    let aliases := [("tail", "nowhere"), ("car", "rest"), ("tail", "rest")]
    ∃ r, build (.ofList operations) (.ofList aliases) = .ok r ∧ r.lookup "car" = .ok .car ∧
      r.lookup "tail" = .ok .cdr ∧
      r.lookup "nowhere" = .error (.undefinedOperation (.symbol "nowhere")) ∧
      r.names = ["car", "rest"] := by
  intro operations aliases
  obtain ⟨hfails, -, hfinds⟩ := a_registry_finds_what_it_was_built_of operations aliases
  cases hr : build (.ofList operations) (.ofList aliases) with
  | error f => exact absurd (hfails.mp ⟨f, hr⟩) (by decide)
  | ok r =>
    obtain ⟨hlookup, hnames, -⟩ := hfinds r hr
    exact ⟨r, rfl, (hlookup "car").1.unique (.operation rfl),
      (hlookup "tail").1.unique (.target rfl rfl rfl),
      (hlookup "nowhere").1.unique (.undefined rfl rfl), hnames⟩

/-- An alias of an alias is refused. -/
example : build (.ofList [("car", Builtin.car)]) (.ofList [("first", "car"), ("head", "first")]) =
    .error (.unknownTarget "head" "first") := rfl

end Registry

end SmallLisp
