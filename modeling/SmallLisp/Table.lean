-- Tables from names to values that remember the order in which their names first came. To
-- bind a name again puts the new value at the old position, so a name stands at most once.
namespace SmallLisp

/-- Names with their values, in the order in which the names were first bound. -/
structure Table (α : Type) where
  entries : List (String × α)
  deriving Repr

namespace Table

variable {α : Type}

def empty : Table α := ⟨[]⟩

instance : Inhabited (Table α) := ⟨empty⟩

/-- The names in order. -/
def names (t : Table α) : List String := t.entries.map (·.1)

/-- The value of the first entry with this name. -/
def find? (name : String) : List (String × α) → Option α
  | [] => none
  | (n, v) :: rest => if n = name then some v else find? name rest

/-- The value of a name, if it is bound. -/
def get? (t : Table α) (name : String) : Option α := find? name t.entries

/-- The name is bound. -/
def contains (t : Table α) (name : String) : Bool := (t.get? name).isSome

/-- Replaces the value of the first entry with this name, or adds an entry at the end. -/
def bind (name : String) (value : α) : List (String × α) → List (String × α)
  | [] => [(name, value)]
  | (n, v) :: rest => if n = name then (n, value) :: rest else (n, v) :: bind name value rest

/-- The table with the name bound to the value. -/
def put (t : Table α) (name : String) (value : α) : Table α := ⟨bind name value t.entries⟩

/-- The table of these pairs, bound one after the other. -/
def ofList (pairs : List (String × α)) : Table α :=
  pairs.foldl (fun t (name, value) => t.put name value) empty

/-- No name stands twice. -/
def Distinct (t : Table α) : Prop := t.names.Nodup

/-! ## Reading what was bound -/

theorem get?_put_self (t : Table α) (name : String) (value : α) :
    (t.put name value).get? name = some value := by
  obtain ⟨entries⟩ := t
  induction entries with
  | nil => simp [put, get?, bind, find?]
  | cons entry rest ih =>
    by_cases h : entry.1 = name
    · simp [put, get?, bind, find?, h]
    · simpa [put, get?, bind, find?, h] using ih

theorem get?_put_of_ne (t : Table α) {name other : String} (value : α) (h : other ≠ name) :
    (t.put name value).get? other = t.get? other := by
  obtain ⟨entries⟩ := t
  induction entries with
  | nil => simp [put, get?, bind, find?, h.symm]
  | cons entry rest ih =>
    by_cases hn : entry.1 = name
    · simp [put, get?, bind, find?, hn, h.symm]
    · by_cases ho : entry.1 = other
      · simp [put, get?, bind, find?, ho, h]
      · simpa [put, get?, bind, find?, hn, ho] using ih

theorem get?_eq_none_iff (t : Table α) (name : String) : t.get? name = none ↔ name ∉ t.names := by
  obtain ⟨entries⟩ := t
  induction entries with
  | nil => simp [get?, find?, names]
  | cons entry rest ih =>
    by_cases h : entry.1 = name
    · simp [get?, find?, names, h]
    · have := ih
      simp only [get?, names, find?, List.map_cons, List.mem_cons, h, if_false] at this ⊢
      rw [this]
      simp [Ne.symm h]

theorem contains_iff_mem (t : Table α) (name : String) :
    t.contains name = true ↔ name ∈ t.names := by
  unfold contains
  rw [← Option.ne_none_iff_isSome, ne_eq, get?_eq_none_iff, Decidable.not_not]

/-! ## The order of the names -/

theorem names_put_of_mem (t : Table α) {name : String} (value : α) (h : name ∈ t.names) :
    (t.put name value).names = t.names := by
  obtain ⟨entries⟩ := t
  induction entries with
  | nil => simp [names] at h
  | cons entry rest ih =>
    by_cases hn : entry.1 = name
    · simp [put, names, bind, hn]
    · have hr : name ∈ (⟨rest⟩ : Table α).names := by
        simp only [names, List.map_cons, List.mem_cons] at h ⊢
        exact h.resolve_left (Ne.symm hn)
      have := ih hr
      simp only [put, names] at this
      simp [put, names, bind, hn, this]

theorem names_put_of_not_mem (t : Table α) {name : String} (value : α) (h : name ∉ t.names) :
    (t.put name value).names = t.names ++ [name] := by
  obtain ⟨entries⟩ := t
  induction entries with
  | nil => simp [put, names, bind]
  | cons entry rest ih =>
    simp only [names, List.map_cons, List.mem_cons, not_or] at h
    have := ih h.2
    simp only [put, names] at this
    simp [put, names, bind, Ne.symm h.1, this]

theorem distinct_put (t : Table α) (name : String) (value : α) (h : t.Distinct) :
    (t.put name value).Distinct := by
  unfold Distinct at h ⊢
  by_cases hn : name ∈ t.names
  · rw [names_put_of_mem t value hn]
    exact h
  · rw [names_put_of_not_mem t value hn, List.nodup_append]
    refine ⟨h, by simp, ?_⟩
    intro a ha b hb hab
    rw [List.mem_singleton] at hb
    exact hn (hb ▸ hab ▸ ha)

theorem distinct_ofList (pairs : List (String × α)) : (ofList pairs).Distinct := by
  unfold ofList
  apply List.foldlRecOn
  · simp [Distinct, names, empty]
  · intro t ht p _
    exact distinct_put t p.1 p.2 ht

end Table

end SmallLisp
