-- The parts of a value: the value itself, and the parts of list items and of closure bodies.
-- A value is alike to itself, under a likeness that only tells which labels and closures are
-- allowed, if all its parts are.
import SmallLisp.Proofs.Alike

namespace SmallLisp

/-- The labels of the NaNs in a number. -/
def Double.labels : Double → List Nat
  | nan l => [l]
  | _ => []

def Decimal.labels : Decimal → List Nat
  | nan _ _ _ l => [l]
  | _ => []

def Number.labels : Number → List Nat
  | int _ | fraction _ => []
  | double d => d.labels
  | decimal d => d.labels
  | complex re im => re.labels ++ im.labels

theorem exists_of_forall₂ {α β : Type} {R : α → β → Prop} {as : List α} {bs : List β}
    (h : List.Forall₂ R as bs) {a : α} (ha : a ∈ as) : ∃ b ∈ bs, R a b := by
  induction h with
  | nil => cases ha
  | cons hab _ ih =>
    rcases List.mem_cons.mp ha with rfl | ha
    · exact ⟨_, List.mem_cons_self, hab⟩
    · obtain ⟨b, hb, hab⟩ := ih ha
      exact ⟨b, List.mem_cons_of_mem _ hb, hab⟩

namespace Value

/-- A value is a part of itself, of every list with an item that it is a part of, and of every
closure with a body form that it is a part of. -/
inductive IsPart (x : Value) : Value → Prop
  | self : IsPart x x
  | item {b : Brackets} {items : List Value} {v : Value} (hv : v ∈ items) (h : IsPart x v) :
      IsPart x (list b items)
  | body {c : Closure Value} {v : Value} (hv : v ∈ c.body) (h : IsPart x v) :
      IsPart x (closure c)

/-- There is no closure in the value. -/
def ClosureFree (v : Value) : Prop := ∀ c : Closure Value, ¬ (Value.closure c).IsPart v

@[simp] theorem closureFree_symbol (name : String) : (Value.symbol name).ClosureFree := by
  intro c hc
  cases hc

@[simp] theorem closureFree_number (n : Number) : (Value.number n).ClosureFree := by
  intro c hc
  cases hc

@[simp] theorem closureFree_list (b : Brackets) (items : List Value) :
    (Value.list b items).ClosureFree ↔ ∀ v ∈ items, v.ClosureFree := by
  constructor
  · exact fun h v hv c hc => h c (.item hv hc)
  · intro h c hc
    cases hc with
    | item hv hc => exact h _ hv c hc

theorem ClosureFree.item {b : Brackets} {items : List Value}
    (h : (Value.list b items).ClosureFree) {v : Value} (hv : v ∈ items) : v.ClosureFree :=
  fun c hc => h c (.item hv hc)

/-- Each part of a value stands for a part of every value that is alike to it. -/
theorem Alike.of_part {L : Likeness} {x v v' : Value} (h : v.Alike L v') (hx : x.IsPart v) :
    ∃ x', x'.IsPart v' ∧ x.Alike L x' := by
  induction hx generalizing v' with
  | self => exact ⟨v', .self, h⟩
  | item hv _ ih =>
    cases h with
    | list b h =>
      obtain ⟨u, hu, hvu⟩ := exists_of_forall₂ h hv
      obtain ⟨x', hx', hxx⟩ := ih hvu
      exact ⟨x', .item hu hx', hxx⟩
  | body hv _ ih =>
    cases h with
    | closure _ _ h _ =>
      obtain ⟨u, hu, hvu⟩ := exists_of_forall₂ h hv
      obtain ⟨x', hx', hxx⟩ := ih hvu
      exact ⟨x', .body hu hx', hxx⟩

/-- The labels and the closures that may occur, each standing for itself. -/
def only (label : Nat → Prop) (closure : Closure Value → Prop) : Likeness where
  label l l' := l = l' ∧ label l
  tie c c' := c = c' ∧ closure c

variable {label : Nat → Prop} {closures : Closure Value → Prop}

theorem oneToOne_only : OneToOne (only label closures).label := by
  rintro l l' m m' ⟨rfl, _⟩ ⟨rfl, _⟩
  rfl

theorem double_alike_only {x x' : Double} :
    x.Alike (only label closures).label x' ↔ x = x' ∧ ∀ l ∈ x.labels, label l := by
  constructor
  · intro h
    cases h with
    | same h => cases x <;> simp_all [Double.labels, Double.isNaN]
    | nan h => exact ⟨by rw [h.1], by simpa [Double.labels] using h.2⟩
  · rintro ⟨rfl, h⟩
    cases x with
    | nan l => exact .nan ⟨rfl, h l (by simp [Double.labels])⟩
    | _ => exact .same rfl

theorem decimal_alike_only {x x' : Decimal} :
    x.Alike (only label closures).label x' ↔ x = x' ∧ ∀ l ∈ x.labels, label l := by
  constructor
  · intro h
    cases h with
    | same h => cases x <;> simp_all [Decimal.labels, Decimal.isNaN]
    | nan s t p h => exact ⟨by rw [h.1], by simpa [Decimal.labels] using h.2⟩
  · rintro ⟨rfl, h⟩
    cases x with
    | nan s t p l => exact .nan s t p ⟨rfl, h l (by simp [Decimal.labels])⟩
    | _ => exact .same rfl

theorem number_alike_only {n n' : Number} :
    n.Alike (only label closures).label n' ↔ n = n' ∧ ∀ l ∈ n.labels, label l := by
  constructor
  · intro h
    cases h with
    | int | fraction => simp [Number.labels]
    | double h => simpa [Number.labels] using double_alike_only.mp h
    | decimal h => simpa [Number.labels] using decimal_alike_only.mp h
    | complex hx hy =>
      have hx := double_alike_only.mp hx
      have hy := double_alike_only.mp hy
      refine ⟨by rw [hx.1, hy.1], fun l hl => ?_⟩
      rcases List.mem_append.mp hl with hl | hl
      · exact hx.2 l hl
      · exact hy.2 l hl
  · rintro ⟨rfl, h⟩
    cases n with
    | int n => exact .int n
    | fraction r => exact .fraction r
    | double d => exact .double (double_alike_only.mpr ⟨rfl, h⟩)
    | decimal d => exact .decimal (decimal_alike_only.mpr ⟨rfl, h⟩)
    | complex re im =>
      exact .complex
        (double_alike_only.mpr ⟨rfl, fun l hl => h l (List.mem_append_left _ hl)⟩)
        (double_alike_only.mpr ⟨rfl, fun l hl => h l (List.mem_append_right _ hl)⟩)

/-- A number has the same labels as itself only. -/
theorem number_alike_eq {n n' : Number} : n.Alike (· = ·) n' ↔ n = n' := by
  constructor
  · intro h
    have honly : n.Alike (only (fun _ => True) fun _ => True).label n' :=
      h.mono fun _ _ hl => ⟨hl, trivial⟩
    exact (number_alike_only.mp honly).1
  · rintro rfl
    have honly : n.Alike (only (fun _ => True) fun _ => True).label n :=
      number_alike_only.mpr ⟨rfl, fun _ _ => trivial⟩
    exact honly.mono fun _ _ hl => hl.1

/-- What `only` asks of a single part. -/
def Allowed (label : Nat → Prop) (closures : Closure Value → Prop) : Value → Prop
  | .number n => ∀ l ∈ n.labels, label l
  | .closure c => label c.id ∧ closures c
  | _ => True

theorem eq_of_forall₂ {α : Type} {R : α → α → Prop} {as bs : List α} (h : List.Forall₂ R as bs)
    (hR : ∀ a ∈ as, ∀ b, R a b → a = b) : as = bs := by
  simpa using map_eq_of_forall₂ (f := id) (g := id) h hR

theorem eq_of_alike_only {v v' : Value} (h : v.Alike (only label closures) v') : v = v' := by
  induction v using induct generalizing v' with
  | number n => cases h with | number h => rw [(number_alike_only.mp h).1]
  | list b items ih =>
    cases h with
    | list _ h => rw [eq_of_forall₂ h fun v hv _ hvv => ih v hv hvv]
  | closure c ih => cases h with | closure _ _ _ tie => rw [tie.1]
  | nil | null | bool | symbol | host => cases h; rfl

/-- A value is alike to itself exactly if all its parts are allowed. -/
theorem alike_only_self_iff {v : Value} :
    v.Alike (only label closures) v ↔ ∀ x : Value, x.IsPart v → Allowed label closures x := by
  constructor
  · intro h x hx
    induction hx with
    | self =>
      cases h with
      | number h => exact (number_alike_only.mp h).2
      | closure id _ _ tie => exact ⟨id.2, tie.2⟩
      | _ => trivial
    | item hv _ ih =>
      cases h with
      | list _ h => exact ih (List.forall₂_same.mp h _ hv)
    | body hv _ ih =>
      cases h with
      | closure _ _ body _ => exact ih (List.forall₂_same.mp body _ hv)
  · intro h
    induction v using induct with
    | nil => exact .nil
    | null => exact .null
    | bool b => exact .bool b
    | number n => exact .number (number_alike_only.mpr ⟨rfl, h _ .self⟩)
    | symbol name => exact .symbol name
    | list b items ih =>
      exact .list b (List.forall₂_same.mpr fun v hv => ih v hv fun x hx => h x (.item hv hx))
    | closure c ih =>
      have hc := h _ .self
      exact .closure ⟨rfl, hc.1⟩ rfl
        (List.forall₂_same.mpr fun v hv => ih v hv fun x hx => h x (.body hv hx)) ⟨rfl, hc.2⟩
    | host k parts => exact .host k parts

end Value

end SmallLisp
