-- Values of two runs that stand for each other: they have one shape, and differ at most in the
-- labels of NaNs and closures and in what ties a closure to its run. Such values print alike,
-- count alike as nil, and are equal to one another alike.
import SmallLisp.Proofs.NumberAlike
import SmallLisp.Value.Equality
import SmallLisp.Value.Printer
import Mathlib.Data.List.Forall2

namespace SmallLisp

/-- What stands for what in two runs: labels of NaNs and numbers of closures, and closures by
the scopes and the machines that they are tied to. -/
structure Likeness where
  label : Nat → Nat → Prop
  tie : Closure Value → Closure Value → Prop

theorem forall₂_imp_of_mem {α β : Type} {R S : α → β → Prop} {as : List α} {bs : List β}
    (h : List.Forall₂ R as bs) (hRS : ∀ a ∈ as, ∀ b, R a b → S a b) : List.Forall₂ S as bs := by
  induction h with
  | nil => exact .nil
  | cons hab _ ih =>
    exact .cons (hRS _ (by simp) _ hab) (ih fun a ha => hRS a (List.mem_cons_of_mem _ ha))

theorem map_eq_of_forall₂ {α β γ : Type} {R : α → β → Prop} {f : α → γ} {g : β → γ}
    {as : List α} {bs : List β} (h : List.Forall₂ R as bs) (hR : ∀ a ∈ as, ∀ b, R a b → f a = g b) :
    as.map f = bs.map g := by
  induction h with
  | nil => rfl
  | cons hab _ ih =>
    simp only [List.map_cons, hR _ List.mem_cons_self _ hab]
    rw [ih fun a ha => hR a (List.mem_cons_of_mem _ ha)]

namespace Value

/-- Values that stand for each other. What a host value holds is out of reach of a program, so
such a value stands for itself only. -/
inductive Alike (L : Likeness) : Value → Value → Prop
  | nil : Alike L nil nil
  | null : Alike L null null
  | bool (b : Bool) : Alike L (bool b) (bool b)
  | number {n n' : Number} (h : n.Alike L.label n') : Alike L (number n) (number n')
  | symbol (name : String) : Alike L (symbol name) (symbol name)
  | list (b : Brackets) {items items' : List Value} (h : List.Forall₂ (Alike L) items items') :
      Alike L (list b items) (list b items')
  | closure {c c' : Closure Value} (id : L.label c.id c'.id) (params : c.params = c'.params)
      (body : List.Forall₂ (Alike L) c.body c'.body) (tie : L.tie c c') :
      Alike L (closure c) (closure c')
  | host (kind : HostKind) (parts : List Value) : Alike L (host kind parts) (host kind parts)

variable {L : Likeness}

theorem Alike.mono {L' : Likeness} (hl : ∀ l l', L.label l l' → L'.label l l')
    (ht : ∀ c c', L.tie c c' → L'.tie c c') {v v' : Value} (h : v.Alike L v') :
    v.Alike L' v' := by
  induction v using induct generalizing v' with
  | nil => cases h; exact .nil
  | null => cases h; exact .null
  | bool b => cases h; exact .bool b
  | number n => cases h with | number h => exact .number (h.mono hl)
  | symbol name => cases h; exact .symbol name
  | list b items ih =>
    cases h with
    | list _ h => exact .list b (forall₂_imp_of_mem h fun v hv _ hvv => ih v hv hvv)
  | closure c ih =>
    cases h with
    | closure id params body tie =>
      exact .closure (hl _ _ id) params (forall₂_imp_of_mem body fun v hv _ hvv => ih v hv hvv)
        (ht _ _ tie)
  | host k parts => cases h; exact .host k parts

theorem Alike.isNil_eq {v v' : Value} (h : v.Alike L v') : v.isNil = v'.isNil := by
  cases h with
  | list b h => cases h <;> rfl
  | _ => rfl

theorem Alike.isList_eq {v v' : Value} (h : v.Alike L v') : v.isList = v'.isList := by
  cases h <;> rfl

/-- Alike values have one printed form: labels, scopes and machines do not show. -/
theorem Alike.text_eq {v v' : Value} (h : v.Alike L v') : v.text = v'.text := by
  induction v using induct generalizing v' with
  | number n => cases h with | number h => exact h.text_eq
  | list b items ih =>
    cases h with
    | list _ h =>
      simp only [text, texts_eq_map, map_eq_of_forall₂ h fun v hv _ hvv => ih v hv hvv]
  | closure c ih =>
    cases h with
    | closure _ params body _ =>
      simp only [text, texts_eq_map, params, map_eq_of_forall₂ body fun v hv _ hvv => ih v hv hvv]
  | nil | null | bool | symbol | host => cases h; rfl

theorem all_eq_of_forall₂ {α β : Type} {R : α → β → Prop} {p : α → Bool} {q : β → Bool}
    {as : List α} {bs : List β} (h : List.Forall₂ R as bs)
    (hR : ∀ a ∈ as, ∀ b, R a b → p a = q b) : as.all p = bs.all q := by
  have hmap := map_eq_of_forall₂ h hR
  simpa [List.all_map] using congrArg (·.all id) hmap

/-- The host writes both of two alike values, or neither. -/
theorem Alike.isWritable_eq {v v' : Value} (h : v.Alike L v') : v.isWritable = v'.isWritable := by
  induction v using induct generalizing v' with
  | number n => cases h with | number h => exact h.isWritable_eq
  | list b items ih =>
    cases h with
    | list _ h =>
      simp only [isWritable, areWritable_eq_all, all_eq_of_forall₂ h fun v hv _ hvv => ih v hv hvv]
  | closure c ih =>
    cases h with
    | closure _ _ body _ =>
      simp only [isWritable, areWritable_eq_all,
        all_eq_of_forall₂ body fun v hv _ hvv => ih v hv hvv]
  | nil | null | bool | symbol | host => cases h; rfl

/-- Items that are equal one by one for two lists, and so for lists that stand for them. -/
theorem equalItems_eq_of_forall₂ {items items' : List Value} (h : List.Forall₂ (Alike L) items items')
    (ih : ∀ v ∈ items, ∀ v' w w', v.Alike L v' → w.Alike L w' → v.equal w = v'.equal w')
    {others others' : List Value} (ho : List.Forall₂ (Alike L) others others') :
    equalItems items others = equalItems items' others' := by
  induction h generalizing others others' with
  | nil => cases ho <;> rfl
  | cons hv _ ihs =>
    cases ho with
    | nil => rfl
    | cons hw hws =>
      simp only [equalItems]
      rw [ih _ (by simp) _ _ _ hv hw, ihs (fun v hv => ih v (List.mem_cons_of_mem _ hv)) hws]

/-- Values are equal exactly if the values that stand for them are. -/
theorem Alike.equal_eq (hlab : OneToOne L.label) {a a' b b' : Value} (ha : a.Alike L a')
    (hb : b.Alike L b') : a.equal b = a'.equal b' := by
  induction a using induct generalizing a' b b' with
  | nil => cases ha; simp only [equal, hb.isNil_eq]
  | null => cases ha; simp only [equal, hb.isNil_eq]
  | bool p => cases ha; cases hb <;> rfl
  | number m =>
    cases ha with
    | number h =>
      cases hb with
      | number h' => exact h.equal_eq hlab h'
      | _ => rfl
  | symbol s => cases ha; cases hb <;> rfl
  | list _ items ih =>
    cases ha with
    | list b h =>
      have hempty := (Alike.list .square h).isNil_eq
      simp only [isNil_list] at hempty
      simp only [equal, hempty, hb.isNil_eq]
      split
      · rfl
      · cases hb with
        | list _ h' =>
          simp only [h.length_eq, h'.length_eq]
          split
          · rfl
          · exact equalItems_eq_of_forall₂ h (fun v hv _ _ _ hvv hww => ih v hv hvv hww) h'
        | _ => rfl
  | closure c ih =>
    cases ha with
    | closure id _ _ _ =>
      cases hb with
      | closure id' _ _ _ =>
        have := hlab _ _ _ _ id id'
        simp only [equal, Option.some.injEq]
        grind
      | _ => rfl
  | host k parts => cases ha; cases hb <;> rfl

/-! ## Items of alike lists -/

theorem alike_head {items items' : List Value} (h : List.Forall₂ (Alike L) items items') :
    (items.head?.getD .nil).Alike L (items'.head?.getD .nil) := by
  cases h with
  | nil => exact .nil
  | cons h _ => exact h

theorem forall₂_tail {items items' : List Value} (h : List.Forall₂ (Alike L) items items') :
    List.Forall₂ (Alike L) items.tail items'.tail := by
  cases h with
  | nil => exact .nil
  | cons _ h => exact h

end Value

end SmallLisp
