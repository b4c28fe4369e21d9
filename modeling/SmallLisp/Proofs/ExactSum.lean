-- Sums of exact numbers, in whatever order and grouping. Arguments that assign nothing do not
-- notice one another: each has the same number in every state that extends the first one, and
-- leaves such a state behind. So a group has a number of its own, and in the end all that counts
-- is which numbers are added.
import Mathlib.Algebra.BigOperators.Group.List.Basic
import Mathlib.Algebra.Order.Field.Rat
import SmallLisp.Proofs.Bound
import SmallLisp.Proofs.Containment
import SmallLisp.Proofs.Refusal
import SmallLisp.Proofs.Repetition
import SmallLisp.Proofs.Summation

namespace SmallLisp

open Run

/-! ## Exact totals -/

namespace Number

/-- The rational that an exact number is. Numbers of other kinds count as zero. -/
def rational : Number → Rat
  | int n => n
  | fraction r => r
  | _ => 0

/-- The number is a whole one by its kind. A fraction is none, whatever its value is. -/
def isInt : Number → Bool
  | int _ => true
  | _ => false

/-- The exact sum of some numbers: it has the sum of their values, and it is a whole number by its
kind if they all are, else a fraction. -/
structure IsSumOf (total : Number) (ns : List Number) : Prop where
  exact : total.IsExact
  rational_eq : total.rational = (ns.map rational).sum
  isInt_eq : total.isInt = ns.all isInt

variable {m n total : Number} {ns : List Number}

theorem IsExact.eq_of_rational_eq (hm : m.IsExact) (hn : n.IsExact)
    (h : m.rational = n.rational) (hi : m.isInt = n.isInt) : m = n := by
  obtain ⟨a, rfl⟩ | ⟨r, rfl⟩ := hm.int_or_fraction <;>
    obtain ⟨b, rfl⟩ | ⟨q, rfl⟩ := hn.int_or_fraction
  · exact congrArg int (Rat.intCast_inj.mp h)
  · cases hi
  · cases hi
  · exact congrArg fraction h

/-- Numbers have one exact sum only. -/
theorem IsSumOf.unique (hm : m.IsSumOf ns) (hn : n.IsSumOf ns) : m = n :=
  hm.exact.eq_of_rational_eq hn.exact (hm.rational_eq.trans hn.rational_eq.symm)
    (hm.isInt_eq.trans hn.isInt_eq.symm)

theorem isSumOf_nil : (int 0).IsSumOf [] := ⟨trivial, rfl, rfl⟩

theorem add_isSumOf (hm : m.IsExact) (hn : n.IsExact) (label : Nat) :
    ∃ sum : Number, m.add label n = .ok sum ∧ sum.IsSumOf [m, n] := by
  obtain ⟨a, rfl⟩ | ⟨r, rfl⟩ := hm.int_or_fraction <;>
    obtain ⟨b, rfl⟩ | ⟨q, rfl⟩ := hn.int_or_fraction <;>
    exact ⟨_, rfl, trivial, by simp [rational], rfl⟩

/-- Numbers that add up to the same: their values have one sum, and its kind is the same. -/
structure AddsAs (ms ns : List Number) : Prop where
  rational_eq : (ms.map rational).sum = (ns.map rational).sum
  isInt_eq : ms.all isInt = ns.all isInt

theorem AddsAs.refl (ns : List Number) : AddsAs ns ns := ⟨rfl, rfl⟩

theorem AddsAs.of_perm {ms ns : List Number} (h : ms.Perm ns) : AddsAs ms ns :=
  ⟨(h.map rational).sum_eq, h.all_eq⟩

theorem AddsAs.append {ms ns ms' ns' : List Number} (h : AddsAs ms ns) (h' : AddsAs ms' ns') :
    AddsAs (ms ++ ms') (ns ++ ns') := by
  constructor
  · simp only [List.map_append, List.sum_append, h.rational_eq, h'.rational_eq]
  · simp only [List.all_append, h.isInt_eq, h'.isInt_eq]

/-- A sum may stand for the numbers that are added in it. -/
theorem IsSumOf.addsAs (h : total.IsSumOf ns) : AddsAs [total] ns := by
  constructor
  · simpa using h.rational_eq
  · simpa using h.isInt_eq

theorem IsSumOf.congr (h : total.IsSumOf ns) {ms : List Number} (hs : AddsAs ns ms) :
    total.IsSumOf ms :=
  ⟨h.exact, h.rational_eq.trans hs.rational_eq, h.isInt_eq.trans hs.isInt_eq⟩

/-- One more number is added to the sum of those before. -/
theorem IsSumOf.add (h : total.IsSumOf ns) (hn : n.IsExact) (label : Nat) :
    ∃ sum : Number, total.add label n = .ok sum ∧ sum.IsSumOf (ns ++ [n]) := by
  obtain ⟨sum, hadd, hsum⟩ := add_isSumOf h.exact hn label
  exact ⟨sum, hadd, hsum.congr (h.addsAs.append (.refl [n]))⟩

end Number

/-! ## Arguments that do not notice one another -/

namespace State.Extends

variable {s t : State} {scope : Nat} {name : String}

theorem refl (hs : s.Sound) : s.Extends s := ⟨hs, le_rfl, le_rfl, fun _ _ => rfl⟩

theorem trail (h : s.Extends t) (trail : Array Event) : s.Extends { t with trail } :=
  ⟨h.sound.trail trail, h.size_le, h.supply_le, h.frame_eq⟩

theorem supply (h : s.Extends t) (count : Nat) :
    s.Extends { t with supply := t.supply + count } :=
  ⟨h.sound.supply count, h.size_le, h.supply_le.trans (Nat.le_add_right _ _), h.frame_eq⟩

/-- A name means the same in all states that extend a state. -/
theorem lookup?_eq (h : s.Extends t) (hs : s.Sound) (he : scope < s.store.size) :
    t.store.lookup? scope name = s.store.lookup? scope name := by
  induction scope using hs.wellFormed.chain_induction with
  | step scope ih =>
    have hframe := h.frame_eq scope he
    have hbindings : t.store.bindings scope = s.store.bindings scope :=
      congrArg Frame.bindings hframe
    have houter : t.store.outer scope = s.store.outer scope := congrArg Frame.outer hframe
    rw [h.sound.wellFormed.lookup?_eq, hs.wellFormed.lookup?_eq, hbindings, houter]
    cases ho : s.store.outer scope with
    | none => rfl
    | some o =>
      simp only [Option.bind_some]
      rw [ih o ho (Nat.lt_trans (hs.wellFormed.outer_lt scope o ho) he)]

end State.Extends

section

variable (registries : Nat → Registry) (machine scope : Nat) (s : State)

/-- In all states that extend `s`, under every bound that is large enough, the node evaluates to
this number and leaves such a state behind. -/
def Steady (node : Value) (n : Number) : Prop :=
  ∃ enough, ∀ bound ≥ enough, ∀ t, s.Extends t →
    ∃ u, evaluate registries bound machine node scope t = .ok (.number n) u ∧ s.Extends u

variable {registries machine scope s} {node : Value} {n : Number}

theorem eq_number_of_alike {L : Likeness} {v : Value} (hn : n.IsExact)
    (h : (Value.number n).Alike L v) : v = .number n := by
  cases h with
  | number h => cases h <;> first | rfl | exact hn.elim

/-- An evaluation that assigns nothing has its number in all states that extend the first one. -/
theorem steady_of_assigns_nothing {bound : Nat} {t : State} (hs : s.Sound) (hnode : s.Holds node)
    (he : scope < s.store.size) (hn : n.IsExact)
    (heval : evaluate registries bound machine node scope s = .ok (.number n) t)
    (hnone : t.assignments = s.assignments) : Steady registries machine scope s node n := by
  refine ⟨bound, fun larger hle t' ht' => ?_⟩
  have hrun := evaluate_of_le hle heval
  have hrepeats : Repeats node scope (evaluate registries larger machine node scope) s t' :=
    repeats_of_extends hs hnode he (by rw [hrun]; exact hnone) ht'
  have hextends := hrepeats.extends hnode he ht'
  obtain ⟨_, _, hends⟩ := hrepeats.alike
  rw [hrun] at hends
  generalize evaluate registries larger machine node scope t' = r at hends hextends
  cases hends with
  | @value _ v _ u hv =>
    rw [eq_number_of_alike hn hv]
    exact ⟨u, rfl, hextends⟩

/-! ## Sums of such arguments -/

/-- Further steady arguments add their numbers to the total, one after the other. -/
theorem sum_of_steady {nodes : List Value} {ns : List Number}
    (h : List.Forall₂ (Steady registries machine scope s) nodes ns) (hns : ∀ n ∈ ns, n.IsExact) :
    ∃ enough, ∀ bound ≥ enough, ∀ t, s.Extends t → ∀ total before, total.IsSumOf before →
      ∃ total' u, Form.sum (evaluate registries bound machine · scope) total nodes t =
        .ok total' u ∧ total'.IsSumOf (before ++ ns) ∧ s.Extends u := by
  induction h with
  | nil =>
    refine ⟨0, fun bound _ t ht total before htotal => ⟨total, t, rfl, ?_, ht⟩⟩
    rwa [List.append_nil]
  | @cons node n nodes ns hnode _ ih =>
    obtain ⟨first, hfirst⟩ := hnode
    obtain ⟨others, hothers⟩ := ih fun m hm => hns m (List.mem_cons_of_mem _ hm)
    refine ⟨max first others, fun bound hb t ht total before htotal => ?_⟩
    obtain ⟨u, heval, hu⟩ := hfirst bound ((Nat.le_max_left ..).trans hb) t ht
    obtain ⟨next, hadd, hnext⟩ := htotal.add (hns n List.mem_cons_self) u.supply
    have hplus : Form.plus total (.number n, u.supply) = .ok next := by
      unfold Form.plus
      dsimp only
      rw [hadd]
    obtain ⟨total', w, hsum, htotal', hw⟩ :=
      hothers bound ((Nat.le_max_right ..).trans hb) _ (hu.supply 2) next _ hnext
    refine ⟨total', w, ?_, ?_, hw⟩
    · rw [Form.sum_cons, bind_of_ok heval, Form.addNext_of_ok hplus, hsum]
    · rwa [List.append_assoc] at htotal'

/-- The sum of steady arguments is steady, and has their exact sum for its number. -/
theorem steady_sum {plus : String} (hs : s.Sound) (he : scope < s.store.size)
    (hplus : (registries machine).lookup? plus = some .add)
    (hfree : ∀ c, s.store.lookup? scope plus ≠ some (.closure c)) (b : Brackets)
    {nodes : List Value} {ns : List Number}
    (h : List.Forall₂ (Steady registries machine scope s) nodes ns) (hns : ∀ n ∈ ns, n.IsExact) :
    ∃ total : Number, total.IsSumOf ns ∧
      Steady registries machine scope s (.list b (.symbol plus :: nodes)) total := by
  obtain ⟨enough, hsum⟩ := sum_of_steady h hns
  have hrun : ∀ bound ≥ enough, ∀ t, s.Extends t → ∃ total : Number, total.IsSumOf ns ∧
      ∃ u, evaluate registries (bound + 1) machine (.list b (.symbol plus :: nodes)) scope t =
        .ok (.number total) u ∧ s.Extends u := by
    intro bound hb t ht
    have hfree' : ∀ c, t.store.lookup? scope plus ≠ some (.closure c) := by
      rwa [ht.lookup?_eq hs he]
    obtain ⟨total, u, hrun, htotal, hu⟩ :=
      hsum bound hb _ (ht.trail _) (.int 0) [] Number.isSumOf_nil
    refine ⟨total, htotal, u, ?_, hu⟩
    rw [evaluate_invocation registries bound machine nodes
      (.named (s := { t with trail := _ }) hfree' hplus)]
    exact bind_of_ok hrun
  obtain ⟨total, htotal, _⟩ := hrun enough le_rfl s (.refl hs)
  refine ⟨total, htotal, enough + 1, fun larger hle t ht => ?_⟩
  obtain ⟨bound, rfl⟩ : ∃ bound, larger = bound + 1 := ⟨larger - 1, by omega⟩
  obtain ⟨total', htotal', hrun'⟩ := hrun bound (by omega) t ht
  rwa [htotal'.unique htotal] at hrun'

end

/-! ## Groups -/

/-- The second list has the nodes of the first one in their order, as they stand or within sums of
consecutive ones; a group may have groups in it, and may be empty. -/
inductive Regroups (plus : String) : List Value → List Value → Prop
  | nil : Regroups plus [] []
  | node (node : Value) {nodes grouped : List Value} (h : Regroups plus nodes grouped) :
      Regroups plus (node :: nodes) (node :: grouped)
  | group (b : Brackets) {inner grouped nodes rest : List Value}
      (hinner : Regroups plus inner grouped) (hrest : Regroups plus nodes rest) :
      Regroups plus (inner ++ nodes) (.list b (.symbol plus :: grouped) :: rest)

namespace Regroups

variable {plus : String}

theorem refl (nodes : List Value) : Regroups plus nodes nodes := by
  induction nodes with
  | nil => exact .nil
  | cons node nodes ih => exact .node node ih

/-- The arguments that a grouping leaves are steady again, and their numbers have the same sum. -/
theorem steady {registries : Nat → Registry} {machine scope : Nat} {s : State} (hs : s.Sound)
    (he : scope < s.store.size) (hplus : (registries machine).lookup? plus = some .add)
    (hfree : ∀ c, s.store.lookup? scope plus ≠ some (.closure c)) {value : Value → Number}
    {nodes grouped : List Value} (h : Regroups plus nodes grouped)
    (hnodes : ∀ node ∈ nodes, (value node).IsExact ∧
      Steady registries machine scope s node (value node)) :
    ∃ ns, List.Forall₂ (Steady registries machine scope s) grouped ns ∧
      (∀ n ∈ ns, n.IsExact) ∧
      Number.AddsAs ns (nodes.map value) := by
  induction h with
  | nil => exact ⟨[], .nil, nofun, .refl []⟩
  | @node node nodes grouped _ ih =>
    obtain ⟨ns, hsteady, hns, hsum⟩ := ih fun m hm => hnodes m (List.mem_cons_of_mem _ hm)
    obtain ⟨hexact, hnode⟩ := hnodes node List.mem_cons_self
    exact ⟨value node :: ns, .cons hnode hsteady, List.forall_mem_cons.mpr ⟨hexact, hns⟩,
      (Number.AddsAs.refl [value node]).append hsum⟩
  | @group b inner grouped nodes rest _ _ ihinner ihrest =>
    obtain ⟨ms, hgrouped, hms, hinner⟩ := ihinner fun m hm => hnodes m (List.mem_append_left _ hm)
    obtain ⟨ns, hrest, hns, hsum⟩ := ihrest fun m hm => hnodes m (List.mem_append_right _ hm)
    obtain ⟨m, hm, hgroup⟩ := steady_sum hs he hplus hfree b hgrouped hms
    refine ⟨m :: ns, .cons hgroup hrest, List.forall_mem_cons.mpr ⟨hm.exact, hns⟩, ?_⟩
    rw [List.map_append]
    exact (hm.congr hinner).addsAs.append hsum

end Regroups

/-- In every session that a host can reach, for arguments that have exact numbers and assign
nothing: wherever a name that is bound to no closure stands for addition, their exact sum is what
the addition gives, in any order of the arguments and in any grouping of consecutive ones. It is the
same number of the same kind each time, and no frame that there was is changed. -/
theorem sums_are_exact_in_every_order_and_grouping {session : Session} (h : session.Reachable)
    {machine scope : Nat} {plus : String} (he : scope < session.store.size)
    (hplus : (session.registries machine).lookup? plus = some .add)
    (hfree : ∀ c, session.store.lookup? scope plus ≠ some (.closure c)) {nodes : List Value}
    (value : Value → Number)
    (hnodes : ∀ node ∈ nodes, session.state.Holds node ∧ (value node).IsExact ∧
      ∃ bound t, evaluate session.registries bound machine node scope session.state =
        .ok (.number (value node)) t ∧ t.assignments = session.state.assignments) :
    ∃ total : Number, total.IsSumOf (nodes.map value) ∧
      ∀ ordered grouped, ordered.Perm nodes → Regroups plus ordered grouped → ∀ b,
        ∃ enough, ∀ bound ≥ enough, ∃ t,
          evaluate session.registries bound machine (.list b (.symbol plus :: grouped)) scope
            session.state = .ok (.number total) t ∧
          ∀ f < session.store.size, t.store.frame f = session.store.frame f := by
  have hs := h.sound.state
  have hsteady : ∀ node ∈ nodes, (value node).IsExact ∧
      Steady session.registries machine scope session.state node (value node) := by
    intro node hm
    obtain ⟨hnode, hexact, bound, t, heval, hnone⟩ := hnodes node hm
    exact ⟨hexact, steady_of_assigns_nothing hs hnode he hexact heval hnone⟩
  have hgrouped : ∀ {ordered grouped}, ordered.Perm nodes → Regroups plus ordered grouped → ∀ b,
      ∃ total : Number, total.IsSumOf (nodes.map value) ∧
        Steady session.registries machine scope session.state
          (.list b (.symbol plus :: grouped)) total := by
    intro ordered grouped hperm hgroup b
    obtain ⟨ns, hns, hexact, hsum⟩ :=
      hgroup.steady hs he hplus hfree fun node hm => hsteady node (hperm.mem_iff.mp hm)
    obtain ⟨total, htotal, hrun⟩ := steady_sum hs he hplus hfree b hns hexact
    exact ⟨total, (htotal.congr hsum).congr (.of_perm (hperm.map value)), hrun⟩
  obtain ⟨total, htotal, _⟩ := hgrouped .rfl (.refl nodes) .round
  refine ⟨total, htotal, fun ordered grouped hperm hgroup b => ?_⟩
  obtain ⟨total', htotal', enough, hrun⟩ := hgrouped hperm hgroup b
  rw [htotal'.unique htotal] at hrun
  refine ⟨enough, fun bound hb => ?_⟩
  obtain ⟨t, heval, hextends⟩ := hrun bound hb _ (.refl hs)
  exact ⟨t, heval, hextends.frame_eq⟩

/-- A whole number, a fraction and a call, summed in another order and in groups, one of which is
empty. -/
theorem a_half_is_kept_in_nested_sums :
    let one : Value := .number (.int 1)
    let half : Value := .number (.fraction (1 / 2))
    let call : Value := .ofList [.ofList [.symbol "lambda", .ofList [.symbol "x"], .symbol "x"],
      .number (.int 2)]
    let session := (Session.empty.perform 0 (.interpreter none none)).2
    let program : Value := .ofList [.symbol "+", .ofList [.symbol "+", .ofList [.symbol "+"], call,
      .ofList [.symbol "+", one]], half]
    session.Reachable ∧ Regroups "+" [call, one, half] [.ofList [.symbol "+", .ofList [.symbol "+"],
        call, .ofList [.symbol "+", one]], half] ∧
      ∃ enough, ∀ bound ≥ enough, ∃ t, evaluate session.registries bound 0 program 0 session.state =
        .ok (.number (.fraction (7 / 2))) t ∧
          ∀ f < session.store.size, t.store.frame f = session.store.frame f := by
  intro one half call session program
  have hreach : session.Reachable := .perform .empty 0 trivial
  have hgroup : Regroups "+" (([] ++ (call :: ([one] ++ []))) ++ [half]) _ :=
    .group .square (.group .square .nil (.node call (.group .square (.node one .nil) .nil)))
      (.node half .nil)
  let value (node : Value) : Number := node.asNumber?.getD (.int 2)
  have hnodes : ∀ node ∈ [one, half, call], session.state.Holds node ∧ (value node).IsExact ∧
      ∃ bound t, evaluate session.registries bound 0 node 0 session.state =
        .ok (.number (value node)) t ∧ t.assignments = session.state.assignments := by
    intro node hm
    simp only [List.mem_cons, List.not_mem_nil, or_false] at hm
    rcases hm with rfl | rfl | rfl
    · exact ⟨by simp [one, Number.labels], trivial, 1, _, rfl, by decide⟩
    · exact ⟨by simp [half, Number.labels], trivial, 1, _, rfl, by decide⟩
    · exact ⟨by simp [call, Number.labels], trivial, 4, _, rfl, by decide⟩
  have hunbound : session.store.lookup? 0 "+" = none := rfl
  obtain ⟨total, htotal, hsums⟩ := sums_are_exact_in_every_order_and_grouping hreach
    (show 0 < session.store.size by decide)
    (show (session.registries 0).lookup? "+" = some .add from rfl) (by simp [hunbound]) value hnodes
  have hvalue : (Number.fraction (7 / 2)).IsSumOf ([one, half, call].map value) :=
    ⟨trivial, by decide +kernel, rfl⟩
  rw [htotal.unique hvalue] at hsums
  have hperm : [call, one, half].Perm [one, half, call] :=
    (List.perm_append_singleton call [one, half]).symm
  exact ⟨hreach, hgroup, hsums _ _ hperm hgroup .square⟩

end SmallLisp
