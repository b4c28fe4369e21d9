-- What a lawful correspondence gives. Every operation respects it, one lemma for each, and so do
-- application and evaluation, by induction on the bound: from corresponding states,
-- corresponding calls of the evaluator end alike.
import SmallLisp.Proofs.Correspondence

namespace SmallLisp

open Run

namespace Correspondence

variable {W : Type} [Preorder W] {C : Correspondence W} {registries registries' : Nat → Registry}
  {w : W} {e e' m m' : Nat} {eval eval' : Value → Run Value}

/-! ## Sequences of nodes -/

theorem Lawful.evaluateEach (hC : C.Lawful registries registries') {ns ns' : List Value}
    (hev : C.EvaluatesAlike registries w e e' eval eval') (hn : C.nodes w e e' ns ns') :
    (C.bond registries).Coupled (fun w vs vs' => List.Forall₂ (C.value w) vs vs' ∧
      vs.length = ns.length) w (evaluateEach eval ns) (evaluateEach eval' ns') := by
  induction ns generalizing w ns' with
  | nil =>
    cases hn
    exact Bond.coupled_pure ⟨.nil, rfl⟩
  | cons n ns ih =>
    cases hn with
    | cons hn hns =>
      refine (hev w le_rfl _ _ hn).bind fun w1 v v' h1 hv => ?_
      refine (ih (hev.mono h1) (hC.nodes_mono h1 hns)).bind fun w2 vs vs' h2 hvs => ?_
      exact Bond.coupled_pure ⟨.cons (hC.value_mono h2 hv) hvs.1, by simp [hvs.2]⟩

theorem Lawful.evaluateInTurn (hC : C.Lawful registries registries') {ns ns' : List Value}
    {last last' : Value} (hev : C.EvaluatesAlike registries w e e' eval eval')
    (hl : C.value w last last') (hn : C.nodes w e e' ns ns') :
    (C.bond registries).Coupled C.value w (evaluateInTurn eval last ns)
      (evaluateInTurn eval' last' ns') := by
  induction ns generalizing w ns' last last' with
  | nil =>
    cases hn
    exact Bond.coupled_pure hl
  | cons n ns ih =>
    cases hn with
    | cons hn hns =>
      exact (hev w le_rfl _ _ hn).bind fun w1 v v' h1 hv =>
        ih (hev.mono h1) hv (hC.nodes_mono h1 hns)

/-! ## The built-in operations -/

theorem Lawful.addTo (hC : C.Lawful registries registries') {total total' n n' : Number}
    (ht : total.Alike (C.like w).label total') (hn : n.Alike (C.like w).label n') :
    (C.bond registries).Coupled (fun w a a' => a.Alike (C.like w).label a') w
      (Form.addTo total n) (Form.addTo total' n') := by
  refine (hC.labels w).bind fun w1 l l' h1 hl => ?_
  have ht1 := ht.mono (hC.label_mono h1)
  have hn1 := hn.mono (hC.label_mono h1)
  have hsum := ht1.add hl.1 hl.2 hn1
  generalize hr : total.add l n = r at hsum ⊢
  generalize total'.add l' n' = r' at hsum ⊢
  cases hsum with
  | ok h => exact Bond.coupled_pure h
  | error cause => exact coupled_fail (.sum l hn1 ht1 hr)

theorem Lawful.sum (hC : C.Lawful registries registries')
    (hev : C.EvaluatesAlike registries w e e' eval eval') {total total' : Number}
    (ht : total.Alike (C.like w).label total') {ns ns' : List Value} (hn : C.nodes w e e' ns ns') :
    (C.bond registries).Coupled (fun w a a' => a.Alike (C.like w).label a') w
      (Form.sum eval total ns) (Form.sum eval' total' ns') := by
  induction ns generalizing w ns' total total' with
  | nil =>
    cases hn
    exact Bond.coupled_pure ht
  | cons n ns ih =>
    cases hn with
    | cons hn hns =>
      refine (hev w le_rfl _ _ hn).bind fun w1 v v' h1 hv => ?_
      cases hv with
      | number hv =>
        refine (hC.addTo (ht.mono (hC.label_mono h1)) hv).bind fun w2 a a' h2 ha => ?_
        exact ih (hev.mono (h1.trans h2)) ha (hC.nodes_mono (h1.trans h2) hns)
      | nil => exact coupled_fail (.notANumber .nil)
      | null => exact coupled_fail (.notANumber .null)
      | bool b => exact coupled_fail (.notANumber (.bool b))
      | symbol name => exact coupled_fail (.notANumber (.symbol name))
      | list b h => exact coupled_fail (.notANumber (.list b h))
      | closure id params body tie =>
        exact coupled_fail (.notANumber (.closure id params body tie))
      | host kind parts => exact coupled_fail (.notANumber (.host kind parts))

theorem itemsOf_coupled (operation : Builtin) {v v' : Value} (hv : C.value w v v') :
    (C.bond registries).Coupled (fun w => List.Forall₂ (C.value w)) w
      (Form.itemsOf operation v) (Form.itemsOf operation v') := by
  cases hv with
  | nil => exact Bond.coupled_pure .nil
  | list b h => exact Bond.coupled_pure h
  | null => exact coupled_fail (.notAList _ .null)
  | bool b => exact coupled_fail (.notAList _ (.bool b))
  | number h => exact coupled_fail (.notAList _ (.number h))
  | symbol name => exact coupled_fail (.notAList _ (.symbol name))
  | closure id params body tie => exact coupled_fail (.notAList _ (.closure id params body tie))
  | host kind parts => exact coupled_fail (.notAList _ (.host kind parts))

theorem car_coupled (hev : C.EvaluatesAlike registries w e e' eval eval') {ns ns' : List Value}
    (hn : C.nodes w e e' ns ns') :
    (C.bond registries).Coupled C.value w (Form.car eval ns) (Form.car eval' ns') := by
  match ns, ns', hn with
  | [], [], _ => exact coupled_fail (.argumentCount _)
  | [n], [n'], .cons hn .nil =>
    refine (hev w le_rfl _ _ hn).bind fun w1 v v' h1 hv => ?_
    refine (itemsOf_coupled .car hv).bind fun w2 vs vs' h2 hvs => ?_
    exact Bond.coupled_pure (Value.alike_head hvs)
  | _ :: _ :: _, _ :: _ :: _, _ => exact coupled_fail (.argumentCount _)

theorem listOrNil_alike {L : Likeness} {vs vs' : List Value}
    (h : List.Forall₂ (Value.Alike L) vs vs') :
    (Form.listOrNil vs).Alike L (Form.listOrNil vs') := by
  cases h with
  | nil => exact .nil
  | cons h hs => exact .list .square (.cons h hs)

theorem cdr_coupled (hev : C.EvaluatesAlike registries w e e' eval eval') {ns ns' : List Value}
    (hn : C.nodes w e e' ns ns') :
    (C.bond registries).Coupled C.value w (Form.cdr eval ns) (Form.cdr eval' ns') := by
  match ns, ns', hn with
  | [], [], _ => exact coupled_fail (.argumentCount _)
  | [n], [n'], .cons hn .nil =>
    refine (hev w le_rfl _ _ hn).bind fun w1 v v' h1 hv => ?_
    refine (itemsOf_coupled .cdr hv).bind fun w2 vs vs' h2 hvs => ?_
    exact Bond.coupled_pure (listOrNil_alike (Value.forall₂_tail hvs))
  | _ :: _ :: _, _ :: _ :: _, _ => exact coupled_fail (.argumentCount _)

theorem Lawful.quote (hC : C.Lawful registries registries') {ns ns' : List Value}
    (hn : C.nodes w e e' ns ns') :
    (C.bond registries).Coupled C.value w (Form.quote ns) (Form.quote ns') := by
  match ns, ns', hn with
  | [], [], _ => exact coupled_fail (.argumentCount _)
  | [n], [n'], .cons hn .nil => exact Bond.coupled_pure (hC.node_alike hn)
  | _ :: _ :: _, _ :: _ :: _, _ => exact coupled_fail (.argumentCount _)

theorem Lawful.cons (hC : C.Lawful registries registries')
    (hev : C.EvaluatesAlike registries w e e' eval eval') {ns ns' : List Value}
    (hn : C.nodes w e e' ns ns') :
    (C.bond registries).Coupled C.value w (Form.cons eval ns) (Form.cons eval' ns') := by
  match ns, ns', hn with
  | [], [], _ | [_], [_], _ => exact coupled_fail (.argumentCount _)
  | [a, n], [a', n'], .cons ha (.cons hn .nil) =>
    refine (hev w le_rfl _ _ hn).bind fun w1 v v' h1 hv => ?_
    have ha1 := hC.value_mono h1 (hC.node_alike ha)
    exact Bond.coupled_pure (.list .square (.cons ha1 (.cons hv .nil)))
  | _ :: _ :: _ :: _, _ :: _ :: _ :: _, _ => exact coupled_fail (.argumentCount _)

theorem Lawful.choose (hC : C.Lawful registries registries')
    (hev : C.EvaluatesAlike registries w e e' eval eval') {ns ns' : List Value}
    (hn : C.nodes w e e' ns ns') :
    (C.bond registries).Coupled C.value w (Form.choose eval ns) (Form.choose eval' ns') := by
  match ns, ns', hn with
  | [], [], _ | [_], [_], _ | [_, _], [_, _], _ => exact coupled_fail (.argumentCount _)
  | [c, y, n], [c', y', n'], .cons hc (.cons hy (.cons hn .nil)) =>
    refine (hev w le_rfl _ _ hc).bind fun w1 v v' h1 hv => ?_
    rw [hv.isNil_eq]
    split
    · exact hev w1 h1 _ _ (hC.node_mono h1 _ _ _ _ hn)
    · exact hev w1 h1 _ _ (hC.node_mono h1 _ _ _ _ hy)
  | _ :: _ :: _ :: _ :: _, _ :: _ :: _ :: _ :: _, _ => exact coupled_fail (.argumentCount _)

theorem Lawful.assignForm (hC : C.Lawful registries registries') (he : C.scope w e e')
    (hev : C.EvaluatesAlike registries w e e' eval eval') {ns ns' : List Value}
    (hn : C.nodes w e e' ns ns') :
    (C.bond registries).Coupled C.value w (Form.assign eval e ns) (Form.assign eval' e' ns') := by
  match ns, ns', hn with
  | [], [], _ | [_], [_], _ => exact coupled_fail (.argumentCount _)
  | [a, n], [a', n'], .cons ha (.cons hn .nil) =>
    refine (hev w le_rfl _ _ ha).bind fun w1 x x' h1 hx => ?_
    refine (hev w1 h1 _ _ (hC.node_mono h1 _ _ _ _ hn)).bind fun w2 v v' h2 hv => ?_
    have he2 := hC.scope_mono (h1.trans h2) _ _ he
    have hx2 := hC.value_mono h2 hx
    cases hx2 with
    | symbol name =>
      exact (hC.assign name he2 hv).bind fun w3 _ _ h3 _ =>
        Bond.coupled_pure (hC.value_mono h3 hv)
    | nil => exact coupled_fail (.unassignable .nil)
    | null => exact coupled_fail (.unassignable .null)
    | bool b => exact coupled_fail (.unassignable (.bool b))
    | number h => exact coupled_fail (.unassignable (.number h))
    | list b h => exact coupled_fail (.unassignable (.list b h))
    | closure id params body tie =>
      exact coupled_fail (.unassignable (.closure id params body tie))
    | host kind parts => exact coupled_fail (.unassignable (.host kind parts))
  | _ :: _ :: _ :: _, _ :: _ :: _ :: _, _ => exact coupled_fail (.argumentCount _)

theorem Lawful.equal (hC : C.Lawful registries registries')
    (hev : C.EvaluatesAlike registries w e e' eval eval') {ns ns' : List Value}
    (hn : C.nodes w e e' ns ns') :
    (C.bond registries).Coupled C.value w (Form.equal eval ns) (Form.equal eval' ns') := by
  match ns, ns', hn with
  | [], [], _ | [_], [_], _ => exact coupled_fail (.argumentCount _)
  | [a, n], [a', n'], .cons ha (.cons hn .nil) =>
    refine (hev w le_rfl _ _ ha).bind fun w1 x x' h1 hx => ?_
    refine (hev w1 h1 _ _ (hC.node_mono h1 _ _ _ _ hn)).bind fun w2 v v' h2 hv => ?_
    have hx2 := hC.value_mono h2 hx
    rw [← hx2.equal_eq (hC.oneToOne w2) hv]
    cases hq : x.equal v with
    | none => exact coupled_fail (.undecided hx2 hv hq)
    | some same =>
      cases same with
      | true => exact Bond.coupled_pure (.bool true)
      | false => exact Bond.coupled_pure .nil
  | _ :: _ :: _ :: _, _ :: _ :: _ :: _, _ => exact coupled_fail (.argumentCount _)

/-- Alike items name the same parameters, or fail at the same one. -/
theorem symbolNames_alike {L : Likeness} {vs vs' : List Value}
    (h : List.Forall₂ (Value.Alike L) vs vs') :
    (∃ ps, Form.symbolNames vs = .ok ps ∧ Form.symbolNames vs' = .ok ps) ∨
      ∃ f f', Form.symbolNames vs = .error f ∧ Form.symbolNames vs' = .error f' ∧
        Raised L registries f f' := by
  induction h with
  | nil => exact .inl ⟨[], rfl, rfl⟩
  | cons hv _ ih =>
    cases hv with
    | symbol name =>
      rcases ih with ⟨ps, h, h'⟩ | ⟨f, f', h, h', hf⟩
      · exact .inl ⟨name :: ps, by rw [Form.symbolNames, h]; rfl,
          by rw [Form.symbolNames, h']; rfl⟩
      · exact .inr ⟨f, f', by rw [Form.symbolNames, h]; rfl,
          by rw [Form.symbolNames, h']; rfl, hf⟩
    | nil => exact .inr ⟨_, _, rfl, rfl, .parameterNotSymbol .nil⟩
    | null => exact .inr ⟨_, _, rfl, rfl, .parameterNotSymbol .null⟩
    | bool b => exact .inr ⟨_, _, rfl, rfl, .parameterNotSymbol (.bool b)⟩
    | number h => exact .inr ⟨_, _, rfl, rfl, .parameterNotSymbol (.number h)⟩
    | list b h => exact .inr ⟨_, _, rfl, rfl, .parameterNotSymbol (.list b h)⟩
    | closure id params body tie =>
      exact .inr ⟨_, _, rfl, rfl, .parameterNotSymbol (.closure id params body tie)⟩
    | host kind parts => exact .inr ⟨_, _, rfl, rfl, .parameterNotSymbol (.host kind parts)⟩

theorem parameters_alike {L : Likeness} {v v' : Value} (hv : v.Alike L v') :
    (∃ ps, Form.parameters v = .ok ps ∧ Form.parameters v' = .ok ps) ∨
      ∃ f f', Form.parameters v = .error f ∧ Form.parameters v' = .error f' ∧
        Raised L registries f f' := by
  cases hv with
  | list b h => exact symbolNames_alike h
  | nil | null => exact .inl ⟨[], rfl, rfl⟩
  | bool b => exact .inr ⟨_, _, rfl, rfl, .parametersNotList (.bool b)⟩
  | number h => exact .inr ⟨_, _, rfl, rfl, .parametersNotList (.number h)⟩
  | symbol name => exact .inr ⟨_, _, rfl, rfl, .parametersNotList (.symbol name)⟩
  | closure id params body tie =>
    exact .inr ⟨_, _, rfl, rfl, .parametersNotList (.closure id params body tie)⟩
  | host kind parts => exact .inr ⟨_, _, rfl, rfl, .parametersNotList (.host kind parts)⟩

theorem parameters_coupled {v v' : Value} (hv : C.value w v v') :
    (C.bond registries).Coupled (fun _ ps ps' => ps = ps') w
      (ofExcept (Form.parameters v)) (ofExcept (Form.parameters v')) := by
  rcases parameters_alike hv with ⟨ps, h, h'⟩ | ⟨f, f', h, h', hf⟩
  · rw [h, h']
    exact Bond.coupled_pure rfl
  · rw [h, h']
    exact coupled_fail hf

theorem Lawful.lambda (hC : C.Lawful registries registries') (he : C.scope w e e')
    (hm : C.machine m m') {ns ns' : List Value} (hn : C.nodes w e e' ns ns') :
    (C.bond registries).Coupled C.value w (Form.lambda m e ns) (Form.lambda m' e' ns') := by
  match ns, ns', hn with
  | [], [], _ => exact coupled_fail (.argumentCount _)
  | p :: body, p' :: body', .cons hp hb =>
    refine (parameters_coupled (hC.node_alike hp)).bind fun w1 ps ps' h1 hps => ?_
    subst hps
    refine (hC.makeClosure ps (hC.scope_mono h1 _ _ he) hm (hC.nodes_mono h1 hb)).bind
      fun w2 c c' _ hc => ?_
    exact Bond.coupled_pure hc

/-- Every built-in operation respects the correspondence. -/
theorem Lawful.operation (hC : C.Lawful registries registries') (he : C.scope w e e')
    (hm : C.machine m m') (hev : C.EvaluatesAlike registries w e e' eval eval')
    (operation : Builtin) {ns ns' : List Value} (hn : C.nodes w e e' ns ns') :
    (C.bond registries).Coupled C.value w (operation.run eval m e ns)
      (operation.run eval' m' e' ns') := by
  cases operation with
  | add =>
    exact (hC.sum hev (.int 0) hn).bind fun _ _ _ _ h => Bond.coupled_pure (.number h)
  | car => exact car_coupled hev hn
  | cdr => exact cdr_coupled hev hn
  | quote => exact hC.quote hn
  | cons => exact hC.cons hev hn
  | choose => exact hC.choose hev hn
  | assign => exact hC.assignForm he hev hn
  | equal => exact hC.equal hev hn
  | lambda => exact hC.lambda he hm hn

/-! ## Calls, application and evaluation -/

/-- Two evaluations that are alike for all corresponding machines, scopes and nodes. -/
def EvaluationsAlike (C : Correspondence W) (registries : Nat → Registry)
    (eval eval' : Evaluation) : Prop :=
  ∀ w m m' e e', C.machine m m' → C.scope w e e' →
    C.EvaluatesAlike registries w e e' (eval m · e) (eval' m' · e')

variable {evals evals' : Evaluation}

theorem Lawful.invoke (hC : C.Lawful registries registries')
    (hev : C.EvaluationsAlike registries evals evals') (he : C.scope w e e') {c c' : Closure Value}
    (hc : C.value w (.closure c) (.closure c')) {ns ns' : List Value}
    (hn : C.nodes w e e' ns ns') :
    (C.bond registries).Coupled C.value w (c.invoke evals ns e) (c'.invoke evals' ns' e') := by
  obtain ⟨hps, hm⟩ : c.params = c'.params ∧ C.machine c.machine c'.machine := by
    cases hc with
    | closure _ params _ tie => exact ⟨params, hC.machine_of_tie tie⟩
  by_cases hlen : ns.length = c.params.length
  · have hlen' : ns'.length = c'.params.length := by rw [← hps, ← hlen, hn.length_eq]
    rw [c.invoke_eq _ _ _ hlen, c'.invoke_eq _ _ _ hlen']
    refine (hC.evaluateEach (hev w _ _ _ _ hm he) hn).bind fun w1 vs vs' h1 hvs => ?_
    refine (hC.enter (hC.value_mono h1 hc) (hvs.2.trans hlen) hvs.1).bind
      fun w2 f f' h2 hf => ?_
    exact hC.evaluateInTurn (hev w2 _ _ _ _ hm hf.1) .nil hf.2
  · have hlen' : ns'.length ≠ c'.params.length := by rwa [← hps, ← hn.length_eq]
    rw [c.invoke_of_ne _ _ _ hlen, c'.invoke_of_ne _ _ _ hlen', ← hps, ← hn.length_eq]
    exact coupled_fail (.callCount _ _)

/-- The stores of corresponding states, by what look-ups give. -/
theorem Lawful.store (hC : C.Lawful registries registries') (w : W) :
    (C.bond registries).Coupled (fun w s s' => ∀ e e' name, C.scope w e e' →
      Option.Rel (C.value w) (s.lookup? e name) (s'.lookup? e' name)) w store store :=
  fun _ _ hs => .ok le_rfl hs fun _ _ name he => hC.lookup name hs he

/-- A symbol in operator position that is bound to no closure. -/
theorem Lawful.builtin (hC : C.Lawful registries registries')
    (hev : C.EvaluationsAlike registries evals evals') (he : C.scope w e e')
    (hm : C.machine m m') (name : String) {ns ns' : List Value} (hn : C.nodes w e e' ns ns') :
    (C.bond registries).Coupled C.value w
      (match (registries m).lookup? name with
        | some operation => operation.run (evals m · e) m e ns
        | none => fail (.undefinedOperation (.symbol name)))
      (match (registries' m').lookup? name with
        | some operation => operation.run (evals' m' · e') m' e' ns'
        | none => fail (.undefinedOperation (.symbol name))) := by
  rcases hC.registry hm name with h | ⟨h, hx⟩
  · rw [← h]
    cases hl : (registries m).lookup? name with
    | some operation => exact hC.operation he hm (hev w _ _ _ _ hm he) operation hn
    | none =>
      refine coupled_fail (.undefinedOperation (.symbol name) (by simp) ?_)
      intro name' hname
      cases hname
      exact ⟨m, hl⟩
  · rw [h]
    exact Bond.coupled_throw_excused hx

theorem Lawful.operate (hC : C.Lawful registries registries')
    (hev : C.EvaluationsAlike registries evals evals') (he : C.scope w e e')
    (hm : C.machine m m') {v v' : Value} (hv : C.value w v v') {ns ns' : List Value}
    (hns : C.nodes w e e' ns ns') :
    (C.bond registries).Coupled C.value w (operate registries evals m ns e v)
      (operate registries' evals' m' ns' e' v') := by
  cases hv with
  | closure id params body tie => exact hC.invoke hev he (.closure id params body tie) hns
  | symbol name =>
    refine (hC.dispatched w name).bind fun w1 _ _ h1 _ => ?_
    refine (hC.store w1).bind fun w2 s s' h2 hs => ?_
    have he2 := hC.scope_mono (h1.trans h2) _ _ he
    have hns2 := hC.nodes_mono (h1.trans h2) hns
    have hb := hC.builtin hev he2 hm name hns2
    have hl := hs _ _ name he2
    generalize s.lookup? e name = l at hl ⊢
    generalize s'.lookup? e' name = l' at hl ⊢
    cases hl with
    | none => exact hb
    | some hv =>
      cases hv with
      | closure id params body tie => exact hC.invoke hev he2 (.closure id params body tie) hns2
      | _ => exact hb
  | nil => exact coupled_fail (.undefinedOperation .nil (by simp) (by simp))
  | null => exact coupled_fail (.undefinedOperation .null (by simp) (by simp))
  | bool b => exact coupled_fail (.undefinedOperation (.bool b) (by simp) (by simp))
  | number h => exact coupled_fail (.undefinedOperation (.number h) (by simp) (by simp))
  | list b h => exact coupled_fail (.undefinedOperation (.list b h) (by simp) (by simp))
  | host kind parts =>
    exact coupled_fail (.undefinedOperation (.host kind parts) (by simp) (by simp))

theorem Lawful.applyWith (hC : C.Lawful registries registries')
    (hev : C.EvaluationsAlike registries evals evals') (he : C.scope w e e')
    (hm : C.machine m m') {n n' : Value} (hn : C.node w n e n' e') {ns ns' : List Value}
    (hns : C.nodes w e e' ns ns') :
    (C.bond registries).Coupled C.value w (applyWith registries evals m n ns e)
      (applyWith registries' evals' m' n' ns' e') := by
  have hop : (C.bond registries).Coupled C.value w
      (if n.isList then evals m n e else pure n) (if n'.isList then evals' m' n' e' else pure n') := by
    rw [(hC.node_alike hn).isList_eq]
    split
    · exact hev w _ _ _ _ hm he w le_rfl _ _ hn
    · exact Bond.coupled_pure (hC.node_alike hn)
  rw [applyWith_eq, applyWith_eq]
  exact hop.bind fun w1 v v' h1 hv =>
    hC.operate hev (hC.scope_mono h1 _ _ he) hm hv (hC.nodes_mono h1 hns)

theorem Lawful.evaluateWith (hC : C.Lawful registries registries')
    (hev : C.EvaluationsAlike registries evals evals') :
    C.EvaluationsAlike registries (evaluateWith registries evals)
      (evaluateWith registries' evals') := by
  intro w m m' e e' hm he w0 h0 n n' hn
  have he0 := hC.scope_mono h0 _ _ he
  unfold SmallLisp.evaluateWith
  refine (hC.evaluated hm he0 hn).bind fun w1 _ _ h1 _ => ?_
  have he1 := hC.scope_mono h1 _ _ he0
  have hn1 := hC.node_mono h1 _ _ _ _ hn
  cases hC.node_alike hn with
  | nil | null => exact Bond.coupled_pure .nil
  | symbol name =>
    refine (hC.store w1).bind fun w2 s s' h2 hs => ?_
    have hl := hs _ _ name (hC.scope_mono h2 _ _ he1)
    generalize s.lookup? e name = l at hl ⊢
    generalize s'.lookup? e' name = l' at hl ⊢
    cases hl with
    | none => exact Bond.coupled_pure (.symbol name)
    | some hv => exact Bond.coupled_pure hv
  | bool b => exact Bond.coupled_pure (.bool b)
  | number _ | closure _ _ _ _ => exact Bond.coupled_pure (hC.node_alike hn1)
  | list b h =>
    cases h with
    | nil => exact Bond.coupled_pure .nil
    | cons _ _ =>
      cases hC.node_items hn1 with
      | cons hhead htail => exact hC.applyWith hev he1 hm hhead htail
  | host kind parts => exact coupled_fail (.notANode (.host kind parts))

/-- Evaluation respects the correspondence, however deep evaluations nest. -/
theorem Lawful.evaluate (hC : C.Lawful registries registries') (bound : Nat) :
    C.EvaluationsAlike registries (evaluate registries bound) (evaluate registries' bound) := by
  induction bound with
  | zero => exact fun _ _ _ _ _ _ _ _ _ _ _ _ => Bond.coupled_throw .exhausted
  | succ bound ih => exact hC.evaluateWith ih

/-- Entries of two runs that stand for each other. -/
inductive Entries (C : Correspondence W) (w : W) : Entry → Entry → Prop
  | evaluate {m m' e e' : Nat} {n n' : Value} (hm : C.machine m m') (he : C.scope w e e')
      (hn : C.node w n e n' e') : Entries C w (.evaluate m n e) (.evaluate m' n' e')
  | apply {m m' e e' : Nat} {n n' : Value} {ns ns' : List Value} (hm : C.machine m m') (he : C.scope w e e')
      (hn : C.node w n e n' e') (hns : C.nodes w e e' ns ns') :
      Entries C w (.apply m n ns e) (.apply m' n' ns' e')
  | form {m m' e e' : Nat} (operation : Builtin) {ns ns' : List Value} (hm : C.machine m m')
      (he : C.scope w e e') (hns : C.nodes w e e' ns ns') :
      Entries C w (.form operation m ns e) (.form operation m' ns' e')
  | invoke {e e' : Nat} {c c' : Closure Value} {ns ns' : List Value} (he : C.scope w e e')
      (hc : C.value w (.closure c) (.closure c')) (hns : C.nodes w e e' ns ns') :
      Entries C w (.invoke c ns e) (.invoke c' ns' e')

/-- Whatever way the evaluator is entered, corresponding runs end alike. -/
theorem Lawful.entry (hC : C.Lawful registries registries') (bound : Nat) {x x' : Entry}
    (hx : C.Entries w x x') :
    (C.bond registries).Coupled C.value w (x.run registries bound) (x'.run registries' bound) := by
  have hev := hC.evaluate bound
  cases hx with
  | evaluate hm he hn => exact hev w _ _ _ _ hm he w le_rfl _ _ hn
  | apply hm he hn hns => exact hC.applyWith hev he hm hn hns
  | form operation hm he hns => exact hC.operation he hm (hev w _ _ _ _ hm he) operation hns
  | invoke he hc hns => exact hC.invoke hev he hc hns

end Correspondence

end SmallLisp
