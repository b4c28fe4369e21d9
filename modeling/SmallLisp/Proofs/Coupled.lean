-- Two runs side by side. A bond says which states of the two belong together, as seen from a
-- world, and worlds only grow. Two runs are coupled if from states that belong together they
-- end alike, in states that belong together again.
import Mathlib.Order.CompleteBooleanAlgebra
import Mathlib.Order.CompletePartialOrder

namespace SmallLisp

/-- What ties the states and the stops of two kinds of runs together in each world. -/
structure Bond (W σ τ ε δ : Type) where
  state : W → σ → τ → Prop
  stop : W → ε → δ → Prop
  /-- If the first run stops like this, nothing is asked of the second. -/
  excused : ε → Prop

namespace Bond

variable {W σ τ ε δ α β γ ξ : Type} [Preorder W] {B : Bond W σ τ ε δ}

/-- Two ends that belong together in a world no smaller than `w`. -/
inductive Ends (B : Bond W σ τ ε δ) (A : W → α → β → Prop) (w : W) :
    EStateM.Result ε σ α → EStateM.Result δ τ β → Prop
  | ok {w' : W} {a : α} {b : β} {s : σ} {t : τ} (grown : w ≤ w') (states : B.state w' s t)
      (values : A w' a b) : Ends B A w (.ok a s) (.ok b t)
  | error {w' : W} {e : ε} {d : δ} {s : σ} {t : τ} (grown : w ≤ w') (states : B.state w' s t)
      (stops : B.stop w' e d) : Ends B A w (.error e s) (.error d t)
  | excused {e : ε} {s : σ} {r : EStateM.Result δ τ β} (h : B.excused e) :
      Ends B A w (.error e s) r

/-- From states that belong together in `w` the two runs end alike. -/
def Coupled (B : Bond W σ τ ε δ) (A : W → α → β → Prop) (w : W) (m : EStateM ε σ α)
    (k : EStateM δ τ β) : Prop :=
  ∀ s t, B.state w s t → B.Ends A w (m s) (k t)

theorem Ends.widen {A : W → α → β → Prop} {w w' : W} {r : EStateM.Result ε σ α}
    {r' : EStateM.Result δ τ β} (hw : w ≤ w') (h : B.Ends A w' r r') : B.Ends A w r r' := by
  cases h with
  | ok grown states values => exact .ok (hw.trans grown) states values
  | error grown states stops => exact .error (hw.trans grown) states stops
  | excused h => exact .excused h

theorem coupled_pure {A : W → α → β → Prop} {w : W} {a : α} {b : β} (h : A w a b) :
    B.Coupled A w (pure a) (pure b) :=
  fun _ _ hs => .ok le_rfl hs h

theorem coupled_throw {A : W → α → β → Prop} {w : W} {e : ε} {d : δ} (h : B.stop w e d) :
    B.Coupled A w (throw e) (throw d) :=
  fun _ _ hs => .error le_rfl hs h

theorem coupled_throw_excused {A : W → α → β → Prop} {w : W} {e : ε} {k : EStateM δ τ β}
    (h : B.excused e) : B.Coupled A w (throw e) k :=
  fun _ _ _ => .excused h

/-- What follows a coupled pair is asked for in every grown world. -/
theorem Coupled.bind {A : W → α → β → Prop} {C : W → γ → ξ → Prop} {w : W}
    {m : EStateM ε σ α} {k : EStateM δ τ β} {f : α → EStateM ε σ γ} {g : β → EStateM δ τ ξ}
    (hm : B.Coupled A w m k)
    (hf : ∀ w' a b, w ≤ w' → A w' a b → B.Coupled C w' (f a) (g b)) :
    B.Coupled C w (m >>= f) (k >>= g) := by
  intro s t hs
  have hmk := hm s t hs
  show B.Ends C w (EStateM.bind m f s) (EStateM.bind k g t)
  unfold EStateM.bind
  generalize m s = r at hmk
  generalize k t = r' at hmk
  cases hmk with
  | ok grown states values => exact (hf _ _ _ grown values _ _ states).widen grown
  | error grown states stops => exact .error grown states stops
  | excused h => exact .excused h

/-- A step that only the first run makes. -/
theorem Coupled.bind_left {A : W → α → Unit → Prop} {C : W → γ → ξ → Prop} {w : W}
    {m : EStateM ε σ α} {f : α → EStateM ε σ γ} {k : EStateM δ τ ξ}
    (hm : B.Coupled A w m (pure ()))
    (hf : ∀ w' a, w ≤ w' → A w' a () → B.Coupled C w' (f a) k) :
    B.Coupled C w (m >>= f) k :=
  hm.bind (g := fun _ => k) fun w' a _ hw ha => hf w' a hw ha

end Bond

end SmallLisp
