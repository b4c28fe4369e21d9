-- The store of frames. A frame binds names and may lie inside an older frame; names are looked
-- up along this chain, assignment goes to its last frame, and definition to its first.
import SmallLisp.Table
import SmallLisp.Value

namespace SmallLisp

/-- Names bound together, and the number of the frame around them. -/
structure Frame where
  bindings : Table Value
  outer : Option Nat
  deriving Inhabited

/-- All frames made so far; a frame is known by its position. -/
structure Store where
  frames : Array Frame

namespace Store

def empty : Store := ⟨#[]⟩

instance : Inhabited Store := ⟨empty⟩

/-- How many frames there are. -/
def size (s : Store) : Nat := s.frames.size

/-- A frame; one that was never made is empty. -/
def frame (s : Store) (n : Nat) : Frame := s.frames[n]?.getD ⟨.empty, none⟩

/-- The bindings of a frame itself. -/
def bindings (s : Store) (n : Nat) : Table Value := (s.frame n).bindings

/-- The frame around a frame. -/
def outer (s : Store) (n : Nat) : Option Nat := (s.frame n).outer

/-- The first `bound` frames from a frame outward. -/
def chainUpTo (s : Store) : (bound : Nat) → Nat → List Nat
  | 0, _ => []
  | bound + 1, n =>
    n :: match s.outer n with
      | none => []
      | some o => s.chainUpTo bound o

/-- The frames from a frame outward. A frame lies inside an older one only, so no chain is
longer than the number of frames up to its first. -/
def chain (s : Store) (n : Nat) : List Nat := s.chainUpTo (n + 1) n

/-- The last frame of the chain. -/
def root (s : Store) (n : Nat) : Nat := (s.chain n).getLast?.getD n

/-- The nearest frame that binds the name. -/
def find? (s : Store) (n : Nat) (name : String) : Option Nat :=
  (s.chain n).find? fun f => (s.bindings f).contains name

/-- The name is bound somewhere on the chain. -/
def has (s : Store) (n : Nat) (name : String) : Bool := (s.find? n name).isSome

/-- The nearest value of the name. -/
def lookup? (s : Store) (n : Nat) (name : String) : Option Value :=
  (s.find? n name).bind fun f => (s.bindings f).get? name

/-- The nearest value of the name, nil if there is none. -/
def get (s : Store) (n : Nat) (name : String) : Value := (s.lookup? n name).getD .nil

/-- The store with the name bound in this very frame. -/
def define (s : Store) (n : Nat) (name : String) (value : Value) : Store :=
  ⟨s.frames.modify n fun f => { f with bindings := f.bindings.put name value }⟩

/-- The store with the name bound in the last frame of the chain. -/
def assign (s : Store) (n : Nat) (name : String) (value : Value) : Store :=
  s.define (s.root n) name value

/-- The store with one more frame; its number is the old size. -/
def add (s : Store) (f : Frame) : Store := ⟨s.frames.push f⟩

/-- Every frame lies inside an older one, and binds a name at most once. -/
structure WellFormed (s : Store) : Prop where
  outer_lt : ∀ n o, s.outer n = some o → o < n
  distinct : ∀ n, (s.bindings n).Distinct

/-! ## What each change does -/

@[simp] theorem size_add (s : Store) (f : Frame) : (s.add f).size = s.size + 1 := by
  simp [size, add]

@[simp] theorem size_define (s : Store) (n : Nat) (name : String) (value : Value) :
    (s.define n name value).size = s.size := by
  simp [size, define]

theorem frame_add (s : Store) (f : Frame) (n : Nat) :
    (s.add f).frame n = if n = s.size then f else s.frame n := by
  by_cases h : n = s.frames.size <;> simp [frame, add, size, Array.getElem?_push, h]

theorem frame_define (s : Store) (n m : Nat) (name : String) (value : Value) :
    (s.define n name value).frame m =
      if m = n ∧ n < s.size then { s.frame n with bindings := (s.bindings n).put name value }
      else s.frame m := by
  simp only [frame, define, size, bindings, Array.getElem?_modify]
  grind

@[simp] theorem outer_define (s : Store) (n m : Nat) (name : String) (value : Value) :
    (s.define n name value).outer m = s.outer m := by
  unfold outer
  rw [frame_define]
  grind

@[simp] theorem chainUpTo_define (s : Store) (n m bound : Nat) (name : String) (value : Value) :
    (s.define n name value).chainUpTo bound m = s.chainUpTo bound m := by
  induction bound generalizing m with
  | zero => rfl
  | succ bound ih => simp only [chainUpTo, outer_define, ih]

@[simp] theorem chain_define (s : Store) (n m : Nat) (name : String) (value : Value) :
    (s.define n name value).chain m = s.chain m := chainUpTo_define ..

end Store

end SmallLisp
