import DirectSearch.Gallery
import DirectSearch.Problem.Statement
/-!
# Formulas — objectives and constraints as data

A formula is an expression over the coordinates of a point and over the
counters of the evaluation under way. It yields a number, or a vector
where a vector-valued constraint is wanted. Arithmetic is that of
`Float`; a coordinate that the array does not have, a vector in place of
a number, a number out of range and an explicit failure end an
evaluation.
-/

namespace DirectSearch

/-- The operations of two arguments, folded from the left over more. -/
inductive FoldOp where
  | add | sub | mul | div | max | min
deriving DecidableEq

/-- The operations of one argument. -/
inductive UnaryOp where
  | neg | abs | sqrt | floor | square
deriving DecidableEq

/-- The comparisons. -/
inductive Comparison where
  | lt | le | eq
deriving DecidableEq

/-- An expression. -/
inductive Formula where
  /-- A number. -/
  | constant (x : Number Float)
  /-- A coordinate; a negative index counts from the end. -/
  | coordinate (i : Int)
  /-- An operation folded over its arguments. -/
  | fold (op : FoldOp) (first : Formula) (rest : List Formula)
  /-- An operation of one argument. -/
  | unary (op : UnaryOp) (a : Formula)
  /-- One of two formulas, by a comparison; the other is not evaluated. -/
  | choice (c : Comparison) (a b yes no : Formula)
  /-- How often the objective has been asked for. -/
  | objectiveCount
  /-- How often the constraints have been asked for. -/
  | constraintCount
  /-- The formula whose turn it is by the objective count; the last one
  stays. -/
  | byObjective (scripts : List Formula)
  /-- The formula whose turn it is by the constraint count. -/
  | byConstraint (scripts : List Formula)
  /-- A failure. -/
  | fail (category : Category) (text : String)
  /-- The curved valley. -/
  | rosenbrock (a b : Number Float)
  /-- The Branin function. -/
  | branin
  /-- The circle constraint. -/
  | circle (r : Number Float)
  /-- Several values. -/
  | vector (parts : List Formula)

namespace Formula

/-- The number that a formula yields, where one is needed. -/
def single : Entries Float → Except Fault Float
  | .one x => .ok x
  | .broken fault => .error fault
  | .many _ => .error .wrongType

/-- An operation on two numbers. -/
def FoldOp.apply (op : FoldOp) (a b : Float) : Float :=
  match op with
  | .add => a + b
  | .sub => a - b
  | .mul => a * b
  | .div => a / b
  | .max => Scalar.greatest a b
  | .min => Scalar.least a b

/-- An operation on one number. -/
def UnaryOp.apply (op : UnaryOp) (a : Float) : Float :=
  match op with
  | .neg => -a
  | .abs => a.abs
  | .sqrt => a.sqrt
  | .floor => a.floor
  | .square => a * a

/-- Whether a comparison holds. -/
def Comparison.holds (c : Comparison) (a b : Float) : Bool :=
  match c with
  | .lt => a.lt b
  | .le => a.le b
  | .eq => a == b

/-- The coordinate at an index that may count from the end. -/
def coordinateAt (x : Grid Float) (i : Int) : Except Fault Float := do (← x.row i).single

/-- The value of a formula at an array. -/
def eval (counters : Counters) (x : Grid Float) : Formula → Except Fault (Entries Float)
  | constant v => v.toScalar.map .one
  | coordinate i => (coordinateAt x i).map .one
  | fold op first rest => do
    let a ← single (← eval counters x first)
    return .one (← evalFold op a rest)
  | unary op a => do return .one (UnaryOp.apply op (← single (← eval counters x a)))
  | choice c a b yes no => do
    let u ← single (← eval counters x a)
    let v ← single (← eval counters x b)
    if Comparison.holds c u v then eval counters x yes else eval counters x no
  | objectiveCount => .ok (.one (Float.ofNat counters.objective))
  | constraintCount => .ok (.one (Float.ofNat counters.constraint))
  | byObjective scripts => evalTurn (counters.objective - 1) scripts
  | byConstraint scripts => evalTurn (counters.constraint - 1) scripts
  | fail category text => .error (.raised category text)
  | rosenbrock a b => (Gallery.rosenbrock a b x).map .one
  | branin => (Gallery.branin x).map .one
  | circle r => (Gallery.circle r x).map .one
  | vector parts => return .many (← evalAll parts)
where
  /-- The fold of an operation over further arguments. -/
  evalFold (op : FoldOp) (acc : Float) : List Formula → Except Fault Float
  | [] => .ok acc
  | f :: fs => do
    let b ← single (← eval counters x f)
    evalFold op (FoldOp.apply op acc b) fs
  /-- The formula after `skip` others, or the last one. -/
  evalTurn (skip : Nat) : List Formula → Except Fault (Entries Float)
  | [] => .error .wrongType
  | f :: fs =>
    match skip, fs with
    | 0, _ | _, [] => eval counters x f
    | k + 1, _ :: _ => evalTurn k fs
  /-- The values of all parts. -/
  evalAll : List Formula → Except Fault (List (Entries Float))
  | [] => .ok []
  | f :: fs => do
    let v ← eval counters x f
    return v :: (← evalAll fs)

/-- A formula as a function with one number as value. -/
def toFunction (f : Formula) : Callback Float Float :=
  fun counters x => do single (← f.eval counters x)

/-- A formula as a constraint function, which may have any values. -/
def toConstraint (f : Formula) : Callback Float (Entries Float) :=
  fun counters x => f.eval counters x

end Formula

end DirectSearch
