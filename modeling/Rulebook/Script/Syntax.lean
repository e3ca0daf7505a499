/-
  The syntax of guards, expressions and scripts.

  Expressions and statements that can be evaluated have a constructor each.  The language has more
  forms than that: they are read, so that a text is judged well formed or not, and kept as
  `unsupported` with the name under which they are refused.
-/

namespace Rulebook.Script

/-- A literal. -/
inductive Constant where
  | null
  | bool (b : Bool)
  | int (n : Int)
  | float (x : Float)
  | text (s : String)
  /-- A literal of a type that has no values here. -/
  | foreign

/-- The operators between two operands. -/
inductive BinaryOp where
  | add | sub | mul | div | floorDiv | mod | pow
  /-- An operator that is read but not evaluated, by name. -/
  | unsupported (name : String)
  deriving DecidableEq, Repr

/-- The operators before an operand. -/
inductive UnaryOp where
  | plus | minus | not | invert
  deriving DecidableEq, Repr

/-- The comparisons. -/
inductive CompareOp where
  | eq | ne | lt | le | gt | ge | isIn | notIn | same | notSame
  deriving DecidableEq, Repr

/-- An expression. -/
inductive Expr where
  | constant (c : Constant)
  | name (id : String)
  | binary (op : BinaryOp) (left right : Expr)
  | unary (op : UnaryOp) (operand : Expr)
  /-- Operands joined by "and" or by "or". -/
  | both (operands : List Expr)
  | either (operands : List Expr)
  /-- A chain of comparisons. -/
  | compare (first : Expr) (rest : List (CompareOp × Expr))
  | conditional (test body orelse : Expr)
  | list (items : List Expr)
  | tuple (items : List Expr)
  | mapping (entries : List (Expr × Expr)) (unpacks : Bool)
  | subscript (container key : Expr)
  | slice (start stop step : Option Expr)
  | call (function : Expr) (arguments : List Expr) (keywords : Bool)
  | member (owner : Expr) (name : String)
  | starred (operand : Expr)
  | unsupported (kind : String)
  deriving Inhabited

/-- The name of a form of expression in reports. -/
def Expr.kind : Expr → String
  | constant _ => "Constant"
  | name _ => "Name"
  | binary .. => "BinOp"
  | unary .. => "UnaryOp"
  | both _ => "BoolOp"
  | either _ => "BoolOp"
  | compare .. => "Compare"
  | conditional .. => "IfExp"
  | list _ => "List"
  | tuple _ => "Tuple"
  | mapping .. => "Dict"
  | subscript .. => "Subscript"
  | slice .. => "Slice"
  | call .. => "Call"
  | member .. => "Attribute"
  | starred _ => "Starred"
  | unsupported kind => kind

/-- A statement. -/
inductive Stmt where
  | expr (e : Expr)
  | assign (targets : List Expr) (value : Expr)
  | update (target : Expr) (op : BinaryOp) (value : Expr)
  | branch (test : Expr) (body orelse : List Stmt)
  | forEach (target items : Expr) (body orelse : List Stmt)
  | ret (value : Option Expr)
  | breakLoop
  | continueLoop
  | pass
  | unsupported (kind : String)
  deriving Inhabited

end Rulebook.Script
