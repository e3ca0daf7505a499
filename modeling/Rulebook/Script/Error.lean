/-
  Refusals of the interpreter.

  `Error` lists the causes for which an expression or a script is refused, and `message` words them.
-/
import Rulebook.Fault

namespace Rulebook.Script

/-- The longest text, list or tuple that an operator may give. -/
def maxSize : Nat := 100000

/-- The most items of a range. -/
def maxRange : Nat := 10000

/-- The greatest exponent. -/
def maxExponent : Nat := 100

/-- The most bits of a whole number that an operator may give. -/
def maxBits : Nat := 4096

/-- A cause for which an expression or script is refused. -/
inductive Error where
  | empty
  | malformed
  | budget (steps : Int)
  -- forms
  | unsupportedExpression (kind : String)
  | unsupportedStatement (kind : String)
  | unsupportedTarget (kind : String)
  | unsupportedOperator (name : String)
  | unsupportedConstant
  | memberAccess
  | entryUnpacking
  | updateTarget
  | loopTarget
  | strayLoopControl
  -- names and calls
  | undefinedName (name : String)
  | forbiddenFunction (name : String)
  | namedArguments
  | argumentUnpacking
  | call (function : String) (cause : Fault)
  | rangeTooLong
  -- operators
  | operands (cause : Fault)
  | division
  | overflow (cause : Fault)
  | exponentTooLarge
  | powerTooLarge
  | productTooLarge
  | integerTooLarge
  | repetitionTooLarge
  | resultTooLarge
  -- containers
  | noItems
  | noItemAssignment
  | notSubscriptable
  | subscript (cause : Fault)
  -- arithmetic
  | emptyArithmetic
  | malformedArithmetic (text : String)
  | unsupportedArithmetic (kind : String)
  deriving Repr

/-- The wording of a refusal. -/
def Error.message : Error → String
  | empty => "Expression is empty"
  | malformed => "Syntax error"
  | budget n => s!"Step budget of {n} exceeded"
  | unsupportedExpression k => s!"Unsupported expression: {k}"
  | unsupportedStatement k => s!"Unsupported statement: {k}"
  | unsupportedTarget k => s!"Unsupported assignment target: {k}"
  | unsupportedOperator n => s!"Unsupported operator: {n}"
  | unsupportedConstant => "Unsupported constant"
  | memberAccess => "Attribute access is not allowed"
  | entryUnpacking => "Dict unpacking is not supported"
  | updateTarget => "Augmented assignment only supports names"
  | loopTarget => "Loop target must be a name"
  | strayLoopControl => "'break' or 'continue' outside loop"
  | undefinedName n => "Name '" ++ n ++ "' is not defined"
  | forbiddenFunction n => "Function '" ++ n ++ "' is not allowed"
  | namedArguments => "Keyword arguments are not supported"
  | argumentUnpacking => "Argument unpacking is not supported"
  | call f cause => f ++ "(): " ++ cause.message
  | rangeTooLong => s!"range() longer than {maxRange} items"
  | operands cause => cause.message
  | division => "Division by zero"
  | overflow cause => "Numeric overflow: " ++ cause.message
  | exponentTooLarge => s!"Exponent larger than {maxExponent}"
  | powerTooLarge => s!"Power result larger than {maxBits} bits"
  | productTooLarge => s!"Product larger than {maxBits} bits"
  | integerTooLarge => s!"Integer result larger than {maxBits} bits"
  | repetitionTooLarge => "Sequence repetition too large"
  | resultTooLarge => "Result too large"
  | noItems => "Can only iterate over lists, tuples, dicts and strings"
  | noItemAssignment => "Item assignment only supports dicts and lists"
  | notSubscriptable => "Subscript only supports dicts, lists, tuples and strings"
  | subscript cause => "Invalid subscript: " ++ cause.message
  | emptyArithmetic => "Expression is empty after sanitization"
  | malformedArithmetic text => "Syntax error in '" ++ text ++ "'"
  | unsupportedArithmetic k => s!"Unsupported arithmetic: {k}"

end Rulebook.Script
