/-
  Faults of operations on data.

  Each constructor of `Fault` is one cause for which an operation on values has no result; `kind`
  sorts the causes and `message` words them.  Nothing else in the library words these causes.
-/

namespace Rulebook

/-- The sorts of faults. -/
inductive FaultKind where
  | type | value | key | index | overflow | zeroDivision | missingAttribute | runtime | timeout | connection
  | notImplemented | url | encoding | recursion
  deriving DecidableEq, Repr

/-- The name of a sort of faults in reports. -/
def FaultKind.name : FaultKind → String
  | .type => "TypeError"
  | .value => "ValueError"
  | .key => "KeyError"
  | .index => "IndexError"
  | .overflow => "OverflowError"
  | .zeroDivision => "ZeroDivisionError"
  | .missingAttribute => "AttributeError"
  | .runtime => "RuntimeError"
  | .timeout => "TimeoutError"
  | .connection => "ConnectionError"
  | .notImplemented => "NotImplementedError"
  | .url => "InvalidURL"
  | .encoding => "UnicodeEncodeError"
  | .recursion => "RecursionError"

/-- The containers that are indexed by position. -/
inductive Sequence where
  | list | text | tuple
  deriving DecidableEq, Repr

/-- A cause for which an operation on values has no result. Types are given by name, values by
    their listing. -/
inductive Fault where
  -- operators
  | unsupportedOperands (operator left right : String)
  | badUnaryOperand (operator type : String)
  | concatenation (sequence other : String)
  | repetitionCount (type : String)
  | indexSizedInteger
  | unorderable (operator left right : String)
  | notContainer (type : String)
  | textMembership (type : String)
  | endlessComparison
  -- numbers
  | divisionByZero
  | zeroToNegativePower
  | notReal
  | integerTooLargeForFloat
  | quotientTooLargeForFloat
  | resultOutOfRange
  | roundedTooLarge
  | spanOutOfRange (days : Int)
  | dateOutOfRange
  | nanToInteger
  | infinityToInteger
  | nanToRatio
  | infinityToRatio
  | integerTextTooLong
  | integerTextTooManyDigits (digits : Nat)
  | integerLiteral (base : Nat) (listing : String)
  | floatLiteral (listing : String)
  | integerBase
  | explicitBase
  | domain
  -- containers
  | unhashable (type : String)
  | missingKey (listing : String)
  | indexRange (sequence : Sequence)
  | indexTooLarge
  | assignmentRange
  | indexType (sequence : Sequence) (type : String)
  | sliceStepZero
  | sliceBoundType
  | assignIterable
  | assignExtended
  | extendedSliceSize (given wanted : Nat)
  | notIterable (type : String)
  -- calls
  | noLength (type : String)
  | absoluteValue (type : String)
  | wantedInteger (type : String)
  | wantedReal (type : String)
  | integerArgument (type : String)
  | floatArgument (type : String)
  | noRounding (type : String)
  | emptyExtreme (function : String)
  | extremeArguments (function : String)
  | rangeStepZero
  | rangeArguments (given : Nat)
  | machineInteger (word : String)
  | sumOfTexts
  | argumentCount (text : String)
  | textEncodingArgument (parameter type : String)
  | textDecoding (type : String)
  -- percent formatting
  | formatArguments
  | formatUnused
  | formatMapping
  | formatStar
  | formatIncomplete
  | formatKeyIncomplete
  | formatCharacter (char : Char) (index : Nat)
  | formatNumber (char : Char) (type : String)
  | formatInteger (char : Char) (type : String)
  | formatCharArgument
  | formatCharRange
  | formatWidthTooBig
  | formatPrecisionTooBig
  -- texts of data
  | jsonKey (type : String)
  | jsonType (type : String)
  | jsonNumber
  | circular
  | jsonSource (type : String)
  | jsonText (message : String) (line column index : Nat)
  -- shapes of data
  | pairLength (position length : Nat)
  | pairSequence (position : Nat)
  | noAttribute (type name : String)
  | textExpected (type : String)
  | itemAssignment (type : String)
  | notMapping (type : String)
  | notSubscriptable (type : String)
  | notAscii (listing : String) (first last : Nat)
  | formatCode (code type : String)
  | formatSpecification (type : String)
  | negativeBound
  | unusablePattern
  -- addresses of services
  | urlTooLong
  | urlPartTooLong (part : String)
  | urlControl (listing : String) (index : Nat)
  | urlPort (listing : String)
  | urlAddress (version : Nat) (listing : String)
  | urlHost (listing : String)
  | bracketsUnbalanced
  | addressInBrackets
  | futureAddress
  | noAddress (listing : String)
  -- faults raised from outside
  | unknownLogKeys (listing : String)
  | unexpectedArgument (function name : String)
  | repeatedArgument (function name : String)
  | handlerNotCallable (key : String)
  | noScope
  | raised (kind : FaultKind) (message : String)
  deriving Repr

/-- The name of a sequence type. -/
def Sequence.typeName : Sequence → String
  | .list => "list"
  | .text => "str"
  | .tuple => "tuple"

/-- The noun for a sequence type in messages. -/
def Sequence.noun : Sequence → String
  | .list => "list"
  | .text => "string"
  | .tuple => "tuple"

namespace Fault

/-- The sort of a fault. -/
def kind : Fault → FaultKind
  | unsupportedOperands .. | badUnaryOperand .. | concatenation .. | repetitionCount _
  | unorderable .. | notContainer _ | textMembership _ | notReal => .type
  | indexSizedInteger => .overflow
  | endlessComparison => .recursion
  | divisionByZero | zeroToNegativePower => .zeroDivision
  | integerTooLargeForFloat | quotientTooLargeForFloat | resultOutOfRange | roundedTooLarge
  | spanOutOfRange _ | dateOutOfRange | infinityToInteger | infinityToRatio
  | machineInteger _ => .overflow
  | nanToInteger | nanToRatio | integerTextTooLong | integerTextTooManyDigits _ | integerLiteral ..
  | floatLiteral _ | integerBase | domain => .value
  | explicitBase | unhashable _ => .type
  | missingKey _ => .key
  | indexRange _ | indexTooLarge | assignmentRange => .index
  | indexType .. | sliceBoundType | assignIterable | assignExtended | notIterable _ => .type
  | sliceStepZero | extendedSliceSize .. => .value
  | noLength _ | absoluteValue _ | wantedInteger _ | wantedReal _ | integerArgument _
  | floatArgument _ | noRounding _ | extremeArguments _ | rangeArguments _ | sumOfTexts
  | argumentCount _ | textEncodingArgument .. | textDecoding _ => .type
  | emptyExtreme _ | rangeStepZero => .value
  | formatArguments | formatUnused | formatMapping | formatStar | formatNumber .. | formatInteger ..
  | formatCharArgument => .type
  | formatIncomplete | formatKeyIncomplete | formatCharacter .. | formatWidthTooBig
  | formatPrecisionTooBig => .value
  | formatCharRange => .overflow
  | jsonKey _ | jsonType _ | jsonSource _ => .type
  | jsonNumber | circular | jsonText .. => .value
  | pairLength .. => .value
  | pairSequence _ | textExpected _ | itemAssignment _ | notMapping _ | notSubscriptable _
  | formatSpecification _ => .type
  | notAscii .. => .encoding
  | formatCode .. => .value
  | noAttribute .. => .missingAttribute
  | negativeBound | unknownLogKeys _ => .value
  | unusablePattern => .overflow
  | handlerNotCallable _ | unexpectedArgument .. | repeatedArgument .. => .type
  | noScope => .index
  | urlTooLong | urlPartTooLong _ | urlControl .. | urlPort _ | urlAddress .. | urlHost _ => .url
  | bracketsUnbalanced | addressInBrackets | futureAddress | noAddress _ => .value
  | raised kind _ => kind

/-- A code point in hexadecimal. -/
def hex (n : Nat) : String :=
  String.ofList (Nat.toDigits 16 n)

/-- The wording of a fault. -/
def message : Fault → String
  | unsupportedOperands op l r => s!"unsupported operand type(s) for {op}: '" ++ l ++ "' and '" ++ r ++ "'"
  | badUnaryOperand op t => s!"bad operand type for unary {op}: '" ++ t ++ "'"
  | concatenation s t => s!"can only concatenate {s} (not \"" ++ t ++ s!"\") to {s}"
  | repetitionCount t => s!"can't multiply sequence by non-int of type '" ++ t ++ "'"
  | indexSizedInteger => "cannot fit 'int' into an index-sized integer"
  | unorderable op l r =>
    "'" ++ op ++ "' not supported between instances of '" ++ l ++ "' and '" ++ r ++ "'"
  | notContainer t => s!"argument of type '" ++ t ++ "' is not iterable"
  | textMembership t => s!"'in <string>' requires string as left operand, not {t}"
  | endlessComparison => "maximum recursion depth exceeded in comparison"
  | divisionByZero => "division by zero"
  | zeroToNegativePower => "0.0 cannot be raised to a negative power"
  | notReal => "result is not a real number"
  | integerTooLargeForFloat => "int too large to convert to float"
  | quotientTooLargeForFloat => "integer division result too large for a float"
  | resultOutOfRange => "(34, 'Numerical result out of range')"
  | roundedTooLarge => "rounded value too large to represent"
  | spanOutOfRange days => s!"days={days}; must have magnitude <= 999999999"
  | dateOutOfRange => "date value out of range"
  | nanToInteger => "cannot convert float NaN to integer"
  | infinityToInteger => "cannot convert float infinity to integer"
  | nanToRatio => "cannot convert NaN to integer ratio"
  | infinityToRatio => "cannot convert Infinity to integer ratio"
  | integerTextTooLong =>
    "Exceeds the limit (4300 digits) for integer string conversion; " ++
      "use sys.set_int_max_str_digits() to increase the limit"
  | integerTextTooManyDigits n =>
    s!"Exceeds the limit (4300 digits) for integer string conversion: value has {n} digits; " ++
      "use sys.set_int_max_str_digits() to increase the limit"
  | integerLiteral base l => s!"invalid literal for int() with base {base}: {l}"
  | floatLiteral l => s!"could not convert string to float: {l}"
  | integerBase => "int() base must be >= 2 and <= 36, or 0"
  | explicitBase => "int() can't convert non-string with explicit base"
  | domain => "math domain error"
  | unhashable t => s!"unhashable type: '" ++ t ++ "'"
  | missingKey l => l
  | indexRange s => s.noun ++ " index out of range"
  | indexTooLarge => "cannot fit 'int' into an index-sized integer"
  | assignmentRange => "list assignment index out of range"
  | indexType .text t => s!"string indices must be integers, not '" ++ t ++ "'"
  | indexType s t => s.noun ++ " indices must be integers or slices, not " ++ t
  | sliceStepZero => "slice step cannot be zero"
  | sliceBoundType => "slice indices must be integers or None or have an __index__ method"
  | assignIterable => "can only assign an iterable"
  | assignExtended => "must assign iterable to extended slice"
  | extendedSliceSize given wanted =>
    s!"attempt to assign sequence of size {given} to extended slice of size {wanted}"
  | notIterable t => "'" ++ t ++ "' object is not iterable"
  | noLength t => s!"object of type '" ++ t ++ "' has no len()"
  | absoluteValue t => s!"bad operand type for abs(): '" ++ t ++ "'"
  | wantedInteger t => "'" ++ t ++ "' object cannot be interpreted as an integer"
  | wantedReal t => s!"must be real number, not {t}"
  | integerArgument t =>
    s!"int() argument must be a string, a bytes-like object or a real number, not '" ++ t ++ "'"
  | floatArgument t => s!"float() argument must be a string or a real number, not '" ++ t ++ "'"
  | noRounding t => s!"type {t} doesn't define __round__ method"
  | emptyExtreme f => s!"{f}() arg is an empty sequence"
  | extremeArguments f => s!"{f} expected at least 1 argument, got 0"
  | rangeStepZero => "range() arg 3 must not be zero"
  | rangeArguments n =>
    if n = 0 then "range expected at least 1 argument, got 0"
    else s!"range expected at most 3 arguments, got {n}"
  | machineInteger word => s!"Python int too large to convert to C {word}"
  | sumOfTexts => "sum() can't sum strings [use ''.join(seq) instead]"
  | argumentCount text => text
  | textEncodingArgument p t => "str() argument '" ++ p ++ s!"' must be str, not {t}"
  | textDecoding t =>
    if t = "str" then "decoding str is not supported"
    else s!"decoding to str: need a bytes-like object, {t} found"
  | formatArguments => "not enough arguments for format string"
  | formatUnused => "not all arguments converted during string formatting"
  | formatMapping => "format requires a mapping"
  | formatStar => "* wants int"
  | formatIncomplete => "incomplete format"
  | formatKeyIncomplete => "incomplete format key"
  | formatCharacter c i =>
    let shown := if 31 ≤ c.toNat ∧ c.toNat ≤ 126 then c else '?'
    "unsupported format character '" ++ shown.toString ++ "' (0x" ++ hex c.toNat ++
      s!") at index {i}"
  | formatNumber c t =>
    if c = 'd' ∨ c = 'i' ∨ c = 'u' then s!"%{c} format: a real number is required, not {t}"
    else s!"must be real number, not {t}"
  | formatInteger c t => s!"%{c} format: an integer is required, not {t}"
  | formatCharArgument => "%c requires int or char"
  | formatCharRange => "%c arg not in range(0x110000)"
  | formatWidthTooBig => "width too big"
  | formatPrecisionTooBig => "precision too big"
  | jsonKey t => s!"keys must be str, int, float, bool or None, not {t}"
  | jsonType t => s!"Object of type {t} is not JSON serializable"
  | jsonNumber => "Out of range float values are not JSON compliant"
  | circular => "Circular reference detected"
  | jsonSource t => s!"the JSON object must be str, bytes or bytearray, not {t}"
  | jsonText m line column index => s!"{m}: line {line} column {column} (char {index})"
  | pairLength position length =>
    s!"dictionary update sequence element #{position} has length {length}; 2 is required"
  | pairSequence position =>
    s!"cannot convert dictionary update sequence element #{position} to a sequence"
  | noAttribute t a => "'" ++ t ++ "' object has no attribute '" ++ a ++ "'"
  | textExpected t => s!"expected string or bytes-like object, got '" ++ t ++ "'"
  | itemAssignment t => "'" ++ t ++ "' object does not support item assignment"
  | notSubscriptable t => "'" ++ t ++ "' object is not subscriptable"
  | notAscii l first last =>
    if first = last then
      s!"'ascii' codec can't encode character {l} in position {first}: ordinal not in range(128)"
    else
      s!"'ascii' codec can't encode characters in position {first}-{last}: ordinal not in range(128)"
  | notMapping t => "'" ++ t ++ "' object is not a mapping"
  | formatCode c t => "Unknown format code '" ++ c ++ "' for object of type '" ++ t ++ "'"
  | formatSpecification t => s!"unsupported format string passed to {t}.__format__"
  | negativeBound => "maxlen must be non-negative"
  | unusablePattern => "the repetition number is too large"
  | unknownLogKeys l => s!"Unknown log context keys: {l}"
  | unexpectedArgument f n => f ++ "() got an unexpected keyword argument '" ++ n ++ "'"
  | repeatedArgument f n => f ++ "() got multiple values for argument '" ++ n ++ "'"
  | handlerNotCallable key => s!"Handler for {key} must be an ActionHandler or callable"
  | noScope => "pop from empty list"
  | urlTooLong => "URL too long"
  | urlPartTooLong p => "URL component '" ++ p ++ "' too long"
  | urlControl l i => s!"Invalid non-printable ASCII character in URL, {l} at position {i}."
  | urlPort l => s!"Invalid port: {l}"
  | urlAddress version l => s!"Invalid IPv{version} address: {l}"
  | urlHost l => s!"Invalid IDNA hostname: {l}"
  | bracketsUnbalanced => "Invalid IPv6 URL"
  | addressInBrackets => "An IPv4 address cannot be in brackets"
  | futureAddress => "IPvFuture address is invalid"
  | noAddress l => s!"{l} does not appear to be an IPv4 or IPv6 address"
  | raised .key "" => ""
  | raised _ m => m

end Fault

end Rulebook
