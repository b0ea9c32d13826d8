import Miaou.Fault
import Miaou.Number.Digits
import Miaou.Text.Blank

/-!
The public codes of faults. A code is the letter E and three digits, the first of which gives the
family of the fault. Codes are stable: other tools look for them.
-/

namespace Miaou

inductive Code where
  | missingMiaou | missingMeow | prematureMeow | forbiddenOrder | emptyFile
  | unknownInstruction | unterminatedString | missingDelimiter | badIndentation | missingElement
  | undefinedVariable | uninitializedVariable | incompatibleTypes | conversionFailed
  | invalidCondition | danglingElse | incomparableTypes
  | infiniteLoop | missingLoopExit | counterOutsideLoop
  | divisionByZero | valueOverflow | computationFailed
  | unknownFunction | wrongArgumentCount | missingReturn
  | indexOutOfRange | emptyCollection
  | negativeDuration
  | fileNotFound | permissionDenied | internalCrash | tooManyErrors
  deriving DecidableEq, Repr

inductive Family where
  | script | grammar | values | conditions | loops | arithmetic | functions | collections
  | timing | system
  deriving DecidableEq, Repr

def Family.name : Family → String
  | .script => "Structure"
  | .grammar => "Syntax"
  | .values => "Variable"
  | .conditions => "Condition"
  | .loops => "Loop"
  | .arithmetic => "Arithmetic"
  | .functions => "Function"
  | .collections => "Collection"
  | .timing => "Timing"
  | .system => "System"

namespace Code

def number : Code → Nat
  | .missingMiaou => 0
  | .missingMeow => 1
  | .prematureMeow => 2
  | .forbiddenOrder => 3
  | .emptyFile => 4
  | .unknownInstruction => 100
  | .unterminatedString => 101
  | .missingDelimiter => 102
  | .badIndentation => 103
  | .missingElement => 104
  | .undefinedVariable => 200
  | .uninitializedVariable => 201
  | .incompatibleTypes => 202
  | .conversionFailed => 203
  | .invalidCondition => 300
  | .danglingElse => 301
  | .incomparableTypes => 302
  | .infiniteLoop => 400
  | .missingLoopExit => 401
  | .counterOutsideLoop => 402
  | .divisionByZero => 500
  | .valueOverflow => 501
  | .computationFailed => 502
  | .unknownFunction => 600
  | .wrongArgumentCount => 601
  | .missingReturn => 602
  | .indexOutOfRange => 700
  | .emptyCollection => 701
  | .negativeDuration => 800
  | .fileNotFound => 900
  | .permissionDenied => 901
  | .internalCrash => 902
  | .tooManyErrors => 999

def all : List Code :=
  [.missingMiaou, .missingMeow, .prematureMeow, .forbiddenOrder, .emptyFile,
    .unknownInstruction, .unterminatedString, .missingDelimiter, .badIndentation,
    .missingElement,
    .undefinedVariable, .uninitializedVariable, .incompatibleTypes, .conversionFailed,
    .invalidCondition, .danglingElse, .incomparableTypes,
    .infiniteLoop, .missingLoopExit, .counterOutsideLoop,
    .divisionByZero, .valueOverflow, .computationFailed,
    .unknownFunction, .wrongArgumentCount, .missingReturn,
    .indexOutOfRange, .emptyCollection, .negativeDuration,
    .fileNotFound, .permissionDenied, .internalCrash, .tooManyErrors]

def text (code : Code) : String :=
  let digits := Digits.ofNat code.number
  String.ofList ('E' :: (List.replicate (3 - digits.length) '0' ++ digits))

def family (code : Code) : Family :=
  match code.number / 100 with
  | 0 => .script
  | 1 => .grammar
  | 2 => .values
  | 3 => .conditions
  | 4 => .loops
  | 5 => .arithmetic
  | 6 => .functions
  | 7 => .collections
  | 8 => .timing
  | _ => .system

/-- Finds a code by its text in any case, with blanks around it. -/
def ofText? (text : String) : Option Code :=
  let wanted := String.ofList ((Text.trim text.toList).map Char.toUpper)
  all.find? fun code => code.text = wanted

def unknownMessage (text : String) : String := "unknown error code `" ++ text ++ "`"

theorem number_inj {a b : Code} (h : a.number = b.number) : a = b := by
  cases a <;> cases b <;> first | rfl | (exact absurd h (by decide))

end Code

def Cause.code : Cause → Code
  | .missingMiaou => .missingMiaou
  | .missingMeow => .missingMeow
  | .prematureMeow => .prematureMeow
  | .misplacedMiaou => .forbiddenOrder
  | .emptyScript => .emptyFile
  | .unknownInstruction => .unknownInstruction
  | .unclosedString => .unterminatedString
  | .missingDelimiter _ => .missingDelimiter
  | .badIndentation => .badIndentation
  | .missingElement _ => .missingElement
  | .danglingElse => .danglingElse
  | .overflow => .valueOverflow

end Miaou
