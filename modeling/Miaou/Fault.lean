import Miaou.Position

/-!
What can be wrong with a script: a cause, the place of the offending text and that text, which is
empty where the fault lies in the layout or at the end.
-/

namespace Miaou

inductive Delimiter where
  | leftParen | rightParen | rightBracket | commaOrRightParen
  deriving DecidableEq, Repr

inductive Element where
  | colon | dans | sauf
  | variableName | functionName | parameterName | moduleName | attributeName
  deriving DecidableEq, Repr

inductive Cause where
  | missingMiaou
  | missingMeow
  | prematureMeow
  | misplacedMiaou
  | emptyScript
  | unknownInstruction
  | unclosedString
  | missingDelimiter (expected : Delimiter)
  | badIndentation
  | missingElement (expected : Element)
  | danglingElse
  | overflow
  deriving DecidableEq, Repr

structure Fault where
  cause : Cause
  position : Position
  text : String
  deriving DecidableEq, Repr

def Delimiter.text : Delimiter → String
  | .leftParen => "'('"
  | .rightParen => "')'"
  | .rightBracket => "']'"
  | .commaOrRightParen => "',' ou ')'"

def Element.text : Element → String
  | .colon => "':'"
  | .dans => "'dans'"
  | .sauf => "'sauf'"
  | .variableName => "nom de variable"
  | .functionName => "nom de fonction"
  | .parameterName => "nom de paramètre"
  | .moduleName => "nom de module"
  | .attributeName => "nom d'attribut"

/-- What would have been accepted, where the cause names it. -/
def Cause.expected? : Cause → Option String
  | .missingDelimiter expected => some expected.text
  | .missingElement expected => some expected.text
  | _ => none

end Miaou
