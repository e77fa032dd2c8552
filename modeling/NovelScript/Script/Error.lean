import NovelScript.Bytecode.Element
import NovelScript.Text.Encoding

/-!
# Why a script cannot be read, built or written

Each failure is a value that says what was found where.  `ScriptError.message` is the only place
that puts failures into words.
-/

namespace NovelScript

/-- What is wrong with the header of a script. -/
inductive HeaderFault where
  | tooShort (size : Nat)
  | headerLength (found : Int32)
  | encryptionFlag (found : Int16)
deriving DecidableEq

/-- What is wrong with compiled code. -/
inductive Corruption where
  | unterminatedText (offset : Nat)
  | danglingElement (id : ElementId)
  | wordOutsideTable (word : Nat) (id : ElementId) (size : Nat)
  | callWithoutCount (word : Nat)
  | callOverrun (word count : Nat)
  | cannotStart (element : Element) (word : Nat)
  | unterminatedBlock
  | labelWithoutMarker (id : ElementId)
  | unbalancedClose (at_ : Nat)
  | assignWithoutTarget (at_ : Nat)
  | nestedTooDeep (limit at_ : Nat)
  | callThrough (id : ElementId)
  | ifWithoutCondition
  | targetWithoutAssign (at_ : Nat)
  | assignWithoutCall (at_ : Nat)
  | localTooHigh (id limit : Nat)
  | operatorArgument (operator function : String)
  | missingOperand
  | signWithoutOperand (sign : String)
  | expectedOperator (found : Element)
  | markerAsOperand (name : String)
  | notAValue (element : Element)
  | localUsedTwice (id : Nat)
  | localUnassigned (id : Nat)
  | unknownFlagKind (name : String)
  | wrongElementType (element : Element)
  | flagOutOfRange (kind : FlagKind) (id : Int32)
  | notAssignable (element : Element)
deriving DecidableEq

/-- What is wrong with a statement tree, an instruction list or the settings. -/
inductive Misuse where
  | localTooHigh (id limit : Nat)
  | tooManyLocals (count : Nat)
  | callThroughNonFunction (id : ElementId)
  | labelThroughNonMarker (id : ElementId)
  | assignmentToNonAssignable (id : ElementId)
  | unknownOperator (name : String)
  | notALabelName (name : String)
  | ifWithBody
  | assignCalled
  | noOperator
  | operandCount (operands operators : Nat)
  | labelAsOperand (name : String)
  | blockAfterCall (function : String)
  | elseLabelAfterIf
  | flagOutOfRange (kind : FlagKind) (id : Int32)
  | functionsPattern
  | excludePattern
deriving DecidableEq

/-- What cannot be done with the settings and tables at hand. -/
inductive Unsupported where
  | externalTextWithoutTable (key : String)
  | rulesWithoutTable
deriving DecidableEq

/-- What the compiler checks of itself. -/
inductive InternalFault where
  | localsLive (count : Nat)
  | notSimple
deriving DecidableEq

/-- Failures of the script pipeline. -/
inductive ScriptError where
  | outOfRange (offset size : Nat)
  | badSignature
  | badHeader (fault : HeaderFault)
  | invalidElementType (index : Nat) (tag : UInt32)
  | corrupt (fault : Corruption)
  | invalid (fault : Misuse)
  | unsupported (fault : Unsupported)
  | internal (fault : InternalFault)
  | encoding (error : EncodingError)
deriving DecidableEq

/-! ## Wording -/

def HeaderFault.message : HeaderFault → String
  | tooShort size => s!"file is {size} bytes, shorter than the header"
  | headerLength found => s!"header length {found} (expected 48)"
  | encryptionFlag found => s!"encryption flag {found}"

def Corruption.message : Corruption → String
  | unterminatedText offset =>
    s!"unterminated string at data offset 0x{Text.capitalHexDigits offset}"
  | danglingElement id => s!"dangling element id {id}"
  | wordOutsideTable word id size => s!"code word {word} references element {id} of {size}"
  | callWithoutCount word => s!"call at word {word} has no argument count"
  | callOverrun word count =>
    s!"call at word {word} overruns the code stream ({count} arguments)"
  | cannotStart element word => s!"{element.render} cannot start an instruction (word {word})"
  | unterminatedBlock => "unterminated block"
  | labelWithoutMarker id => s!"label {id} is not a marker"
  | unbalancedClose at_ => s!"unbalanced `\x7d` at instruction {at_}"
  | assignWithoutTarget at_ => s!"`=` without a target at instruction {at_}"
  | nestedTooDeep limit at_ => s!"blocks nested deeper than {limit} at instruction {at_}"
  | callThrough id => s!"call through element {id}"
  | ifWithoutCondition => "`if` without a condition"
  | targetWithoutAssign at_ => s!"target at instruction {at_} is not followed by `=`"
  | assignWithoutCall at_ => s!"`=` at instruction {at_} is not followed by a call"
  | localTooHigh id limit => s!"local {id} exceeds max_locals {limit}"
  | operatorArgument operator function => s!"operator {operator} as an argument of {function}"
  | missingOperand => "operator list ends without an operand"
  | signWithoutOperand sign => s!"sign {sign} without an operand"
  | expectedOperator found => s!"expected an operator, found {found.render}"
  | markerAsOperand name => s!"marker {name} where an operand was expected"
  | notAValue element => s!"{element.render} cannot be used as a value"
  | localUsedTwice id => s!"repeated use of the same local variable ({id})"
  | localUnassigned id => s!"local {id} used before assignment"
  | unknownFlagKind name => s!"unknown variable kind {name}"
  | wrongElementType element => s!"{element.render} has the wrong element type"
  | flagOutOfRange kind id => s!"{kind.name} id {id} is out of range (limit {kind.limit})"
  | notAssignable element => s!"{element.render} is not assignable"

def Misuse.message : Misuse → String
  | localTooHigh id limit => s!"local {id} exceeds max_locals {limit}"
  | tooManyLocals count => s!"{count} locals do not fit in 32 bits"
  | callThroughNonFunction id => s!"call through non-function element {id}"
  | labelThroughNonMarker id => s!"label through non-marker element {id}"
  | assignmentToNonAssignable id => s!"assignment to non-assignable element {id}"
  | unknownOperator name => s!"unknown operator {Text.quote name}"
  | notALabelName name => s!"{Text.quote name} cannot be a label name"
  | ifWithBody => "`if` with a body must be an if statement"
  | assignCalled => "`=` cannot be called directly"
  | noOperator => "operator expression without an operator"
  | operandCount operands operators => s!"{operands} operands for {operators} operators"
  | labelAsOperand name => s!"label :{name} cannot be an operand"
  | blockAfterCall function => s!"call to {function} directly followed by a block"
  | elseLabelAfterIf => s!"label :{elseLabel} directly after an if statement"
  | flagOutOfRange kind id => s!"{kind.name}:{id} is out of range (limit {kind.limit})"
  | functionsPattern => "functions pattern"
  | excludePattern => "exclude pattern"

def Unsupported.message : Unsupported → String
  | externalTextWithoutTable key => s!"externalized string @{key} without a string table"
  | rulesWithoutTable =>
    "string externalization is configured but no string table was given"

def InternalFault.message : InternalFault → String
  | localsLive count => s!"{count} locals still live after a statement"
  | notSimple => "not a simple value"

/-- The wording of a failure. -/
def ScriptError.message : ScriptError → String
  | outOfRange offset size =>
    "offset out of range: offset=0x" ++ Text.capitalHexDigits offset
      ++ ", len=0x" ++ Text.capitalHexDigits size
  | badSignature => "bad script signature"
  | badHeader fault => s!"bad script header: {fault.message}"
  | invalidElementType index tag => s!"invalid element type {tag} at index {index}"
  | corrupt fault => s!"corrupt script: {fault.message}"
  | invalid fault => s!"invalid script input: {fault.message}"
  | unsupported fault => s!"operation not supported: {fault.message}"
  | internal fault => s!"internal compiler error: {fault.message}"
  | encoding error => error.message

end NovelScript
