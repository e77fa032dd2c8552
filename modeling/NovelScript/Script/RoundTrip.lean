import NovelScript.Script.Basic

/-!
# Whether a decompiled script says what its file does

The script is compiled again, and both files are decompiled afresh; then the trees must be equal.
-/

namespace NovelScript

/-- Why a script is not known to say what its file does. -/
inductive RoundTripError where
  | script (error : ScriptError)
  | different
deriving DecidableEq

/-- The wording of the failure. -/
def RoundTripError.message : RoundTripError → String
  | script error => error.message
  | different => "recompiled script decompiles differently"

namespace Script

/-- The statements of a compiled script, with texts moved into a table of their own. -/
def freshStatements (rules : Option ExternalizeRules) (program : Program) :
    Except ScriptError (List Statement) :=
  (NovelScript.decompile rules (some .empty) program).result

/-- The statements of a file, and those of the file that `script` compiles to. -/
def bothStatements (script : Script) (input : Bytes) (settings : Settings) :
    Except ScriptError (List Statement × List Statement) := do
  let rebuilt ← (script.toBytes settings).result
  let source ← Program.disassemble input settings
  let again ← Program.disassemble rebuilt settings
  let rules ← settings.rules
  return (← freshStatements rules source, ← freshStatements rules again)

/-- Checks that `script`, decompiled from `input`, compiles to a file that says the same. -/
def checkRoundTrip (script : Script) (input : Bytes) (settings : Settings) :
    Except RoundTripError Unit :=
  match script.bothStatements input settings with
  | .error e => .error (.script e)
  | .ok (before, again) => if before = again then .ok () else .error .different

end Script
end NovelScript
