import NovelScript.Pattern.RegexSyntax
import NovelScript.Script.Error
import NovelScript.Settings

/-!
# Which texts move into the string table
-/

namespace NovelScript

/-- A rule for moving texts out of a script. -/
structure ExternalizeRules where
  /-- Whether a text among the arguments of a function is moved. -/
  wants : (function text : String) → Bool
  /-- Opens the keys of moved texts. -/
  keyHead : String

namespace ExternalizeRules

/-- The rule of a pattern for functions and a pattern for texts that stay. -/
def ofPatterns (functions : Pattern.Regex) (exclude : Option Pattern.Regex) (keyHead : String) :
    ExternalizeRules where
  wants function text := functions.occursIn function && !exclude.any (·.occursIn text)
  keyHead := keyHead

/-- The rule that settings describe, if their patterns are well formed. -/
def ofSettings (settings : ExternalizeSettings) : Except ScriptError ExternalizeRules :=
  match Pattern.Regex.parse? settings.functions with
  | none => .error (.invalid .functionsPattern)
  | some functions =>
    match settings.exclude with
    | none => .ok (ofPatterns functions none settings.keyHead)
    | some text =>
      match Pattern.Regex.parse? text with
      | none => .error (.invalid .excludePattern)
      | some exclude => .ok (ofPatterns functions (some exclude) settings.keyHead)

end ExternalizeRules

/-- The rule for moving texts out, if settings ask for it. -/
def Settings.rules (settings : Settings) : Except ScriptError (Option ExternalizeRules) :=
  match settings.externalize with
  | none => .ok none
  | some patterns => (ExternalizeRules.ofSettings patterns).map some

end NovelScript
