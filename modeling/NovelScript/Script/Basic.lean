import NovelScript.Bytecode.Assembly
import NovelScript.Bytecode.Disassembly
import NovelScript.Outcome
import NovelScript.Script.Compilation
import NovelScript.Script.Decompilation

/-!
# Scripts and their compiled form

A `Script` is a statement tree with the texts moved out of it.  `Script.ofBytes` reads a compiled
script and `Script.toBytes` writes one; both report what they put up with on the way.
-/

namespace NovelScript

/-- A statement tree and the texts moved out of it. -/
structure Script where
  statements : List Statement
  strings : StringTable
deriving DecidableEq

namespace Script

/-- Reads a compiled script. -/
def ofBytes (input : Bytes) (settings : Settings) : Outcome ScriptError DecompileWarning Script :=
  match Program.disassemble input settings with
  | .error e => { result := .error e }
  | .ok program =>
    match settings.rules with
    | .error e => { result := .error e }
    | .ok rules =>
      let decompilation := decompile rules (some .empty) program
      { result := decompilation.result.map fun tree =>
          ⟨tree, decompilation.strings.getD .empty⟩
        warnings := decompilation.warnings }

/-- Writes a compiled script. -/
def toBytes (script : Script) (settings : Settings) : Outcome ScriptError MissingText Bytes :=
  let compilation := compile (some script.strings) script.statements
  { result := do (← compilation.result).assemble settings
    warnings := compilation.warnings }

end Script
end NovelScript
