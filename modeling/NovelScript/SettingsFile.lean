import NovelScript.Script.Externalization
import NovelScript.Yaml.Resolution

/-!
# Settings from a file

Settings are read from a YAML mapping.  What it does not mention stays as it is by default, and what
it mentions beyond the settings does not matter.
-/

namespace NovelScript

/-- Why a text gives no settings. -/
inductive SettingsError where
  /-- It is no YAML, or not of the form of settings. -/
  | malformed
  /-- A pattern in it is none. -/
  | rules (error : ScriptError)
deriving DecidableEq

/-- What was being done when a text turned out to give no settings. -/
def SettingsError.message : SettingsError → String
  | malformed => "parse config yaml"
  | rules _ => "externalize rules"

/-- A field read with `read`, or its value by default. -/
def fieldOr {α : Type} (fields : List (String × Yaml.Node)) (name : String)
    (read : Yaml.Node → Option α) (byDefault : α) : Option α :=
  match fields.lookup name with
  | some node => read node
  | none => some byDefault

/-- Reads a value that may be absent. -/
def optionally {α : Type} (read : Yaml.Node → Option α) (node : Yaml.Node) : Option (Option α) := do
  match ← node.optional? with
  | some node => (read node).map some
  | none => some none

/-- The encoding of a name in a settings file, where every name has one spelling. -/
def Encoding.ofNode? (node : Yaml.Node) : Option Encoding := do
  match ← node.name? with
  | "utf8" => some .utf8
  | "shiftjis" | "sjis" => some .shiftJis
  | "gbk" => some .gbk
  | "gb18030" => some .gb18030
  | _ => none

/-- An integer of one octet. -/
def octet? (node : Yaml.Node) : Option UInt8 := do
  let n ← node.int?
  if 0 ≤ n ∧ n < 256 then some (.ofNat n.toNat) else none

/-- Reads which texts are to be moved. -/
def ExternalizeSettings.ofNode? (node : Yaml.Node) : Option ExternalizeSettings := do
  let fields ← node.fields? ["functions", "exclude", "key_prefix"]
  let base : ExternalizeSettings := {}
  return {
    functions := ← fieldOr fields "functions" Yaml.Node.text? base.functions
    exclude := ← fieldOr fields "exclude" (optionally Yaml.Node.text?) base.exclude
    keyHead := ← fieldOr fields "key_prefix" Yaml.Node.text? base.keyHead }

namespace Settings

/-- Reads settings. -/
def ofNode? (node : Yaml.Node) : Option Settings := do
  let fields ← node.fields? ["nls", "script_key", "encrypt_scripts", "externalize"]
  let base : Settings := {}
  return {
    encoding := ← fieldOr fields "nls" Encoding.ofNode? base.encoding
    scriptKey := ← fieldOr fields "script_key" octet? base.scriptKey
    encrypt := ← fieldOr fields "encrypt_scripts" Yaml.Node.bool? base.encrypt
    externalize := ←
      fieldOr fields "externalize" (optionally ExternalizeSettings.ofNode?) base.externalize }

/-- The settings that a text gives; their patterns must be well formed. -/
def ofYaml (text : String) : Except SettingsError Settings :=
  match (Yaml.Node.parse? text).bind ofNode? with
  | none => .error .malformed
  | some settings =>
    match settings.rules with
    | .error e => .error (.rules e)
    | .ok _ => .ok settings

end Settings
end NovelScript
