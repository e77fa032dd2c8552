import NovelScript.Archive.Basic
import NovelScript.CommandLine.Arguments
import NovelScript.Files
import NovelScript.Script.Codec
import NovelScript.Script.Printing
import NovelScript.Script.RoundTrip
import NovelScript.Script.StringTableFile
import NovelScript.SettingsFile

/-!
# Running the decompiler

A run reads the settings and the script, and writes the listing, the printed script and the moved
texts in that order.  What it has written stays when a later part fails.  Nothing here depends on
where files are: a run is given the access to them.
-/

namespace NovelScript

/-- The report on settings that cannot be used. -/
def SettingsError.report (error : SettingsError) : Report := ⟨error.message, []⟩

/-- The report on a failure of the archive, with the refusal behind it. -/
def ArchiveError.report (error : ArchiveError) : Report where
  message := error.message
  causes := match error with
    | .file fault => [fault.message]
    | .pattern e => [e.message]
    | _ => []

/-- The report on a failed comparison. -/
def RoundTripError.report (error : RoundTripError) : Report := ⟨error.message, []⟩

/-- A part of a run. -/
abbrev Run (m : Type → Type) := ExceptT Report m

namespace Run

/-- A result that needs no files. -/
def of {m : Type → Type} [Monad m] {ε α : Type} (report : ε → Report) (result : Except ε α) :
    Run m α :=
  ExceptT.mk (pure (result.mapError report))

/-- A result of an access to files. -/
def access {m : Type → Type} [Monad m] {α : Type} (report : FileFault → Report)
    (result : m (Except FileFault α)) : Run m α :=
  ExceptT.mk (result >>= fun result => pure (result.mapError report))

/-- The text of a file. -/
def textOf (octets : Bytes) : Except FileFault String :=
  match Text.Utf8.decode? octets with
  | some text => .ok text
  | none => .error .invalidText

section
variable {m : Type → Type} [Monad m] (files : FileAccess m) (request : Request)

/-- The settings of a run. -/
def settings : Run m Settings := do
  let settings ← match request.config with
    | none => pure {}
    | some path => do
      let task := s!"read config: {path}"
      let octets ← access (·.report.during task) (files.read path)
      let text ← of (·.report.during task) (textOf octets)
      of SettingsError.report (Settings.ofYaml text)
  return { settings with encoding := request.encoding.getD settings.encoding }

/-- The script to be decompiled. -/
def input (settings : Settings) : Run m Bytes := do
  match request.entry with
  | none => access (·.report.during s!"read {request.input}") (files.read request.input)
  | some entry => do
    let task := s!"open archive {request.input}"
    let opening (error : ArchiveError) := error.report.during task
    let file ← access (opening ∘ .file) (files.read request.input)
    let archive ← of opening
      (Archive.load request.input .readOnly settings.encoding file).result
    of ArchiveError.report (archive.readAll file entry)

/-- Writes a text beside the output. -/
def writeBeside (extension text : String) : Run m Unit :=
  access FileFault.report
    (files.write (Path.withExtension request.output extension) (Text.Utf8.encode text))

/-- The whole run. -/
def all : Run m Unit := do
  let settings ← settings files request
  let octets ← input files request settings
  let directory := Path.parent request.output
  unless directory.isEmpty do
    access FileFault.report (files.createDirectories directory)
  if request.listing then
    let program ← of ScriptError.report (Program.disassemble octets settings)
    writeBeside files request "lst" program.listing
  let script ← of ScriptError.report (Script.ofBytes octets settings).result
  access (·.report.during s!"write {request.output}")
    (files.write request.output (Text.Utf8.encode (Statement.renderAll 0 script.statements)))
  unless script.strings.entries.isEmpty do
    writeBeside files request "yaml" script.strings.toYaml
  if request.check then
    of RoundTripError.report (script.checkRoundTrip octets settings)

end
end Run

/-- How a program ends. -/
structure Exit where
  code : UInt8
  /-- What is told; if the program fails, on the error stream. -/
  message : String := ""
deriving DecidableEq

/-- How to call the decompiler. -/
def usage : String :=
  "usage: -i INPUT [-e ENTRY] -o OUTPUT [-c CONFIG] [-l LANG] [--listing] [--check]\n"

/-- Does what the arguments ask for. -/
def runArguments {m : Type → Type} [Monad m] (files : FileAccess m) (arguments : List String) :
    m Exit :=
  match Command.ofArguments arguments with
  | .error e => return ⟨2, s!"error: {e.message}\n" ++ usage⟩
  | .ok .help => return ⟨0, usage⟩
  | .ok (.run request) => do
    match ← (Run.all files request).run with
    | .ok () => return { code := 0 }
    | .error report => return ⟨1, report.render⟩

end NovelScript
