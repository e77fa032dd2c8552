import NovelScript.FileFault
import NovelScript.Report
import NovelScript.Script.Basic

/-!
# Scripts as one of many file formats

A program that handles files of many formats finds out by name and content which of them a file is
of, and then reads or writes it as such.  Here is what it needs to know of scripts.
-/

namespace NovelScript

/-- The report on a failure of the script pipeline. -/
def ScriptError.report (error : ScriptError) : Report := ⟨error.message, []⟩

/-- The report on a refusal. -/
def FileFault.report (fault : FileFault) : Report := ⟨fault.message, []⟩

namespace Script

/-- The usual end of a script's name. -/
def extension : String := "yks"

/-- Whether a file is a script.  `head` is how it opens; of an empty file only the name tells. -/
def sniff (name : String) (head : Bytes) : Bool :=
  isCompiledScript head || (head.isEmpty && name.toLower.endsWith ".yks")

/-- Why a file cannot be read or written as a script, and what was being done. -/
inductive CodecError where
  | reading (name : String) (error : ScriptError)
  | compiling (name : String) (error : ScriptError)
  | writing (name : String) (fault : FileFault)
deriving DecidableEq

/-- The report on a failure. -/
def CodecError.report : CodecError → Report
  | reading name error => error.report.during s!"decode script {name}"
  | compiling name error => error.report.during s!"encode script {name}"
  | writing name fault => fault.report.during s!"write script {name}"

/-- Reads the script of a file. -/
def decode (name : String) (input : Bytes) (settings : Settings) :
    Outcome CodecError DecompileWarning Script :=
  let outcome := ofBytes input settings
  { result := outcome.result.mapError (.reading name), warnings := outcome.warnings }

/-- Compiles a script for a file. -/
def encode (name : String) (script : Script) (settings : Settings) :
    Outcome CodecError MissingText Bytes :=
  let outcome := script.toBytes settings
  { result := outcome.result.mapError (.compiling name), warnings := outcome.warnings }

/-- Compiles a script into a file of a fixed size, of which it may take the front. -/
def encodeInto (room : Bytes) (name : String) (script : Script) (settings : Settings) :
    Outcome CodecError MissingText Bytes :=
  let outcome := script.encode name settings
  { outcome with
    result := outcome.result.bind fun octets =>
      if octets.length ≤ room.length then .ok (octets ++ room.drop octets.length)
      else .error (.writing name .shortWrite) }

end Script
end NovelScript
