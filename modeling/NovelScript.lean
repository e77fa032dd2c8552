import NovelScript.Archive.Basic
import NovelScript.Archive.Cursor
import NovelScript.Archive.Error
import NovelScript.Archive.Header
import NovelScript.Archive.Packing
import NovelScript.Archive.Session
import NovelScript.Archive.Store
import NovelScript.Byte.Word
import NovelScript.Bytecode.Assembly
import NovelScript.Bytecode.DataSector
import NovelScript.Bytecode.Disassembly
import NovelScript.Bytecode.Element
import NovelScript.Bytecode.Header
import NovelScript.Bytecode.Program
import NovelScript.Bytecode.Record
import NovelScript.CommandLine.Arguments
import NovelScript.CommandLine.Run
import NovelScript.FileFault
import NovelScript.Files
import NovelScript.Main
import NovelScript.Outcome
import NovelScript.Pattern.Glob
import NovelScript.Pattern.Letters
import NovelScript.Pattern.Regex
import NovelScript.Pattern.RegexSyntax
import NovelScript.Proofs.Archive.Canonical
import NovelScript.Proofs.Archive.Changes
import NovelScript.Proofs.Archive.Claiming
import NovelScript.Proofs.Archive.Compaction
import NovelScript.Proofs.Archive.Durability
import NovelScript.Proofs.Archive.Exclusion
import NovelScript.Proofs.Archive.Handles
import NovelScript.Proofs.Archive.Handling
import NovelScript.Proofs.Archive.Integrity
import NovelScript.Proofs.Archive.Layout
import NovelScript.Proofs.Archive.Ledger
import NovelScript.Proofs.Archive.Members
import NovelScript.Proofs.Archive.Opening
import NovelScript.Proofs.Archive.Overflow
import NovelScript.Proofs.Archive.Payloads
import NovelScript.Proofs.Archive.Readiness
import NovelScript.Proofs.Archive.Refinement
import NovelScript.Proofs.Archive.Regions
import NovelScript.Proofs.Archive.Reloading
import NovelScript.Proofs.Archive.Repacking
import NovelScript.Proofs.Archive.Saving
import NovelScript.Proofs.Archive.Sessions
import NovelScript.Proofs.Archive.Showing
import NovelScript.Proofs.Archive.Snapshots
import NovelScript.Proofs.Archive.Sparing
import NovelScript.Proofs.Archive.Standing
import NovelScript.Proofs.Archive.Tracking
import NovelScript.Proofs.Archive.Undoing
import NovelScript.Proofs.Bytecode.Fidelity
import NovelScript.Proofs.Bytecode.Inversion
import NovelScript.Proofs.Bytecode.Reassembly
import NovelScript.Proofs.Bytecode.Renumbering
import NovelScript.Proofs.Bytecode.Retrieval
import NovelScript.Proofs.Bytecode.Sector
import NovelScript.Proofs.Bytecode.Sizes
import NovelScript.Proofs.Bytecode.Slots
import NovelScript.Proofs.Script.Acceptance
import NovelScript.Proofs.Script.Accesses
import NovelScript.Proofs.Script.Accounting
import NovelScript.Proofs.Script.Applications
import NovelScript.Proofs.Script.CallOrder
import NovelScript.Proofs.Script.Calls
import NovelScript.Proofs.Script.Checking
import NovelScript.Proofs.Script.CompiledCalls
import NovelScript.Proofs.Script.Denotation
import NovelScript.Proofs.Script.Depth
import NovelScript.Proofs.Script.Drafts
import NovelScript.Proofs.Script.Emission
import NovelScript.Proofs.Script.Externalization
import NovelScript.Proofs.Script.Keys
import NovelScript.Proofs.Script.Labels
import NovelScript.Proofs.Script.Legibility
import NovelScript.Proofs.Script.Links
import NovelScript.Proofs.Script.LocalUse
import NovelScript.Proofs.Script.Markers
import NovelScript.Proofs.Script.Moves
import NovelScript.Proofs.Script.Moving
import NovelScript.Proofs.Script.Names
import NovelScript.Proofs.Script.Neighbours
import NovelScript.Proofs.Script.Numbering
import NovelScript.Proofs.Script.Oversized
import NovelScript.Proofs.Script.Parts
import NovelScript.Proofs.Script.Pieces
import NovelScript.Proofs.Script.Pressure
import NovelScript.Proofs.Script.Proper
import NovelScript.Proofs.Script.Reading
import NovelScript.Proofs.Script.Recompiling
import NovelScript.Proofs.Script.Registers
import NovelScript.Proofs.Script.RoundTrip
import NovelScript.Proofs.Script.SelfChecks
import NovelScript.Proofs.Script.Spans
import NovelScript.Proofs.Script.Spelling
import NovelScript.Proofs.Script.Symbolic
import NovelScript.Proofs.Script.Transfers
import NovelScript.Proofs.Script.Trees
import NovelScript.Proofs.Script.Unambiguous
import NovelScript.Proofs.Script.Walk
import NovelScript.Proofs.Steps
import NovelScript.Proofs.StoredTexts
import NovelScript.Proofs.Text.Faithful
import NovelScript.Proofs.Text.ReadingBack
import NovelScript.Proofs.Text.Survival
import NovelScript.Report
import NovelScript.Script.Basic
import NovelScript.Script.Codec
import NovelScript.Script.Compilation
import NovelScript.Script.Decompilation
import NovelScript.Script.Error
import NovelScript.Script.Externalization
import NovelScript.Script.Printing
import NovelScript.Script.RoundTrip
import NovelScript.Script.StringTable
import NovelScript.Script.StringTableFile
import NovelScript.Script.Tree
import NovelScript.Settings
import NovelScript.SettingsFile
import NovelScript.Text.Blank
import NovelScript.Text.CharGrid
import NovelScript.Text.CodePoints
import NovelScript.Text.Concealed
import NovelScript.Text.Decoding
import NovelScript.Text.Encoding
import NovelScript.Text.Gb18030
import NovelScript.Text.Gb18030Index
import NovelScript.Text.Gb18030Runs
import NovelScript.Text.Jis0208
import NovelScript.Text.Quoted
import NovelScript.Text.ShiftJis
import NovelScript.Text.Utf16
import NovelScript.Text.Utf8
import NovelScript.Yaml.Characters
import NovelScript.Yaml.Node
import NovelScript.Yaml.Resolution
import NovelScript.Yaml.ScalarText
import NovelScript.Yaml.Token
import NovelScript.Yaml.Writing
