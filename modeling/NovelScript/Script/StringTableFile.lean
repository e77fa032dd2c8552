import NovelScript.Script.StringTable
import NovelScript.Yaml.Writing

/-!
# String tables as YAML

A string table is written as a sequence of mappings with a key and a text each.
-/

namespace NovelScript

namespace StringEntry

/-- The lines of an entry. -/
def toYaml (entry : StringEntry) : String :=
  "- " ++ Yaml.entryLines 2 "key" entry.key ++ "  " ++ Yaml.entryLines 2 "text" entry.text

/-- Reads an entry; it needs both a key and a text. -/
def ofNode? (node : Yaml.Node) : Option StringEntry := do
  let fields ← node.fields? ["key", "text"]
  let key ← (← fields.lookup "key").text?
  let text ← (← fields.lookup "text").text?
  return ⟨key, text⟩

end StringEntry

namespace StringTable

/-- The file of a string table. -/
def toYaml (table : StringTable) : String :=
  if table.entries.isEmpty then "[]\n" else String.join (table.entries.map StringEntry.toYaml)

/-- Reads the file of a string table. -/
def ofYaml? (text : String) : Option StringTable := do
  let items ← (← Yaml.Node.parse? text).items?
  return .ofEntries (← items.mapM StringEntry.ofNode?)

end StringTable
end NovelScript
