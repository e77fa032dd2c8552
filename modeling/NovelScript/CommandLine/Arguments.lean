import NovelScript.Text.Encoding

/-!
# The arguments of the decompiler

Arguments are read from left to right, and the first that is out of place ends the reading.  An
option takes its value from the same argument (`--output=a`, `-oa`, `-o=a`) or the next one, and may
be given once.
-/

namespace NovelScript

/-- What the decompiler is asked to do. -/
structure Request where
  /-- A script, or an archive together with `entry`. -/
  input : String
  /-- The name of the script inside the archive. -/
  entry : Option String := none
  output : String
  /-- A file of settings. -/
  config : Option String := none
  /-- The encoding of texts, in place of the one in the settings. -/
  encoding : Option Encoding := none
  /-- Whether the instructions are listed beside the output. -/
  listing : Bool := false
  /-- Whether the result is compiled again and compared. -/
  check : Bool := false
deriving DecidableEq

/-- Why arguments make no request. -/
inductive UsageError where
  | unexpected (argument : String)
  | repeated (option : String)
  | missingValue (option : String)
  | unwantedValue (option : String)
  | badEncoding (error : EncodingError)
  | missingOption (option : String)
deriving DecidableEq

/-- The wording of a usage error. -/
def UsageError.message : UsageError → String
  | unexpected argument => s!"unexpected argument: {argument}"
  | repeated option => s!"--{option} is given twice"
  | missingValue option => s!"--{option} needs a value"
  | unwantedValue option => s!"--{option} takes no value"
  | badEncoding error => s!"--lang: {error.message}"
  | missingOption option => s!"--{option} is missing"

/-- What arguments ask for. -/
inductive Command where
  | run (request : Request)
  | help
deriving DecidableEq

namespace Arguments

/-- The options that have a value. -/
inductive ValueOption where
  | input
  | entry
  | output
  | config
  | lang
deriving DecidableEq

/-- What an argument can be about. -/
inductive Topic where
  | valued (option : ValueOption)
  | listing
  | check
  | help
deriving DecidableEq

/-- The long name of an option. -/
def ValueOption.name : ValueOption → String
  | input => "input"
  | entry => "entry"
  | output => "output"
  | config => "config"
  | lang => "lang"

/-- Finds what a long name is about. -/
def ofLongName? (name : String) : Option Topic :=
  if name = "listing" then some .listing
  else if name = "check" then some .check
  else if name = "help" ∨ name = "version" then some .help
  else ([ValueOption.input, .entry, .output, .config, .lang].find? (·.name == name)).map .valued

/-- Finds what a short name is about. -/
def ofShortName? : Char → Option Topic
  | 'i' => some (.valued .input)
  | 'e' => some (.valued .entry)
  | 'o' => some (.valued .output)
  | 'c' => some (.valued .config)
  | 'l' => some (.valued .lang)
  | 'h' | 'V' => some .help
  | _ => none

/-- What has been given so far. -/
structure Given where
  input : Option String := none
  entry : Option String := none
  output : Option String := none
  config : Option String := none
  encoding : Option Encoding := none
  listing : Bool := false
  check : Bool := false

namespace Given

/-- A value for an option that is given once, and may have to be more than nothing. -/
def once (option : ValueOption) (before : Option String) (mayBeEmpty : Bool) (value : String) :
    Except UsageError (Option String) :=
  if before.isSome then .error (.repeated option.name)
  else if value.isEmpty && !mayBeEmpty then .error (.missingValue option.name)
  else .ok (some value)

/-- Gives an option its value. -/
def set (given : Given) (option : ValueOption) (value : String) : Except UsageError Given :=
  match option with
  | .input => do return { given with input := ← once option given.input false value }
  | .entry => do return { given with entry := ← once option given.entry true value }
  | .output => do return { given with output := ← once option given.output false value }
  | .config => do return { given with config := ← once option given.config false value }
  | .lang =>
    if given.encoding.isSome then .error (.repeated option.name)
    else
      match Encoding.ofName value with
      | .ok encoding => .ok { given with encoding := some encoding }
      | .error e => .error (.badEncoding e)

/-- The request that has been given, if nothing is missing. -/
def request (given : Given) : Except UsageError Request :=
  match given.input, given.output with
  | some input, some output =>
    .ok { input, output, entry := given.entry, config := given.config, encoding := given.encoding,
          listing := given.listing, check := given.check }
  | none, _ => .error (.missingOption "input")
  | some _, none => .error (.missingOption "output")

end Given

/-- What follows when an argument has been read. -/
inductive Step where
  | next (given : Given)
  /-- The next argument is the value of an option. -/
  | awaitValue (given : Given) (option : ValueOption)
  | help

/-- A long option, with what stands behind its equals sign. -/
def long (given : Given) (argument : String) (name : String) (value : Option String) :
    Except UsageError Step :=
  match ofLongName? name, value with
  | none, _ => .error (.unexpected argument)
  | some (.valued option), some value => (given.set option value).map .next
  | some (.valued option), none => .ok (.awaitValue given option)
  | some _, some _ => .error (.unwantedValue name)
  | some .listing, none =>
    if given.listing then .error (.repeated name) else .ok (.next { given with listing := true })
  | some .check, none =>
    if given.check then .error (.repeated name) else .ok (.next { given with check := true })
  | some .help, none => .ok .help

/-- A short option, with what stands behind its letter. -/
def short (given : Given) (argument : String) (letter : Char) (rest : List Char) :
    Except UsageError Step :=
  match ofShortName? letter, rest with
  | some (.valued option), [] => .ok (.awaitValue given option)
  | some (.valued option), '=' :: value => (given.set option (.ofList value)).map .next
  | some (.valued option), value => (given.set option (.ofList value)).map .next
  | some .help, _ => .ok .help
  | _, _ => .error (.unexpected argument)

/-- One argument that is not the value of the one before. -/
def step (given : Given) (argument : String) : Except UsageError Step :=
  match argument.toList with
  | '-' :: '-' :: body =>
    let name := body.takeWhile (· != '=')
    let value := (body.dropWhile (· != '=')).drop 1
    long given argument (.ofList name)
      (if body.contains '=' then some (.ofList value) else none)
  | '-' :: letter :: rest => short given argument letter rest
  | _ => .error (.unexpected argument)

/-- Whether an argument can be a value of the one before: a lone dash can, options cannot. -/
def isValue (argument : String) : Bool :=
  !(argument.startsWith "-") || argument == "-"

/-- Reads arguments; `awaiting` is the option whose value comes first. -/
def readFrom (given : Given) (awaiting : Option ValueOption) :
    List String → Except UsageError Command
  | [] =>
    match awaiting with
    | some option => .error (.missingValue option.name)
    | none => given.request.map .run
  | argument :: rest =>
    match awaiting with
    | some option =>
      if isValue argument then
        match given.set option argument with
        | .ok given => readFrom given none rest
        | .error e => .error e
      else .error (.missingValue option.name)
    | none =>
      if argument = "--" then
        match rest with
        | [] => given.request.map .run
        | extra :: _ => .error (.unexpected extra)
      else
        match step given argument with
        | .error e => .error e
        | .ok (.next given) => readFrom given none rest
        | .ok (.awaitValue given option) => readFrom given (some option) rest
        | .ok .help => .ok .help

end Arguments

/-- The command that arguments make. -/
def Command.ofArguments (arguments : List String) : Except UsageError Command :=
  Arguments.readFrom {} none arguments

end NovelScript
