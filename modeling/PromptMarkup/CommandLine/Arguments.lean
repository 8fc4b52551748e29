/-
**Command line arguments.**

Arguments are taken one after the other. The first one that asks for help or for the version, or
that is wrong, decides what the command line means.

* `Invocation`: what a run is asked to do;
* `Request`: an invocation, a question for help or for the version;
* `ArgumentFault`: why arguments are wrong;
* `Request.read`: the request that arguments make.
-/

import PromptMarkup.Text.Cut

namespace PromptMarkup.CommandLine

/-! ## Requests -/

/-- Where the names of a run come from. -/
inductive ContextSource where
  | none
  | inline (text : String)
  | file (path : String)
  deriving DecidableEq, Repr

/-- What a run is asked to do. A document without a path is read from the input, and a result
without a path is written to the output. -/
structure Invocation where
  file : Option String
  context : ContextSource
  stylesheet : Option String
  chat : Bool
  format : String
  output : Option String
  traceDirectory : Option String
  sourceMap : Bool
  deriving DecidableEq, Repr

/-- What a command line asks for. -/
inductive Request where
  | run (invocation : Invocation)
  | help
  | version
  deriving DecidableEq, Repr

/-! ## Names -/

/-- The options that take a value. -/
inductive OptionName where
  | file
  | context
  | contextFile
  | stylesheetFile
  | chat
  | format
  | output
  | traceDirectory
  deriving DecidableEq, Repr

/-- The arguments without a value. -/
inductive FlagName where
  | sourceMap
  | verbose
  | help
  | version
  deriving DecidableEq, Repr

/-- What a name among the arguments stands for. -/
inductive ArgumentName where
  | option (name : OptionName)
  | flag (name : FlagName)
  deriving DecidableEq, Repr

/-- The option as it is shown. -/
def OptionName.text : OptionName → String
  | file => "--file <PATH>"
  | context => "--context <JSON>"
  | contextFile => "--context-file <PATH>"
  | stylesheetFile => "--stylesheet-file <PATH>"
  | chat => "--chat <BOOL>"
  | format => "--format <FORMAT>"
  | output => "--output <PATH>"
  | traceDirectory => "--trace-dir <DIR>"

/-- What a name behind two hyphens stands for. -/
def ArgumentName.ofLong? : String → Option ArgumentName
  | "file" => some (.option .file)
  | "context" => some (.option .context)
  | "context-file" => some (.option .contextFile)
  | "stylesheet-file" => some (.option .stylesheetFile)
  | "chat" => some (.option .chat)
  | "format" => some (.option .format)
  | "output" => some (.option .output)
  | "trace-dir" => some (.option .traceDirectory)
  | "source-map" => some (.flag .sourceMap)
  | "verbose" => some (.flag .verbose)
  | "help" => some (.flag .help)
  | "version" => some (.flag .version)
  | _ => none

/-- What a letter behind one hyphen stands for. -/
def ArgumentName.ofLetter? : Char → Option ArgumentName
  | 'f' => some (.option .file)
  | 'o' => some (.option .output)
  | 'v' => some (.flag .verbose)
  | 'h' => some (.flag .help)
  | 'V' => some (.flag .version)
  | _ => none

/-- The value of an option is acceptable: paths are not empty, and a choice is one of two words. -/
def OptionName.accepts (name : OptionName) (value : String) : Bool :=
  match name with
  | context | format => true
  | chat => value = "true" || value = "false"
  | file | contextFile | stylesheetFile | output | traceDirectory => value ≠ ""

/-! ## Faults -/

/-- Why arguments are wrong. -/
inductive ArgumentFault where
  | unexpected (argument : String)
  | missingValue (option : OptionName)
  | invalidValue (option : OptionName) (value : String)
  | unneededValue (argument : String)
  | repeated (name : String)
  | conflict (first second : OptionName)
  deriving DecidableEq, Repr

/-- The words for wrong arguments. -/
def ArgumentFault.message : ArgumentFault → String
  | unexpected argument => "unexpected argument '" ++ argument ++ "' found"
  | missingValue option => "a value is required for '" ++ option.text ++ "' but none was supplied"
  | invalidValue option value => "invalid value '" ++ value ++ "' for '" ++ option.text ++ "'"
  | unneededValue argument => "unexpected value in '" ++ argument ++ "'; no value was expected"
  | repeated name => "the argument '" ++ name ++ "' cannot be used multiple times"
  | conflict first second =>
    "the argument '" ++ first.text ++ "' cannot be used with '" ++ second.text ++ "'"

/-- Why the reading of arguments ends before the last one. -/
inductive Ending where
  | help
  | version
  | fault (fault : ArgumentFault)

/-! ## Reading -/

/-- What the arguments up to some point have given. -/
structure Given where
  values : List (OptionName × String)
  sourceMap : Bool
  /-- The option whose value comes next. -/
  pending : Option OptionName
  /-- Two hyphens alone have ended the options. -/
  ended : Bool

namespace Given

/-- Nothing has been given. -/
def nothing : Given := ⟨[], false, none, false⟩

/-- An option with its value. -/
def give (given : Given) (name : OptionName) (value : String) : Except Ending Given :=
  if (given.values.lookup name).isSome then .error (.fault (.repeated name.text))
  else if name.accepts value then
    .ok { given with values := (name, value) :: given.values, pending := none }
  else .error (.fault (.invalidValue name value))

/-- An argument without a value. -/
def raise (given : Given) : FlagName → Except Ending Given
  | .help => .error .help
  | .version => .error .version
  | .verbose => .ok given
  | .sourceMap =>
    if given.sourceMap then .error (.fault (.repeated "--source-map"))
    else .ok { given with sourceMap := true }

/-- The letters behind one hyphen: arguments without a value, up to an option that what is left is
the value of. -/
def takeLetters (given : Given) : List Char → Except Ending Given
  | [] => .ok given
  | letter :: rest =>
    match ArgumentName.ofLetter? letter with
    | none => .error (.fault (.unexpected (String.ofList ['-', letter])))
    | some (.flag name) => do (← given.raise name).takeLetters rest
    | some (.option name) =>
      match rest with
      | [] => .ok { given with pending := some name }
      | '=' :: value => given.give name (String.ofList value)
      | value => given.give name (String.ofList value)

/-- A name behind two hyphens, perhaps with a value behind a sign of equality. -/
def takeLong (given : Given) (argument : String) (chars : List Char) : Except Ending Given :=
  let (name, rest) := Text.cutWhile (· ≠ '=') chars
  match ArgumentName.ofLong? (String.ofList name), rest with
  | none, _ => .error (.fault (.unexpected argument))
  | some (.flag flag), [] => given.raise flag
  | some (.flag _), _ :: _ => .error (.fault (.unneededValue argument))
  | some (.option option), [] => .ok { given with pending := some option }
  | some (.option option), _ :: value => given.give option (String.ofList value)

/-- An argument that does not begin with a hyphen, or is nothing else: the value of an option. -/
def takePlain (given : Given) (argument : String) : Except Ending Given :=
  match given.pending with
  | some name => given.give name argument
  | none => .error (.fault (.unexpected argument))

/-- An argument that begins with a hyphen, where no value is expected. -/
def takeHyphens (given : Given) (argument : String) : List Char → Except Ending Given
  | ['-', '-'] => .ok { given with ended := true }
  | '-' :: '-' :: name => given.takeLong argument name
  | _ :: letters => given.takeLetters letters
  | [] => .ok given

/-- One more argument. -/
def take (given : Given) (argument : String) : Except Ending Given :=
  if given.ended then .error (.fault (.unexpected argument))
  else
    match argument.toList with
    | '-' :: next :: rest =>
      match given.pending with
      | some name => .error (.fault (.missingValue name))
      | none => given.takeHyphens argument ('-' :: next :: rest)
    | _ => given.takePlain argument

/-- Where the names of a run come from. There cannot be two sources. -/
def contextSource (given : Given) : Except Ending ContextSource :=
  match given.values.lookup .context, given.values.lookup .contextFile with
  | some _, some _ => .error (.fault (.conflict .context .contextFile))
  | some text, none => .ok (.inline text)
  | none, some path => .ok (.file path)
  | none, none => .ok .none

/-- The invocation that all arguments together make. -/
def invocation (given : Given) : Except Ending Invocation :=
  match given.pending with
  | some name => .error (.fault (.missingValue name))
  | none => do
    let context ← given.contextSource
    let value := fun name => given.values.lookup name
    return {
      file := value .file
      context
      stylesheet := value .stylesheetFile
      chat := value .chat ≠ some "false"
      format := (value .format).getD "dict"
      output := value .output
      traceDirectory := value .traceDirectory
      sourceMap := given.sourceMap }

end Given

/-- The request that arguments make. -/
def Request.read (arguments : List String) : Except ArgumentFault Request :=
  match (arguments.foldlM Given.take Given.nothing).bind Given.invocation with
  | .ok invocation => .ok (.run invocation)
  | .error .help => .ok .help
  | .error .version => .ok .version
  | .error (.fault fault) => .error fault

end PromptMarkup.CommandLine
