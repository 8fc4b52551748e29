/-
**Runs of the command line.**

A run reads a document with its context and its stylesheet, reports what is wrong with it, and
writes the result. It reaches files and streams through a host.

* `Host`: what a run needs from its surroundings;
* `RunError`: why a run breaks off;
* `run`: a run of an invocation; it tells whether the document is free of errors;
* `answer`: what a command line does, with its exit code.
-/

import PromptMarkup.CommandLine.Arguments
import PromptMarkup.CommandLine.RunRecord
import PromptMarkup.Compilation
import PromptMarkup.Json.Reader

namespace PromptMarkup.CommandLine

/-- What a run needs from its surroundings. -/
structure Host (m : Type → Type) where
  readInput : m (Except FileFailure (List UInt8))
  readFile : String → m (Except FileFailure (List UInt8))
  listDirectory : String → m (Except FileFailure (List String))
  makeDirectories : String → m (Except FileFailure Unit)
  writeFile : String → String → m (Except FileFailure Unit)
  writeOutput : String → m Unit
  writeError : String → m Unit
  /-- A compilation with a reader for the files there are. -/
  compile : (FileReader → Compilation) → m Compilation

/-! ## Errors -/

/-- Why a run breaks off. -/
inductive RunError where
  | contextUnreadable (path : String) (failure : FileFailure)
  | contextNotJson
  | contextNotObject
  | stylesheetUnreadable (path : String) (failure : FileFailure)
  | stylesheet (error : StylesheetError)
  | documentUnreadable (path : String) (failure : FileFailure)
  | inputUnreadable (failure : FileFailure)
  | format (unknown : UnknownFormat)
  | traceNotMade (directory : String) (failure : FileFailure)
  | traceNotListed (directory : String) (failure : FileFailure)
  | traceNotWritten (path : String) (failure : FileFailure)
  | outputNotWritten (path : String) (failure : FileFailure)

/-- The words for a run that breaks off. -/
def RunError.message : RunError → String
  | contextUnreadable path failure =>
    "failed to read context file " ++ path ++ ": " ++ failure.message
  | contextNotJson => "context is not valid JSON: the text is malformed"
  | contextNotObject => "context must be a JSON object"
  | stylesheetUnreadable path failure =>
    "failed to read stylesheet " ++ path ++ ": " ++ failure.message
  | stylesheet error => error.message
  | documentUnreadable path failure =>
    "failed to read " ++ path ++ ": " ++ (LoadError.failed failure).message ++ ": " ++
      failure.message
  | inputUnreadable failure => "failed to read standard input: " ++ failure.message
  | format unknown => unknown.message
  | traceNotMade directory failure =>
    "failed to create trace directory " ++ directory ++ ": " ++ failure.message
  | traceNotListed directory failure =>
    "failed to list trace directory " ++ directory ++ ": " ++ failure.message
  | traceNotWritten path failure =>
    "failed to write trace file " ++ path ++ ": " ++ failure.message
  | outputNotWritten path failure => "failed to write " ++ path ++ ": " ++ failure.message

/-- A failure of the file system as the reason why a run breaks off. -/
def orBreak {α : Type} (reason : FileFailure → RunError) :
    Except FileFailure α → Except RunError α
  | .ok value => .ok value
  | .error failure => .error (reason failure)

/-- The text of what has been read. -/
def textOf (bytes : Except FileFailure (List UInt8)) : Except FileFailure String := do
  match Text.decodeUtf8 (← bytes) with
  | .ok text => return text
  | .error _ => .error .notText

/-- The context that a text holds. -/
def contextOf (text : String) : Except RunError Json :=
  match Json.read? text with
  | none => .error .contextNotJson
  | some (.object fields) => .ok (.object fields)
  | some _ => .error .contextNotObject

/-! ## Reports -/

/-- The word for how grave a diagnostic is. -/
def severityWord : Severity → String
  | .information => "info"
  | severity => severity.name

/-- The line that reports a diagnostic. -/
def reportLine (name : String) (lines : LineIndex) (diagnostic : Diagnostic) : String :=
  name ++ ":" ++ (lines.location diagnostic.span.start).text ++ ": " ++
    severityWord diagnostic.severity ++ ": " ++ diagnostic.message ++ "\n"

/-- What the user gets of a compilation, and whether it is JSON. -/
def resultOf (invocation : Invocation) (compilation : Compilation) :
    Except RunError (String × Bool) :=
  if invocation.sourceMap then .ok (compilation.mapped.toJson.pretty "  ", true)
  else
    match OutputFormat.read invocation.format with
    | .error unknown => .error (.format unknown)
    | .ok format =>
      let formatted := compilation.format format invocation.chat
      .ok (formatted.prettyText, formatted.isJson)

/-! ## Runs -/

/-- A step of a run, which may break off. -/
abbrev RunStep (m : Type → Type) (α : Type) := ExceptT RunError m α

variable {m : Type → Type} [Monad m]

/-- What a host gives, unless it fails. -/
def attempt {α : Type} (reason : FileFailure → RunError) (action : m (Except FileFailure α)) :
    RunStep m α :=
  ExceptT.mk do return orBreak reason (← action)

/-- The text of a file, unless it fails. -/
def readText (host : Host m) (reason : FileFailure → RunError) (path : String) :
    RunStep m String :=
  attempt reason do return textOf (← host.readFile path)

/-- The context of a run. -/
def readContext (host : Host m) : ContextSource → RunStep m Json
  | .none => return .object []
  | .inline text => ExceptT.mk (return contextOf text)
  | .file path => do
    let text ← readText host (.contextUnreadable path) path
    ExceptT.mk (return contextOf text)

/-- The stylesheet of a run with its text. -/
def readStylesheet (host : Host m) : Option String → RunStep m (Stylesheet × Option String)
  | none => return (.empty, none)
  | some path => do
    let text ← readText host (.stylesheetUnreadable path) path
    match Stylesheet.read text with
    | .ok sheet => return (sheet, some text)
    | .error error => throw (.stylesheet error)

/-- The document of a run. -/
def readDocument (host : Host m) : Option String → RunStep m String
  | some path => readText host (.documentUnreadable path) path
  | none => attempt .inputUnreadable do return textOf (← host.readInput)

/-- The options for the document of a run. -/
def optionsFor (file : Option String) (sheet : Stylesheet) (reader : FileReader) :
    CompileOptions :=
  let standard := CompileOptions.standard reader
  let options := { standard with settings := { standard.settings with stylesheet := sheet } }
  match file with
  | some path => options.forFile path
  | none => options

/-- Writes the files of a run into a directory under the next number. -/
def keepRecord (host : Host m) (directory : String) (record : RunRecord) : RunStep m Unit := do
  attempt (.traceNotMade directory) (host.makeDirectories directory)
  let names ← attempt (.traceNotListed directory) (host.listDirectory directory)
  let group := Path.join directory (groupName (nextNumber names) record.path)
  record.files.forM fun (ending, contents) =>
    attempt (.traceNotWritten (group ++ ending)) (host.writeFile (group ++ ending) contents)

/-- Writes the result to a file, or to the output with a line break behind it. -/
def emit (host : Host m) (path : Option String) (text : String) : RunStep m Unit :=
  match path with
  | some path => attempt (.outputNotWritten path) (host.writeFile path text)
  | none => ExceptT.lift (host.writeOutput (text ++ "\n"))

/-- A run. It tells whether the document is free of errors. -/
def run (host : Host m) (invocation : Invocation) : RunStep m Bool := do
  let context ← readContext host invocation.context
  let (sheet, sheetText) ← readStylesheet host invocation.stylesheet
  let source ← readDocument host invocation.file
  let compilation ← ExceptT.lift (host.compile fun reader =>
    (Prompt.ofSource (optionsFor invocation.file sheet reader) source).compile (.ofJson context))
  compilation.diagnostics.forM fun diagnostic => ExceptT.lift (host.writeError
    (reportLine (invocation.file.getD "<stdin>") compilation.lines diagnostic))
  let (result, isJson) ← ExceptT.mk (return resultOf invocation compilation)
  match invocation.traceDirectory with
  | some directory =>
    keepRecord host directory
      ⟨invocation.file.getD inputStem, source, context, sheetText, result, isJson⟩
  | none => pure ()
  emit host invocation.output result
  return !hasErrors compilation.diagnostics

/-! ## Answers -/

/-- The exit code of a run without errors. -/
def successCode : UInt32 := 0

/-- The exit code of a run of a document that has errors. -/
def faultCode : UInt32 := 1

/-- The exit code of a run that breaks off, or that is not asked for rightly. -/
def breakCode : UInt32 := 2

/-- The name of the program with its version. -/
def versionText : String := "poml 0.1.0\n"

/-- The help for the command line. -/
def helpText : String :=
  "Compile POML prompt markup into messages\n\nUsage: poml [OPTIONS]\n\nOptions:\n" ++
  "  -f, --file <PATH>             Template file; standard input when omitted\n" ++
  "      --context <JSON>          Context as an inline JSON object\n" ++
  "      --context-file <PATH>     Context read from a JSON file\n" ++
  "      --stylesheet-file <PATH>  Stylesheet read from a JSON file\n" ++
  "      --chat <BOOL>             Split the output into speaker messages [default: true] " ++
  "[possible values: true, false]\n" ++
  "      --format <FORMAT>         raw, message_dict, dict, openai_chat, langchain or ir " ++
  "[default: dict]\n" ++
  "  -o, --output <PATH>           Write the result here instead of standard output\n" ++
  "      --trace-dir <DIR>         Also save the markup, context, stylesheet and result of this " ++
  "run\n" ++
  "      --source-map              Print the plain text with its source map as JSON\n" ++
  "  -v, --verbose...              Verbosity level (can be repeated)\n" ++
  "  -h, --help                    Print help\n" ++
  "  -V, --version                 Print version\n"

/-- What a command line does, with its exit code. -/
def answer (host : Host m) (arguments : List String) : m UInt32 := do
  match Request.read arguments with
  | .error fault =>
    host.writeError ("error: " ++ fault.message ++ "\n\nUsage: poml [OPTIONS]\n")
    return breakCode
  | .ok .help =>
    host.writeOutput helpText
    return successCode
  | .ok .version =>
    host.writeOutput versionText
    return successCode
  | .ok (.run invocation) =>
    match ← (run host invocation).run with
    | .ok true => return successCode
    | .ok false => return faultCode
    | .error error =>
      host.writeError ("error: " ++ error.message ++ "\n")
      return breakCode

end PromptMarkup.CommandLine
