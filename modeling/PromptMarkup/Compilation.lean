/-
**Compilation.**

A source is parsed once and compiled for any number of contexts. Faults never stop a compilation:
they are diagnostics of it, in the order of the stages that found them.

* `CompileOptions`: what a compilation goes by;
* `Prompt`: a parsed source with the options for it;
* `Prompt.compile`: the compilation for a scope;
* `Compilation.frame`, `Compilation.format`: what a compilation is turned into;
* `Compilation.result`: the compilation unless it has errors.
-/

import PromptMarkup.Block.Presenting
import PromptMarkup.Chat.Format
import PromptMarkup.Evaluation.Document
import PromptMarkup.Markup.Document
import PromptMarkup.Output.Writer
import PromptMarkup.Source.Lines

namespace PromptMarkup

/-! ## Prompts -/

/-- What a compilation goes by: the settings of its evaluation, and how files are found. -/
structure CompileOptions where
  settings : Settings
  loader : Loader

namespace CompileOptions

/-- The options that hold unless others are given, with a reader for files. -/
def standard (reader : FileReader) : CompileOptions :=
  ⟨.standard, ⟨reader, ".", Loader.standardDepthLimit, []⟩⟩

/-- The options with another base directory for relative paths. -/
def withBaseDirectory (options : CompileOptions) (directory : String) : CompileOptions :=
  { options with loader := { options.loader with baseDirectory := directory } }

/-- The options for a file at a path: relative paths in it are seen from its directory. -/
def forFile (options : CompileOptions) (path : String) : CompileOptions :=
  match Path.parent? path with
  | some directory => if directory.isEmpty then options else options.withBaseDirectory directory
  | none => options

end CompileOptions

/-- A parsed source with the options for it. -/
structure Prompt where
  source : String
  parsed : Markup.Parsed
  options : CompileOptions

/-- The prompt that a source holds. Parsing never fails. -/
def Prompt.ofSource (options : CompileOptions) (source : String) : Prompt :=
  ⟨source, Markup.parse options.settings.literalTags source, options⟩

/-! ## Compilations -/

/-- Everything that a compilation leads to. -/
structure Compilation where
  document : Block
  trace : Trace
  declared : Schema.Outcome
  diagnostics : List Diagnostic
  singleSpeaker : Bool
  lines : LineIndex
  /-- The paths of the files asked for, the last one first. -/
  asked : List String

/-- The compilation of a prompt for the names of a scope. -/
def Prompt.compile (prompt : Prompt) (scope : Scope) : Compilation :=
  let evaluation :=
    evaluateDocument prompt.options.settings prompt.options.loader scope prompt.parsed.root
  { document := presentDocument evaluation.tree
    trace := evaluation.trace
    declared := evaluation.schema
    diagnostics :=
      prompt.parsed.diagnostics ++ evaluation.diagnostics ++ evaluation.tree.problems
    singleSpeaker := evaluation.singleSpeaker
    lines := .ofSource prompt.source
    asked := evaluation.asked }

namespace Compilation

/-- The plain text. -/
def plain (compilation : Compilation) : String := writePlain compilation.document

/-- The plain text with its source map. -/
def mapped (compilation : Compilation) : MappedOutput := writeMapped compilation.document

/-- The messages of a chat. -/
def messages (compilation : Compilation) : List Message :=
  writeMessages compilation.document compilation.singleSpeaker

/-- The frame: the messages of a chat, or all content as one message of a human. -/
def frame (compilation : Compilation) (chat : Bool) : ChatFrame :=
  let messages :=
    if chat then compilation.messages
    else [⟨.human, .ofParts (writeRich compilation.document)⟩]
  ⟨messages, compilation.declared⟩

/-- The frame in a format. -/
def format (compilation : Compilation) (format : OutputFormat) (chat : Bool) : Formatted :=
  formatFrame (compilation.frame chat) compilation.document format

end Compilation

/-! ## Errors -/

/-- The first error of a compilation with its place in the source. -/
structure CompileError where
  stage : Stage
  message : String
  location : Location
  deriving DecidableEq, Repr

/-- The words for an error of a compilation. -/
def CompileError.text (error : CompileError) : String :=
  error.stage.name ++ " error at line " ++ toString error.location.line ++ ", column " ++
    toString error.location.column ++ ": " ++ error.message

namespace Compilation

/-- The first error. -/
def firstError? (compilation : Compilation) : Option CompileError :=
  (PromptMarkup.firstError? compilation.diagnostics).map fun diagnostic =>
    ⟨diagnostic.stage, diagnostic.message, compilation.lines.location diagnostic.span.start⟩

/-- The compilation unless it has errors. -/
def result (compilation : Compilation) : Except CompileError Compilation :=
  match compilation.firstError? with
  | some error => .error error
  | none => .ok compilation

end Compilation

end PromptMarkup
