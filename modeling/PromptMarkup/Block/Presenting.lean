/-
**From components to blocks.**

A component becomes a block with the presentation and the treatment of blanks that hold for it:
its own ones if it names them, those of the component around it otherwise. Components that only
declare something leave no block.

* `ComponentNode.blocks`: the blocks of a component;
* `ComponentNode.problems`: the props that name no style, which are reported and then ignored;
* `presentDocument`: the block of a whole document.
-/

import PromptMarkup.Block.Basic
import PromptMarkup.Block.Table
import PromptMarkup.Component.Tree
import PromptMarkup.Json.Reader
import PromptMarkup.Source.Diagnostic

namespace PromptMarkup

/-! ## Props -/

namespace ComponentNode

/-- The value that a prop names, read as one of the choices of a style. -/
def choice? {α : Type} (node : ComponentNode) (name : String)
    (read : String → Except UnknownName α) : Option α :=
  (node.propText? name).bind fun text => (read text).toOption

/-- The warning about a prop that names no choice. -/
def choiceProblem {α : Type} (node : ComponentNode) (name : String)
    (read : String → Except UnknownName α) : List Diagnostic :=
  match (node.propText? name).map read with
  | some (.error unknown) => [.warning .write node.span unknown.message]
  | _ => []

/-- A prop that is a truth value or names one. -/
def flag? (node : ComponentNode) (name : String) : Option Bool :=
  match node.prop? name with
  | some (.bool value) => some value
  | some (.string text) =>
    match Text.trimmed text with
    | "true" => some true
    | "false" => some false
    | _ => none
  | _ => none

/-- A prop as JSON; a text that is JSON is read. -/
def json? (node : ComponentNode) (name : String) : Option Json :=
  (node.prop? name).map fun
    | .string text => (Json.read? text).getD (.string text)
    | value => value.toJson

/-- The caption of a component: its own one, or that of its kind. -/
def caption? (node : ComponentNode) : Option String :=
  (node.propText? "caption").or node.component.defaultCaption

end ComponentNode

/-! ## What holds for a component -/

/-- What a component hands down to its children. -/
structure Inherited where
  presentation : Presentation
  spacing : Spacing
  deriving DecidableEq, Repr

/-- What holds at the top of a document. -/
def Inherited.standard : Inherited := ⟨.markdown, .filter⟩

/-- A component that leaves no block. -/
def ComponentKind.isSilent (kind : ComponentKind) : Bool :=
  kind.isMeta || kind = .binding || kind = .inclusion

/-- The presentation of a kind that names none. -/
def defaultPresentation (kind : ComponentKind) (around : Presentation) : Presentation :=
  match kind with
  | .image => .multimedia
  | .audio => .multimedia
  | .object => if around.isSerialization then around else .json
  | _ => around

/-- The treatment of blanks of a kind that names none. -/
def defaultSpacing (kind : ComponentKind) (around : Spacing) : Spacing :=
  match kind with
  | .text => .pre
  | .code => .pre
  | _ => around

namespace ComponentNode

/-- What holds for a component inside another one. -/
def inherited (node : ComponentNode) (around : Inherited) : Inherited where
  presentation := (node.choice? "syntax" Presentation.read).getD
    (defaultPresentation node.component.kind around.presentation)
  spacing := (node.choice? "whiteSpace" Spacing.read).getD
    (defaultSpacing node.component.kind around.spacing)

/-- The speaker of a component: messages have theirs, tools are called by the model and answer as
themselves unless another speaker is named. -/
def speaker? (node : ComponentNode) : Option Speaker :=
  let named := node.choice? "speaker" Speaker.read
  match node.component.kind with
  | .message speaker => some speaker
  | .toolRequest => named.or (some .ai)
  | .toolResponse => named.or (some .tool)
  | _ => named

/-! ## Kinds -/

/-- The media of a component, if its bytes are there and it is shown. -/
def media? (node : ComponentNode) (inherited : Inherited) : Option Media :=
  if inherited.presentation = .multimedia then
    let standard := if node.component.kind = .audio then "audio/mpeg" else "image/png"
    (node.propText? "base64").map fun base64 =>
      ⟨(node.propText? "type").getD standard, base64, node.propText? "alt"⟩
  else none

/-- The block of a component with a caption. -/
def captionedKind (node : ComponentNode) : BlockKind :=
  match node.caption? with
  | some caption =>
    .captioned caption ((node.choice? "captionStyle" CaptionStyle.read).getD .header)
      ((node.choice? "captionEnding" CaptionEnding.read).getD .colon)
  | none => .paragraph

/-- Code is inline when the component says so; otherwise when it is one line. -/
def codeKind (node : ComponentNode) : BlockKind :=
  .code (node.propText? "lang")
    ((node.flag? "inline").getD (!node.textContent.toList.contains '\n'))

/-- The records of a table, none if they are no array. -/
def records (node : ComponentNode) : List Json :=
  ((node.json? "records").bind Json.array?).getD []

/-- The block of a table. -/
def tableKind (node : ComponentNode) : BlockKind :=
  let cells := tableCells node.records (node.json? "columns")
  .table cells.header cells.rows

/-- The block of media: media that cannot be shown are their alternative text. -/
def mediaKind (node : ComponentNode) (inherited : Inherited) : BlockKind :=
  match node.media? inherited with
  | some clip => .media clip
  | none => .text ((node.propText? "alt").getD "") false

/-- The block of an unknown tag: inline when all of its children are. -/
def genericKind (children : List Block) : BlockKind :=
  if children.all Block.isInline then .inline .plain else .paragraph

/-- What a component with some blocks in it is, unless it is silent. -/
def blockKind (node : ComponentNode) (inherited : Inherited) (children : List Block) : BlockKind :=
  match node.component.kind with
  | .document => .document
  | .paragraph => .paragraph
  | .division => .division
  | .header => .heading
  | .captionedParagraph => node.captionedKind
  | .intention => node.captionedKind
  | .lineBreak => .lineBreak
  | .inline style => .inline style
  | .text => .inline .plain
  | .code => node.codeKind
  | .list => .list ((node.choice? "listStyle" ListStyle.read).getD .dash)
  | .listItem => .listItem
  | .table => node.tableKind
  | .object => .data (((node.prop? "data").map Value.toJson).getD .null)
  | .image => node.mediaKind inherited
  | .audio => node.mediaKind inherited
  | .message _ => .message
  | .toolRequest =>
    .toolRequest ((node.propText? "id").getD "") ((node.propText? "name").getD "")
      ((node.json? "parameters").getD (.object []))
  | .toolResponse =>
    .toolResponse ((node.propText? "id").getD "") ((node.propText? "name").getD "")
  | _ => genericKind children

end ComponentNode

/-! ## Children -/

/-- A component of which the children are shown. -/
def ComponentKind.showsChildren : ComponentKind → Bool
  | table => false
  | object => false
  | image => false
  | audio => false
  | toolRequest => false
  | _ => true

/-- A block in an item of its own. -/
def Block.asItem (inherited : Inherited) (span : Span) (block : Block) : Block :=
  match block.kind with
  | .listItem => block
  | _ =>
    ⟨.listItem, inherited.presentation, none, inherited.spacing, [block],
      if block.span.isEmpty then span else block.span⟩

/-- The items of a list: blank text between them goes away, and all else is in an item. -/
def listItems (inherited : Inherited) (span : Span) (children : List Block) : List Block :=
  (children.filter fun child => !child.isBlankText).map (Block.asItem inherited span)

/-- The children of a component as they stand in its block. -/
def arrangeChildren (node : ComponentNode) (inherited : Inherited) (children : List Block) :
    List Block :=
  if node.component.kind = .list then listItems inherited node.span children else children

/-- The block of some text. -/
def TextChunk.block (inherited : Inherited) (chunk : TextChunk) : Block :=
  ⟨.text chunk.value chunk.exact, inherited.presentation, none, inherited.spacing, [], chunk.span⟩

/-! ## Blocks -/

mutual

/-- The blocks of a component: one, or none if it is silent. -/
def ComponentNode.blocks (around : Inherited) : ComponentNode → List Block
  | ⟨component, tag, props, children, span⟩ =>
    let node : ComponentNode := ⟨component, tag, props, children, span⟩
    if component.kind.isSilent then []
    else
      let inherited := node.inherited around
      let inner := if component.kind.showsChildren then childBlocks inherited children else []
      [⟨node.blockKind inherited inner, inherited.presentation, node.speaker?, inherited.spacing,
        arrangeChildren node inherited inner, span⟩]

/-- The blocks of a child. -/
def ComponentChild.blocks (around : Inherited) : ComponentChild → List Block
  | .node node => node.blocks around
  | .text chunk => [chunk.block around]

/-- The blocks of some children. -/
def childBlocks (around : Inherited) : List ComponentChild → List Block
  | [] => []
  | child :: rest => child.blocks around ++ childBlocks around rest

end

/-! ## Problems -/

namespace ComponentNode

/-- The warning about records that are no array. -/
def recordsProblem (node : ComponentNode) : List Diagnostic :=
  match node.json? "records" with
  | none => []
  | some (.array _) => []
  | some other =>
    [.warning .write node.span ("table records must be an array, found " ++ other.kind)]

/-- The problems with the props of one kind. -/
def kindProblems (node : ComponentNode) : List Diagnostic :=
  let captionProblems :=
    if node.caption?.isSome then
      node.choiceProblem "captionStyle" CaptionStyle.read ++
        node.choiceProblem "captionEnding" CaptionEnding.read
    else []
  match node.component.kind with
  | .captionedParagraph => captionProblems
  | .intention => captionProblems
  | .list => node.choiceProblem "listStyle" ListStyle.read
  | .table => node.recordsProblem
  | _ => []

/-- The problems with the props of a component. -/
def ownProblems (node : ComponentNode) : List Diagnostic :=
  node.choiceProblem "syntax" Presentation.read ++ node.choiceProblem "whiteSpace" Spacing.read ++
    node.choiceProblem "speaker" Speaker.read ++ node.kindProblems

end ComponentNode

mutual

/-- The problems with the props of a component and of all below it that is shown. -/
def ComponentNode.problems : ComponentNode → List Diagnostic
  | ⟨component, tag, props, children, span⟩ =>
    let node : ComponentNode := ⟨component, tag, props, children, span⟩
    if component.kind.isSilent then []
    else
      node.ownProblems ++
        (if component.kind.showsChildren then childProblems children else [])

/-- The problems with the props of a child. -/
def ComponentChild.problems : ComponentChild → List Diagnostic
  | .node node => node.problems
  | .text _ => []

/-- The problems with the props of some children. -/
def childProblems : List ComponentChild → List Diagnostic
  | [] => []
  | child :: rest => child.problems ++ childProblems rest

end

/-! ## Documents -/

/-- The block of a document: that of its root, if the root is a document, else one around it. -/
def presentDocument (root : ComponentNode) : Block :=
  let wrapped := fun children =>
    Block.mk .document .markdown none .filter children root.span
  match root.blocks .standard with
  | [block] =>
    match block.kind with
    | .document => block
    | _ => wrapped [block]
  | blocks => wrapped blocks

end PromptMarkup
