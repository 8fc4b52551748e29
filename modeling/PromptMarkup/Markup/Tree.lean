/-
**The tree of a document.**

The parser keeps everything it reads: tags, attributes, texts, templates and comments, each with
its range, and texts with the characters they stand for.

* `Content`: what stands between tags; `Element`, `Body`: an element and what it contains;
* `Element.bodySpan`: the range between the tags; `Body.plainText`: the text there;
* `Root`: a whole document.
-/

import PromptMarkup.Source.Span
import PromptMarkup.Text.Blank

namespace PromptMarkup.Markup

/-! ## Leaves -/

/-- A run of text. -/
structure TextNode where
  value : String
  span : Span
  deriving DecidableEq, Repr

/-- An expression between double braces. The text of the expression has no blanks around it. -/
structure Template where
  expression : String
  expressionSpan : Span
  span : Span
  deriving DecidableEq, Repr

/-- A comment. -/
structure Comment where
  content : String
  span : Span
  deriving DecidableEq, Repr

/-- A comment that gives the compiler a directive. -/
structure Pragma where
  directive : String
  options : List String
  span : Span
  deriving DecidableEq, Repr

/-! ## Attributes -/

/-- A value without templates. The range holds the quotes, the range of the value does not. -/
structure Quoted where
  value : String
  valueSpan : Span
  span : Span
  deriving DecidableEq, Repr

/-- A part of a quoted value with templates. -/
inductive QuotedPart where
  | text (node : TextNode)
  | template (node : Template)
  deriving DecidableEq, Repr

/-- A quoted value with at least one template. -/
structure QuotedTemplate where
  parts : List QuotedPart
  span : Span
  deriving DecidableEq, Repr

/-- The template that is all of a quoted value. -/
def QuotedTemplate.soleTemplate? (quoted : QuotedTemplate) : Option Template :=
  match quoted.parts with
  | [.template node] => some node
  | _ => none

/-- A name that runs through the items of a collection. -/
structure ForIterator where
  iterator : String
  iteratorSpan : Span
  collection : String
  collectionSpan : Span
  span : Span
  deriving DecidableEq, Repr

/-- The value of an attribute. -/
inductive AttributeValue where
  | quoted (value : Quoted)
  | quotedTemplate (value : QuotedTemplate)
  | template (value : Template)
  | forIterator (value : ForIterator)
  deriving DecidableEq, Repr

/-- The range of a value. -/
def AttributeValue.span : AttributeValue → Span
  | quoted value => value.span
  | quotedTemplate value => value.span
  | template value => value.span
  | forIterator value => value.span

/-- A name in a tag, with the value it is given. -/
structure Attribute where
  key : String
  keySpan : Span
  value : Option AttributeValue
  span : Span
  deriving DecidableEq, Repr

/-! ## Elements -/

/-- An open tag without its closing bracket. -/
structure OpenTag where
  name : String
  nameSpan : Span
  attributes : List Attribute
  span : Span
  deriving DecidableEq, Repr

/-- A close tag. -/
structure CloseTag where
  name : String
  nameSpan : Span
  span : Span
  deriving DecidableEq, Repr

mutual

/-- What stands between tags. -/
inductive Content where
  | element (node : Element)
  | template (node : Template)
  | comment (node : Comment)
  | pragma (node : Pragma)
  | text (node : TextNode)

/-- What an element contains. -/
inductive Body where
  /-- The tag closes itself. -/
  | selfClosing
  /-- The text of a literal element, as written. -/
  | literal (text : TextNode)
  | children (contents : List Content)

/-- An element. The close tag is missing when the tag closes itself and when it is never closed. -/
structure Element where
  opening : OpenTag
  body : Body
  closing : Option CloseTag
  span : Span

end

/-- The range of some content. -/
def Content.span : Content → Span
  | element node => node.span
  | template node => node.span
  | comment node => node.span
  | pragma node => node.span
  | text node => node.span

namespace Element

/-- The name of an element. -/
def name (element : Element) : String := element.opening.name

/-- The first attribute of that name in letters of either case. -/
def attribute? (element : Element) (key : String) : Option Attribute :=
  element.opening.attributes.find? fun pair => Text.equalIgnoringCase pair.key key

/-- The contents of an element whose body is not literal. -/
def children (element : Element) : List Content :=
  match element.body with
  | .children contents => contents
  | _ => []

/-- The range between the open tag and the close tag, the closing bracket of the open tag
included. -/
def bodySpan (element : Element) : Span :=
  let stop := element.closing.elim element.span.stop fun tag => tag.span.start
  let start := match element.body with
    | .selfClosing => element.span.stop
    | _ => min element.opening.span.stop stop
  ⟨start, max stop start⟩

end Element

mutual

/-- The texts among some contents and below the elements among them. Templates and literal bodies
are left out. -/
def plainText : List Content → String
  | [] => ""
  | content :: rest => plainTextOf content ++ plainText rest

/-- The texts that some content is or has below it. -/
def plainTextOf : Content → String
  | .text node => node.value
  | .element ⟨_, body, _, _⟩ => plainTextIn body
  | _ => ""

/-- The texts below a body that is not literal. -/
def plainTextIn : Body → String
  | .children contents => plainText contents
  | _ => ""

end

/-- The text of a body as written, without templates and tags. -/
def Body.plainText : Body → String
  | selfClosing => ""
  | literal text => text.value
  | children contents => Markup.plainText contents

/-- A whole document. -/
structure Root where
  children : List Content
  span : Span

end PromptMarkup.Markup
