/-
**Markup without ranges.**

An outline is what a tree says: names, attributes, values and how the elements nest. It is written
in one way. Not every outline can be read back: neighbouring parts would run into each other, a
text would be taken for a tag, or a name for that of a literal element.

* `Outline`: texts, templates, comments and elements;
* `Outline.print`: how outlines are written;
* `Outline.IsGrammatical`: the outlines of the markup grammar;
* `Outline.height`: how deep their elements nest;
* `outlines?`: the outlines of the contents of a tree.
-/

import PromptMarkup.Expr.Parser
import PromptMarkup.Markup.Lexer
import PromptMarkup.Markup.Tree

namespace PromptMarkup.Markup

open Text

/-! ### Outlines -/

/-- What is written behind the name of an attribute. -/
inductive OutlineValue where
  | bare
  | quoted (text : String)
  | template (expression : String)
  deriving DecidableEq

/-- An attribute. -/
structure OutlinePair where
  key : String
  value : OutlineValue
  deriving DecidableEq

/-- The name and the attributes of an element. -/
structure OutlineTag where
  name : String
  pairs : List OutlinePair
  deriving DecidableEq

/-- A part of a document without its range. -/
inductive Outline where
  | text (value : String)
  | template (expression : String)
  | comment (content : String)
  /-- An element whose tag closes itself. -/
  | single (tag : OutlineTag)
  | element (tag : OutlineTag) (children : List Outline)

/-! ### Writing -/

/-- A template. -/
def printTemplate (expression : String) : List Char :=
  templateOpening ++ (expression.toList ++ templateClosing)

def OutlineValue.print : OutlineValue → List Char
  | bare => []
  | quoted text => '=' :: '"' :: (text.toList ++ ['"'])
  | template expression => '=' :: printTemplate expression

/-- An attribute with the space in front of it. -/
def OutlinePair.print (pair : OutlinePair) : List Char :=
  ' ' :: (pair.key.toList ++ pair.value.print)

/-- An open tag up to its closing bracket. -/
def OutlineTag.print (tag : OutlineTag) : List Char :=
  '<' :: (tag.name.toList ++ tag.pairs.flatMap OutlinePair.print)

/-- The text of some outlines in a row. -/
def Outline.print : List Outline → List Char
  | [] => []
  | .text value :: rest => value.toList ++ print rest
  | .template expression :: rest => printTemplate expression ++ print rest
  | .comment content :: rest =>
    commentOpening ++ (content.toList ++ (commentClosing ++ print rest))
  | .single tag :: rest => tag.print ++ ('/' :: '>' :: print rest)
  | .element tag children :: rest =>
    tag.print ++ ('>' :: (print children ++ ('<' :: '/' :: (tag.name.toList ++ '>' :: print rest))))

/-! ### The grammar -/

/-- A letter or underscore, and then letters, digits, underscores, points, colons and hyphens. -/
def isName (chars : List Char) : Bool := startsName chars && chars.all isNameContinue

/-- The text of an expression, without blanks around it. -/
structure IsExpression (text : String) : Prop where
  parses : (Expr.parse text).isOk = true
  first : text.toList.head?.any isMarkupBlank = false
  last : text.toList.getLast?.any isMarkupBlank = false

/-- A run of text in which nothing else begins. A brace at its end would open a template together
with one behind it. -/
structure IsTextRun (text : String) : Prop where
  nonempty : text.toList ≠ []
  plain : ∀ rest, rest <:+ text.toList → beginsMarkup rest = false
  last : text.toList.getLast? ≠ some '\x7b'

/-- The inside of a comment that is no pragma. -/
structure IsCommentText (text : String) : Prop where
  unclosed : ¬ commentClosing <:+: text.toList
  plain : pragmaWord.isPrefixOf (trimStart text.toList) = false

/-- A value that the attribute of a key can have. Quoted ones are texts as they stand. -/
def OutlineValue.IsGrammatical (key : String) : OutlineValue → Prop
  | bare => True
  | quoted text =>
    '"' ∉ text.toList ∧ ¬ templateOpening <:+: text.toList ∧ equalIgnoringCase key "for" = false
  | template expression => IsExpression expression

/-- An attribute with a name and a value that it can have. -/
structure OutlinePair.IsGrammatical (pair : OutlinePair) : Prop where
  key : isName pair.key.toList = true
  value : pair.value.IsGrammatical pair.key

/-- The tag of an element that is not literal. -/
structure OutlineTag.IsGrammatical (tags : LiteralTags) (tag : OutlineTag) : Prop where
  name : isName tag.name.toList = true
  plain : tags.contains tag.name = false
  pairs : ∀ pair ∈ tag.pairs, pair.IsGrammatical

/-- The first of some outlines is a text. -/
def Outline.startsText : List Outline → Bool
  | .text _ :: _ => true
  | _ => false

/-- Outlines that can be read back from what is written for them. -/
def Outline.IsGrammatical (tags : LiteralTags) : List Outline → Prop
  | [] => True
  | .text value :: rest => IsTextRun value ∧ startsText rest = false ∧ IsGrammatical tags rest
  | .template expression :: rest => IsExpression expression ∧ IsGrammatical tags rest
  | .comment content :: rest => IsCommentText content ∧ IsGrammatical tags rest
  | .single tag :: rest => tag.IsGrammatical tags ∧ IsGrammatical tags rest
  | .element tag children :: rest =>
    tag.IsGrammatical tags ∧ IsGrammatical tags children ∧ IsGrammatical tags rest

/-- The number of elements on the longest way down. -/
def Outline.height : List Outline → Nat
  | [] => 0
  | .single _ :: rest => max 1 (height rest)
  | .element _ children :: rest => max (height children + 1) (height rest)
  | .text _ :: rest => height rest
  | .template _ :: rest => height rest
  | .comment _ :: rest => height rest

/-! ### Reading off -/

/-- The outline of a value that is a text or a template. -/
def AttributeValue.outline? : AttributeValue → Option OutlineValue
  | quoted value => some (.quoted value.value)
  | template value => some (.template value.expression)
  | _ => none

/-- The outline of an attribute. -/
def Attribute.outline? (pair : Attribute) : Option OutlinePair :=
  match pair.value with
  | none => some ⟨pair.key, .bare⟩
  | some value => value.outline?.map (⟨pair.key, ·⟩)

/-- The outline of an open tag. -/
def OpenTag.outline? (tag : OpenTag) : Option OutlineTag :=
  (tag.attributes.mapM Attribute.outline?).map (⟨tag.name, ·⟩)

/-- The outlines of some contents. Pragmas, literal elements and elements that are never closed have
none. -/
def outlines? : List Content → Option (List Outline)
  | [] => some []
  | .text node :: rest => return .text node.value :: (← outlines? rest)
  | .template node :: rest => return .template node.expression :: (← outlines? rest)
  | .comment node :: rest => return .comment node.content :: (← outlines? rest)
  | .element ⟨opening, .selfClosing, _, _⟩ :: rest =>
    return .single (← opening.outline?) :: (← outlines? rest)
  | .element ⟨opening, .children contents, some _, _⟩ :: rest =>
    return .element (← opening.outline?) (← outlines? contents) :: (← outlines? rest)
  | _ :: _ => none

end PromptMarkup.Markup
