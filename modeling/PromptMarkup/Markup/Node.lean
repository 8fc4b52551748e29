/-
**The tree seen as nodes.**

Editors ask for the node under a cursor. For them all parts of the tree are nodes of one type,
each with a kind, a range and children.

* `Node`: a part of the tree;
* `Node.children`: its parts in source order;
* `Node.pathAt`: the nodes at an offset, outermost first.
-/

import PromptMarkup.Markup.Tree

namespace PromptMarkup.Markup

/-- A part of the tree. -/
inductive Node where
  | root (node : Root)
  | element (node : Element)
  | openTag (node : OpenTag)
  | closeTag (node : CloseTag)
  | pair (node : Attribute)
  | template (node : Template)
  | comment (node : Comment)
  | pragma (node : Pragma)
  | text (node : TextNode)
  | quoted (node : Quoted)
  | quotedTemplate (node : QuotedTemplate)
  | forIterator (node : ForIterator)

/-- Some content as a node. -/
def Content.node : Content → Node
  | element node => .element node
  | template node => .template node
  | comment node => .comment node
  | pragma node => .pragma node
  | text node => .text node

/-- A part of a quoted value as a node. -/
def QuotedPart.node : QuotedPart → Node
  | text node => .text node
  | template node => .template node

/-- A value as a node. -/
def AttributeValue.node : AttributeValue → Node
  | quoted value => .quoted value
  | quotedTemplate value => .quotedTemplate value
  | template value => .template value
  | forIterator value => .forIterator value

namespace Node

/-- The name of the kind of a node. -/
def kindName : Node → String
  | root _ => "root"
  | element _ => "element"
  | openTag _ => "open-tag-partial"
  | closeTag _ => "close-tag"
  | pair _ => "attribute"
  | template _ => "template"
  | comment _ => "comment"
  | pragma _ => "pragma"
  | text _ => "element-content"
  | quoted _ => "quoted"
  | quotedTemplate _ => "quoted-template"
  | forIterator _ => "for-iterator-value"

/-- The range of a node. -/
def span : Node → Span
  | root node => node.span
  | element node => node.span
  | openTag node => node.span
  | closeTag node => node.span
  | pair node => node.span
  | template node => node.span
  | comment node => node.span
  | pragma node => node.span
  | text node => node.span
  | quoted node => node.span
  | quotedTemplate node => node.span
  | forIterator node => node.span

/-- What the body of an element adds to the children of the element. -/
def bodyNodes : Body → List Node
  | .selfClosing => []
  | .literal node => [text node]
  | .children contents => contents.map Content.node

/-- The parts of a node in source order. -/
def children : Node → List Node
  | root node => node.children.map Content.node
  | element node => openTag node.opening :: bodyNodes node.body ++ node.closing.toList.map closeTag
  | openTag node => node.attributes.map pair
  | pair node => node.value.toList.map AttributeValue.node
  | quotedTemplate node => node.parts.map QuotedPart.node
  | _ => []

/-- The child to look into for an offset: the first that holds it, else the first that it
touches. -/
def childAt? (node : Node) (offset : Nat) : Option Node :=
  (node.children.find? fun child => child.span.contains offset).or
    (node.children.find? fun child => child.span.touches offset)

/-! ## Paths -/

mutual

/-- The number of nodes on the longest way down from some content. -/
def contentHeight : Content → Nat
  | .element node => elementHeight node
  | _ => 1

/-- The number of nodes on the longest way down from an element; a tag is at most four of them
high. -/
def elementHeight : Element → Nat
  | ⟨_, body, _, _⟩ => 5 + bodyHeight body

/-- The number of nodes on the longest way down from the contents of a body. -/
def bodyHeight : Body → Nat
  | .selfClosing => 0
  | .literal _ => 1
  | .children contents => contentsHeight contents

/-- The number of nodes on the longest way down from some contents. -/
def contentsHeight : List Content → Nat
  | [] => 0
  | content :: rest => max (contentHeight content) (contentsHeight rest)

end

/-- A bound for the number of nodes on the way down from a node. -/
def height : Node → Nat
  | root node => 1 + contentsHeight node.children
  | element node => elementHeight node
  | openTag _ => 4
  | pair _ => 3
  | quotedTemplate _ => 2
  | _ => 1

theorem height_content (content : Content) : content.node.height = contentHeight content := by
  cases content <;> simp [Content.node, height, contentHeight]

theorem contentHeight_le_of_mem {content : Content} {contents : List Content}
    (member : content ∈ contents) : contentHeight content ≤ contentsHeight contents := by
  induction contents with
  | nil => cases member
  | cons first rest ih =>
    simp only [contentsHeight]
    rcases List.mem_cons.1 member with rfl | later
    · exact Nat.le_max_left _ _
    · exact Nat.le_trans (ih later) (Nat.le_max_right _ _)

theorem height_contents_lt {child : Node} {contents : List Content}
    (member : child ∈ contents.map Content.node) : child.height < 1 + contentsHeight contents := by
  obtain ⟨content, inside, rfl⟩ := List.mem_map.1 member
  rw [height_content]
  have := contentHeight_le_of_mem inside
  omega

theorem height_bodyNodes_lt {child : Node} {body : Body} (member : child ∈ bodyNodes body) :
    child.height < 5 + bodyHeight body := by
  cases body with
  | selfClosing => cases member
  | literal node =>
    simp only [bodyNodes, List.mem_singleton] at member
    subst member
    simp [height, bodyHeight]
  | children contents =>
    have := height_contents_lt member
    simp only [bodyHeight]
    omega

/-- A child is less high than its parent. -/
theorem height_child_lt {node child : Node} (member : child ∈ node.children) :
    child.height < node.height := by
  cases node with
  | root node => exact height_contents_lt member
  | element node =>
    obtain ⟨opening, body, closing, span⟩ := node
    simp only [children, List.mem_cons, List.mem_append, List.mem_map] at member
    simp only [height, elementHeight]
    rcases member with (rfl | inside) | ⟨tag, _, rfl⟩
    · simp only; omega
    · exact height_bodyNodes_lt inside
    · simp only; omega
  | openTag node =>
    obtain ⟨item, _, rfl⟩ := List.mem_map.1 member
    simp [height]
  | pair node =>
    obtain ⟨value, _, rfl⟩ := List.mem_map.1 member
    cases value <;> simp [AttributeValue.node, height]
  | quotedTemplate node =>
    obtain ⟨part, _, rfl⟩ := List.mem_map.1 member
    cases part <;> simp [QuotedPart.node, height]
  | closeTag | template | comment | pragma | text | quoted | forIterator =>
    simp [children] at member

theorem childAt?_mem {node child : Node} {offset : Nat}
    (found : node.childAt? offset = some child) : child ∈ node.children := by
  rcases Option.or_eq_some_iff.1 found with here | ⟨_, here⟩
  · exact List.mem_of_find?_eq_some here
  · exact List.mem_of_find?_eq_some here

/-- The nodes at an offset from a node down, outermost first. -/
def descend (node : Node) (offset : Nat) : List Node :=
  match _found : node.childAt? offset with
  | some child => node :: descend child offset
  | none => [node]
termination_by node.height
decreasing_by exact height_child_lt (childAt?_mem _found)

/-- The nodes at an offset, outermost first; none when the node does not touch the offset. -/
def pathAt (node : Node) (offset : Nat) : List Node :=
  if node.span.touches offset then node.descend offset else []

end Node

end PromptMarkup.Markup
