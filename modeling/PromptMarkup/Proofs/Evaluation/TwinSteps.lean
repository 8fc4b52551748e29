/-
**Steps of twin runs.**

Bindings, declarations and media are evaluated alike where elements differ in ranges and in the name
of a component only.

* `tracks_lending`, `tracks_inFrame`: scopes;
* `tracks_evaluateBinding`, `tracks_evaluateSchema`, `tracks_evaluateRuntime`, `tracks_embedMedia`:
  what elements are evaluated as;
* `tracks_applyPragma`, `tracks_addStylesheets`: what changes components and stylesheets.
-/

import PromptMarkup.Proofs.Evaluation.Twins

namespace PromptMarkup

open Markup

namespace Evaluate

variable {settings : Settings} {relabel : Relabel} {α β : Type} {related : α → α → Prop}

/-! ### Scopes -/

/-- **A change of the scope and of the identities given away** that depends on them alone. -/
theorem tracks_rebind (give : Nat → α) (change : Scope → Nat → Scope × Nat) :
    Tracks relabel Eq (modifyGet fun state => (give state.nextBuilder, state.rebind change))
      (modifyGet fun state => (give state.nextBuilder, state.rebind change)) :=
  tracks_modifyGet (fun _ => .of_eq rfl rfl) fun twins =>
    ⟨congrArg give twins.alike.nextBuilder, twins.alike.rebind change, twins.schema,
      twins.singleSpeaker⟩

theorem tracks_rescope (change : Scope → Nat → Scope × Nat) :
    Tracks relabel Eq (modify (EvaluationState.rebind change))
      (modify (EvaluationState.rebind change)) :=
  tracks_rebind (fun _ => ()) change

theorem tracks_identified (value : Value) :
    Tracks relabel Eq (identified value) (identified value) :=
  tracks_rebind (fun next => (value.identify next).1) fun scope next =>
    (scope, (value.identify next).2)

theorem tracks_bindName (name : String) (value : Value) :
    Tracks relabel Eq (bindName name value) (bindName name value) :=
  (tracks_identified value).andThen fun value => tracks_rescope fun scope next =>
    (scope.set name value, next)

theorem tracks_bindNames (fields : Frame) :
    Tracks relabel Eq (bindNames fields) (bindNames fields) := by
  induction fields with
  | nil => exact tracks_pure rfl
  | cons field rest ih =>
    obtain ⟨name, value⟩ := field
    exact (tracks_bindName name value).andThen fun _ => ih

theorem tracks_lending (reflexive : ∀ value, related value value) {one other : Evaluate α}
    (inside : Tracks relabel related one other) :
    Tracks relabel related (lending one) (lending other) := by
  refine tracks_get_bind fun {first second} twins => ?_
  refine inside.bind reflexive fun value again same => ?_
  rw [twins.alike.nextBuilder]
  exact (tracks_rescope fun scope _ => (scope, second.nextBuilder)).andThen fun _ =>
    tracks_pure same

/-- **A frame.** -/
theorem tracks_inFrame (reflexive : ∀ value, related value value) (frame : Frame)
    {one other : Evaluate α} (inside : Tracks relabel related one other) :
    Tracks relabel related (inFrame frame one) (inFrame frame other) := by
  refine tracks_lending reflexive ?_
  refine (tracks_rescope fun scope next => (scope.push frame, next)).andThen fun _ => ?_
  refine inside.bind reflexive fun value again same => ?_
  exact (tracks_rescope fun scope next => (scope.pop, next)).andThen fun _ => tracks_pure same

/-! ### Files -/

theorem tracks_readReported (span place : Span) (text : String) (typeName : Option String) :
    Tracks relabel Eq (readReported span text typeName) (readReported place text typeName) := by
  unfold readReported
  split
  · exact tracks_pure rfl
  · exact (tracks_reportError _ _ _ _).andThen fun _ => tracks_pure rfl

theorem tracks_readFile (span place : Span) (path : String) :
    Tracks relabel Eq (readFile span path) (readFile place path) := by
  refine (tracks_ask path).andThen fun _ => tracks_get_bind fun {first second} twins => ?_
  rw [twins.alike.loader]
  split
  · exact tracks_pure rfl
  · exact (tracks_reportError _ _ _ _).andThen fun _ => tracks_pure rfl

/-! ### Declarations -/

/-- What has been declared changes in the same way, whatever is reported. -/
theorem tracks_collect {one other : Schema.Collector → Schema.Collector × List Diagnostic}
    (same : ∀ collector, (other collector).1 = (one collector).1) :
    Tracks relabel Eq (collect one) (collect other) := by
  refine tracks_of (fun state => .reported (one state.schema).2 rfl rfl) fun {first second} twins =>
    ⟨rfl, ⟨twins.alike.scope, twins.alike.loader, twins.alike.registry, twins.alike.stylesheet,
      twins.alike.nextBuilder⟩, ?_, twins.singleSpeaker⟩
  change (one first.schema).1 = (other second.schema).1
  rw [same, twins.schema]

/-- A declaration is taken up in the same way at any range. -/
theorem collector_add_span (collector : Schema.Collector) (span place : Span)
    (declaration : Schema.Declaration) :
    (collector.add place declaration).1 = (collector.add span declaration).1 := by
  cases declaration with
  | refused message => rfl
  | response schema =>
    simp only [Schema.Collector.add, Schema.Collector.setResponse]
    split <;> rfl
  | tool name description parameters =>
    simp only [Schema.Collector.add, Schema.Collector.addTool]
    split <;> rfl
  | parameter key value => rfl

/-- What an included file declares is taken up in the same way at any range. -/
theorem collector_absorb_span (collector other : Schema.Collector) (span place : Span) :
    (collector.absorb other place).1 = (collector.absorb other span).1 := by
  unfold Schema.Collector.absorb
  cases other.responseSchema with
  | none => rfl
  | some schema =>
    simp only [Schema.Collector.setResponse]
    split <;> rfl

theorem tracks_declare (span place : Span) (declaration : Schema.Declaration) :
    Tracks relabel Eq (declare span declaration) (declare place declaration) := by
  refine Tracks.andThen (tracks_modify ?_ ?_) fun _ =>
    tracks_collect fun collector => collector_add_span collector span place declaration
  · exact fun _ => .of_eq rfl rfl
  · exact fun twins => twins.noted

theorem tracks_failSchema (span place : Span) (message : String) :
    Tracks relabel Eq (failSchema span message) (failSchema place message) :=
  tracks_declare span place _

theorem tracks_schemaOfExpression (body : String) (start begins : Nat) :
    Tracks relabel Eq (schemaOfExpression settings body start)
      (schemaOfExpression settings body begins) := by
  refine (tracks_evaluateTraced _ _ _ _).andThen fun result => ?_
  cases result with
  | ok value => exact tracks_pure rfl
  | error error => exact tracks_pure rfl

/-- Steps that may fail, one after the other. -/
theorem tracks_run_bind {one other : ExceptT ExprError Evaluate α}
    {next later : α → ExceptT ExprError Evaluate β} (here : Tracks relabel Eq one.run other.run)
    (behind : ∀ value, Tracks relabel Eq (next value).run (later value).run) :
    Tracks relabel Eq (one >>= next).run (other >>= later).run := by
  rw [ExceptT.run_bind, ExceptT.run_bind]
  refine here.andThen fun result => ?_
  cases result with
  | ok value => exact behind value
  | error error => exact tracks_pure rfl

theorem tracks_partTexts {evaluate again : String → Span → ExceptT ExprError Evaluate Value}
    (each : ∀ expression span,
      Tracks relabel Eq (evaluate expression span).run (again expression span).run)
    (parts : List Schema.BodyPart) :
    Tracks relabel Eq (parts.mapM (Schema.partText evaluate)).run
      (parts.mapM (Schema.partText again)).run := by
  induction parts with
  | nil => exact tracks_pure rfl
  | cons part rest ih =>
    have here : Tracks relabel Eq (Schema.partText evaluate part).run
        (Schema.partText again part).run := by
      cases part with
      | text chars => exact tracks_pure rfl
      | template expression span =>
        exact tracks_run_bind (each expression span) fun value => tracks_pure rfl
    rw [List.mapM_cons, List.mapM_cons]
    exact tracks_run_bind here fun text => tracks_run_bind ih fun texts => tracks_pure rfl

theorem tracks_schemaOfJson (body : String) (start begins : Nat) :
    Tracks relabel Eq (schemaOfJson settings body start) (schemaOfJson settings body begins) := by
  refine (tracks_run_bind (tracks_partTexts (fun expression span => ?_) _) fun texts =>
    tracks_pure rfl).andThen fun result => ?_
  · exact tracks_evaluateTraced _ _ _ _
  · split
    · exact tracks_pure rfl
    · split
      · exact tracks_pure rfl
      · exact tracks_pure rfl

section Elements

variable {one other : Element} (same : one.Renames relabel other)
include same

theorem tracks_fileValue {pair again : Attribute} (typeName : Option String) :
    Tracks relabel Eq (fileValue settings one pair typeName)
      (fileValue settings other again typeName) := by
  refine (tracks_attributeText same.opening.attributes _).andThen fun source => ?_
  cases source with
  | none => exact tracks_pure rfl
  | some source =>
    refine tracks_get_bind fun {first second} twins => ?_
    rw [twins.alike.loader]
    refine (tracks_readFile _ _ _).andThen fun text => ?_
    cases text with
    | none => exact tracks_pure rfl
    | some text => exact tracks_readReported _ _ _ _

/-- The body that a declaration is read from. -/
theorem declarationBody_renames : (declarationBody other).1 = (declarationBody one).1 := by
  have body := same.body
  unfold declarationBody
  generalize one.body = first at body
  generalize other.body = second at body
  cases body with
  | selfClosing => rfl
  | literal same => exact same
  | children inside => exact plainText_renames _ inside

/-- **The schema that an element declares.** -/
theorem tracks_declaredSchema (parser : Schema.SchemaParser) :
    Tracks relabel Eq (declaredSchema settings one parser)
      (declaredSchema settings other parser) := by
  have bodies := declarationBody_renames same
  unfold declaredSchema
  generalize declarationBody one = first at bodies
  generalize declarationBody other = second at bodies
  obtain ⟨body, span⟩ := first
  obtain ⟨again, place⟩ := second
  obtain rfl : again = body := bodies
  simp only
  split
  · exact (tracks_failSchema _ _ _).andThen fun _ => tracks_pure rfl
  · split
    · refine (tracks_schemaOfExpression _ _ _).andThen fun result => ?_
      cases result with
      | ok schema => exact tracks_pure rfl
      | error error => exact (tracks_failSchema _ _ _).andThen fun _ => tracks_pure rfl
    · refine (tracks_schemaOfJson _ _ _).andThen fun result => ?_
      cases result with
      | ok schema => exact tracks_pure rfl
      | error error => exact (tracks_failSchema _ _ _).andThen fun _ => tracks_pure rfl

theorem tracks_declaredParser :
    Tracks relabel Eq (declaredParser settings one) (declaredParser settings other) := by
  refine (tracks_attributeText same.opening.attributes _).andThen fun text => ?_
  split
  · exact tracks_pure rfl
  · split
    · exact tracks_pure rfl
    · exact (tracks_failSchema _ _ _).andThen fun _ => tracks_pure rfl

/-- **An element that declares a schema.** -/
theorem tracks_evaluateSchema (isTool : Bool) :
    Tracks relabel Eq (evaluateSchema settings isTool one)
      (evaluateSchema settings isTool other) := by
  refine (tracks_declaredParser same).andThen fun parser => ?_
  split
  · exact tracks_pure rfl
  · refine (tracks_declaredSchema same _).andThen fun schema => ?_
    split
    · exact tracks_pure rfl
    · split
      · refine (tracks_attributeText same.opening.attributes _).andThen fun name => ?_
        refine (tracks_attributeText same.opening.attributes _).andThen fun description => ?_
        exact tracks_declare _ _ _
      · exact tracks_declare _ _ _

omit same in
/-- **Runtime parameters.** -/
theorem tracks_evaluateRuntime {ones others : List Attribute}
    (pairs : List.Forall₂ Attribute.Resembles ones others) :
    Tracks relabel Eq (evaluateRuntime settings ones) (evaluateRuntime settings others) := by
  induction pairs with
  | nil => exact tracks_pure rfl
  | cons first _ ih =>
    rw [evaluateRuntime, evaluateRuntime, first.key]
    split
    · exact ih
    · refine (tracks_attributeValue false first).andThen fun value => ?_
      split
      · exact ih
      · exact (tracks_declare _ _ _).andThen fun _ => ih

/-! ### Bindings -/

variable {body inside : Evaluate (List ComponentChild)}
  (within : Tracks relabel (ChildrenRename relabel) body inside)

include within in
theorem tracks_boundValue (typeName : Option String) :
    Tracks relabel Eq (boundValue settings one body typeName)
      (boundValue settings other inside typeName) := by
  have value := attribute?_resembles same.opening.attributes "value"
  have source := attribute?_resembles same.opening.attributes "src"
  unfold boundValue
  generalize one.attribute? "value" = first at value
  generalize other.attribute? "value" = second at value
  generalize one.attribute? "src" = third at source
  generalize other.attribute? "src" = fourth at source
  cases value with
  | some pairs => exact tracks_attributeValue true pairs
  | none =>
    cases source with
    | some pairs => exact tracks_fileValue same _
    | none =>
      refine within.bind (childrenRename_refl relabel) fun children others alike => ?_
      rw [textOfChildren_renames children alike]
      exact tracks_readReported _ _ _ _

include within in
/-- **An element that binds names.** -/
theorem tracks_evaluateBinding :
    Tracks relabel Eq (evaluateBinding settings one body)
      (evaluateBinding settings other inside) := by
  refine (tracks_attributeText same.opening.attributes _).andThen fun name => ?_
  refine (tracks_attributeText same.opening.attributes _).andThen fun typeName => ?_
  refine (tracks_boundValue same within typeName).andThen fun value => ?_
  split
  · exact tracks_pure rfl
  · exact tracks_bindName _ _
  · exact tracks_bindNames _
  · exact tracks_reportError _ _ _ _

/-! ### Media -/

omit same in
theorem tracks_embedMedia (props : Props) :
    Tracks relabel Eq (embedMedia settings one props) (embedMedia settings other props) := by
  unfold embedMedia
  split
  · exact tracks_pure rfl
  · split
    · exact tracks_pure rfl
    · refine tracks_get_bind fun {first second} twins => ?_
      rw [twins.alike.loader]
      refine (tracks_ask _).andThen fun _ => tracks_get_bind fun {first second} twins => ?_
      rw [twins.alike.loader]
      split
      · exact tracks_pure rfl
      · exact (tracks_reportError _ _ _ _).andThen fun _ => tracks_pure rfl

end Elements

/-! ### Pragmas -/

/-- The state behind an option that switches a component on or off. -/
def switched (span : Span) (option : String) (state : EvaluationState) : EvaluationState :=
  match state.registry.setEnabled (readSwitch option).2 (readSwitch option).1 with
  | some registry => { state with registry := registry }
  | none => { state with
    diagnostics := state.diagnostics ++
      [.warning .evaluate span ("Unknown component '" ++ (readSwitch option).2 ++ "' in pragma")] }

theorem switchComponents_cons (span : Span) (option : String) (rest : List String) :
    switchComponents span (option :: rest) =
      (modify (switched span option) >>= fun _ => switchComponents span rest) := by
  refine StateT.ext fun state => ?_
  rw [switchComponents]
  simp only [StateT.run_bind, StateT.run_get, StateT.run_modify, pure_bind]
  unfold switched
  generalize state.registry.setEnabled _ _ = found
  cases found <;> rfl

theorem grows_switched (span : Span) (option : String) (state : EvaluationState) :
    state.Grows (switched span option state) := by
  unfold switched
  split
  next found => exact ⟨List.prefix_refl _, Registry.resembles_setEnabled found⟩
  next => exact .reported _ rfl rfl

theorem twins_switched (span place : Span) (option : String) {first second : EvaluationState}
    (twins : first.Twins second) :
    (switched span option first).Twins (switched place option second) := by
  unfold switched
  rw [twins.alike.registry]
  split
  · exact ⟨⟨twins.alike.scope, twins.alike.loader, rfl, twins.alike.stylesheet,
      twins.alike.nextBuilder⟩, twins.schema, twins.singleSpeaker⟩
  · exact ⟨⟨twins.alike.scope, twins.alike.loader, rfl, twins.alike.stylesheet,
      twins.alike.nextBuilder⟩, twins.schema, twins.singleSpeaker⟩

theorem tracks_switchComponents (span place : Span) (options : List String) :
    Tracks relabel Eq (switchComponents span options) (switchComponents place options) := by
  induction options with
  | nil => exact tracks_pure rfl
  | cons option rest ih =>
    rw [switchComponents_cons, switchComponents_cons]
    exact (tracks_modify (grows_switched span option)
      fun twins => twins_switched span place option twins).andThen fun _ => ih

theorem tracks_modifyStylesheet (change : Stylesheet → Stylesheet) :
    Tracks relabel Eq
      (modify fun state => { state with stylesheet := change state.stylesheet })
      (modify fun state => { state with stylesheet := change state.stylesheet }) :=
  tracks_modify (fun _ => .of_eq rfl rfl) fun twins =>
    ⟨⟨twins.alike.scope, twins.alike.loader, twins.alike.registry,
      congrArg change twins.alike.stylesheet, twins.alike.nextBuilder⟩, twins.schema,
      twins.singleSpeaker⟩

theorem tracks_setSingleSpeaker (single : Bool) :
    Tracks relabel Eq (setSingleSpeaker single) (setSingleSpeaker single) :=
  tracks_modify (fun _ => .of_eq rfl rfl) fun twins =>
    ⟨⟨twins.alike.scope, twins.alike.loader, twins.alike.registry, twins.alike.stylesheet,
      twins.alike.nextBuilder⟩, twins.schema, rfl⟩

theorem tracks_setSpacing (span place : Span) (value : String) :
    Tracks relabel Eq (setSpacing span value) (setSpacing place value) := by
  unfold setSpacing
  split
  · exact tracks_modifyStylesheet fun sheet =>
      sheet.set Stylesheet.anyComponent "whiteSpace" (.string value)
  · exact tracks_reportWarning _ _ _ _

/-- **A pragma.** -/
theorem tracks_applyPragma {one other : Pragma} (directive : other.directive = one.directive)
    (options : other.options = one.options) :
    Tracks relabel Eq (applyPragma one) (applyPragma other) := by
  unfold applyPragma
  rw [directive, options]
  split
  · exact tracks_switchComponents _ _ _
  · split
    · exact tracks_setSingleSpeaker true
    · exact tracks_setSingleSpeaker false
    · exact tracks_reportWarning _ _ _ _
  · exact tracks_setSpacing _ _ _
  · exact tracks_setSpacing _ _ _
  · exact tracks_reportWarning _ _ _ _

/-! ### Stylesheets -/

theorem tracks_addStylesheet {one other : Element} (same : one.Renames relabel other) :
    Tracks relabel Eq (addStylesheet one) (addStylesheet other) := by
  unfold addStylesheet
  rw [same.body.plainText]
  split
  next sheet _ => exact tracks_modifyStylesheet fun before => before.merge sheet
  next => exact tracks_reportError _ _ _ _

/-- Both names of an element stand for a stylesheet, or neither does. -/
theorem isStylesheet_renames {registry : Registry} (admits : relabel.Admits registry)
    {one other : OpenTag} (same : one.Renames relabel other) :
    isStylesheet registry other.name = isStylesheet registry one.name := by
  unfold isStylesheet
  rw [admits.lookup same.name]

mutual

/-- **The stylesheets of a file.** -/
theorem tracks_addStylesheets {registry : Registry} (admits : relabel.Admits registry)
    (ones : List Content) {others : List Content}
    (same : List.Forall₂ (Content.Renames relabel) ones others) :
    Tracks relabel Eq (addStylesheets registry ones) (addStylesheets registry others) :=
  match ones with
  | [] => by
    cases same
    exact tracks_pure rfl
  | content :: rest => by
    cases same with
    | cons first later =>
      rw [addStylesheets, addStylesheets]
      exact (tracks_addStylesheetsOf admits content first).andThen fun _ =>
        tracks_addStylesheets admits rest later

theorem tracks_addStylesheetsOf {registry : Registry} (admits : relabel.Admits registry)
    (one : Content) {other : Content} (same : one.Renames relabel other) :
    Tracks relabel Eq (addStylesheetsOf registry one) (addStylesheetsOf registry other) :=
  match one with
  | .element ⟨_, body, _, _⟩ => by
    cases same with
    | @element _ other tag inside =>
      obtain ⟨_, _, _, _⟩ := other
      rw [addStylesheetsOf, addStylesheetsOf, isStylesheet_renames admits tag]
      split
      · exact tracks_addStylesheet ⟨tag, inside⟩
      · exact tracks_addStylesheetsIn admits body inside
  | .template _ | .comment _ | .pragma _ | .text _ => by
    cases same
    exact tracks_pure rfl

theorem tracks_addStylesheetsIn {registry : Registry} (admits : relabel.Admits registry)
    (one : Body) {other : Body} (same : one.Renames relabel other) :
    Tracks relabel Eq (addStylesheetsIn registry one) (addStylesheetsIn registry other) :=
  match one with
  | .children contents => by
    cases same with
    | children inside =>
      rw [addStylesheetsIn, addStylesheetsIn]
      exact tracks_addStylesheets admits contents inside
  | .selfClosing | .literal _ => by
    cases same
    exact tracks_pure rfl

end

end Evaluate

end PromptMarkup
