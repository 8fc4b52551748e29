/-
**Outcomes of the steps of a run.**

In memory a step of a run takes what earlier runs have left behind to a result and to what it leaves
behind itself. Reading leaves everything as it is, and reports leave the disk as it is.

* `outcome`, `outcome_bind`: what a step gives and leaves behind, and steps one after the other;
* `outcome_makeDirectories`, `outcome_writeFile`, `outcome_listDirectory`: steps on the disk;
* `Keeps`: a step leaves a part of everything as it is;
* `keeps_readContext`, `keeps_readStylesheet`, `keeps_readDocument`: reading leaves everything.
-/

import PromptMarkup.CommandLine.Memory

namespace PromptMarkup.CommandLine

variable {α β γ : Type} {input : List UInt8}

/-- What a step of a run gives, and what it leaves behind. -/
def outcome (step : RunStep (StateM Session) α) (session : Session) :
    Except RunError α × Session := step.run.run session

/-- The first step that breaks off ends them all. -/
theorem outcome_bind (step : RunStep (StateM Session) α) (next : α → RunStep (StateM Session) β)
    (session : Session) :
    outcome (step >>= next) session =
      match outcome step session with
      | (.ok value, after) => outcome (next value) after
      | (.error error, after) => (.error error, after) := by
  unfold outcome
  rw [ExceptT.run_bind, StateT.run_bind]
  obtain ⟨result, after⟩ := step.run.run session
  cases result <;> rfl

/-! ### Steps on the disk -/

theorem outcome_attempt (reason : FileFailure → RunError)
    (action : StateM Session (Except FileFailure α)) (session : Session) :
    outcome (attempt reason action) session =
      (orBreak reason (action.run session).1, (action.run session).2) := rfl

theorem outcome_changeDisk (reason : FileFailure → RunError)
    (change : Disk → Except FileFailure Disk) (session : Session) :
    outcome (attempt reason (Session.changeDisk change)) session =
      match change session.disk with
      | .ok changed => (.ok (), { session with disk := changed })
      | .error failure => (.error (reason failure), session) := by
  have changes : (Session.changeDisk change).run session =
      match change session.disk with
      | .ok changed => (.ok (), { session with disk := changed })
      | .error failure => (.error failure, session) := rfl
  rw [outcome_attempt, changes]
  cases change session.disk <;> rfl

theorem outcome_makeDirectories (reason : FileFailure → RunError) (path : String)
    (session : Session) :
    outcome (attempt reason ((Host.memory input).makeDirectories path)) session =
      match session.disk.makeDirectories path with
      | .ok changed => (.ok (), { session with disk := changed })
      | .error failure => (.error (reason failure), session) :=
  outcome_changeDisk reason (·.makeDirectories path) session

theorem outcome_writeFile (reason : FileFailure → RunError) (path text : String)
    (session : Session) :
    outcome (attempt reason ((Host.memory input).writeFile path text)) session =
      match session.disk.write path (Text.encodeUtf8 text) with
      | .ok changed => (.ok (), { session with disk := changed })
      | .error failure => (.error (reason failure), session) :=
  outcome_changeDisk reason (·.write path (Text.encodeUtf8 text)) session

theorem outcome_listDirectory (reason : FileFailure → RunError) (path : String)
    (session : Session) :
    outcome (attempt reason ((Host.memory input).listDirectory path)) session =
      (orBreak reason (session.disk.list path), session) := rfl

/-! ### Steps that change nothing -/

/-- A step leaves a part of everything as it is. -/
def Keeps (part : Session → γ) (step : RunStep (StateM Session) α) : Prop :=
  ∀ session, part (outcome step session).2 = part session

namespace Keeps

variable {part : Session → γ}

theorem pure (value : α) : Keeps part (pure value) := fun _ => rfl

theorem bind {step : RunStep (StateM Session) α} {next : α → RunStep (StateM Session) β}
    (first : Keeps part step) (later : ∀ value, Keeps part (next value)) :
    Keeps part (step >>= next) := by
  intro session
  have before := first session
  rw [outcome_bind]
  cases given : outcome step session with
  | mk result after =>
    rw [given] at before
    cases result with
    | error error => exact before
    | ok value => exact (later value after).trans before

theorem forM {items : List β} {step : β → RunStep (StateM Session) PUnit}
    (each : ∀ item, Keeps part (step item)) : Keeps part (items.forM step) := by
  induction items with
  | nil => exact .pure _
  | cons first rest ih => exact (each first).bind fun _ => ih

end Keeps

theorem keeps_readText (reason : FileFailure → RunError) (path : String) :
    Keeps id (readText (Host.memory input) reason path) := fun _ => rfl

theorem keeps_readContext (source : ContextSource) :
    Keeps id (readContext (Host.memory input) source) := by
  cases source with
  | none => exact .pure _
  | inline text => exact fun _ => rfl
  | file path => exact (keeps_readText _ path).bind fun _ _ => rfl

theorem keeps_readStylesheet (path : Option String) :
    Keeps id (readStylesheet (Host.memory input) path) := by
  cases path with
  | none => exact .pure _
  | some path =>
    refine (keeps_readText _ path).bind fun text => ?_
    split
    next => exact .pure _
    next => exact fun _ => rfl

theorem keeps_readDocument (path : Option String) :
    Keeps id (readDocument (Host.memory input) path) := by
  cases path with
  | none => exact fun _ => rfl
  | some path => exact keeps_readText _ path

end PromptMarkup.CommandLine
