import SettingsLang.Context

/-!
Sequences of context operations. A refused operation changes nothing and the next one follows; a
guarded body is closed by one leave after it, whatever it did.
-/

namespace SettingsLang

inductive ContextStep where
  | enter (level : Level) (name : String)
  | leave
  | addRule (rule : Rule)
  | require (operation : String) (level : Level)
  | markCommitted
  | ensureUncommitted (operation : String)
  | flattened
  | rulesAt (depth : Nat)
  | guarded (level : Level) (name : String) (body : List ContextStep)

inductive ContextAnswer where
  | done
  | refused (offence : Offence)
  | left (level : Option Level)
  | marked (before : Bool)
  | flattened (rules : RuleSet)
  | rules (rules : Option (List Rule))
  | opened
  | closed

/-- An answer, the position of the step that gave it, and the context after it. -/
structure ContextEntry where
  position : List Nat
  answer : ContextAnswer
  context : Context

namespace ContextStep

def settle (context : Context) : Except Offence Context → ContextAnswer × Context
  | .ok after => (.done, after)
  | .error offence => (.refused offence, context)

def answer (context : Context) : ContextStep → ContextAnswer × Context
  | .enter level name => settle context (context.enter level name)
  | .leave => (.left context.innermost, context.leave)
  | .addRule rule => settle context (context.addRule rule)
  | .require operation level =>
    settle context ((context.require operation level).map fun _ => context)
  | .markCommitted => (.marked context.isCommitted, context.markCommitted)
  | .ensureUncommitted operation =>
    settle context ((context.ensureUncommitted operation).map fun _ => context)
  | .flattened => (.flattened context.flattenedRules, context)
  | .rulesAt depth => (.rules (context.rulesAt depth), context)
  | .guarded level name _ => settle context (context.enter level name)

mutual

/-- Runs a step at a position: the context after it, and its entries in order. -/
def run (position : List Nat) (context : Context) : ContextStep → Context × List ContextEntry
  | .guarded level name body =>
    match context.enter level name with
    | .error offence => (context, [⟨position, .refused offence, context⟩])
    | .ok inner =>
      let (inside, entries) := runAll position 0 inner body
      (inside.leave,
        ⟨position, .opened, inner⟩ :: entries ++ [⟨position, .closed, inside.leave⟩])
  | step =>
    let (answer, after) := step.answer context
    (after, [⟨position, answer, after⟩])

/-- Runs the steps of a list, the first of which has the given index. -/
def runAll (position : List Nat) (index : Nat) (context : Context) :
    List ContextStep → Context × List ContextEntry
  | [] => (context, [])
  | step :: rest =>
    let (middle, first) := run (position ++ [index]) context step
    let (after, entries) := runAll position (index + 1) middle rest
    (after, first ++ entries)

end

end ContextStep

end SettingsLang
