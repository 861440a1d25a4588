import CivilTime.Calculator.Operation
import CivilTime.Zone.Resolve

/-!
# Programs

A program is a list of steps. Each step applies a command to arguments, which can
refer to the results of the steps before. Beside the operations on values there
are commands that use the store of zones, which lives as long as the program.
A step that fails does not end the program.
-/

namespace CivilTime

/-- An argument as it is written: a value, a list, an operation on arguments, or a
reference to the result of an earlier step, counted from zero. -/
inductive Term where
  | value (v : Value)
  | list (ts : List Term)
  | apply (op : Operation) (args : List Term)
  | result (index : Nat)
  deriving Inhabited

/-- The commands that use the store of zones. -/
inductive ZoneCommand where
  /-- Sets the search path to a list of paths. -/
  | setPath
  /-- Sets the search path to the absolute ones among the paths of a list. -/
  | setPathFrom
  | acquire
  | clear
  /-- The moment of a local time in a zone or at an offset. -/
  | localize

/-- What a step does. -/
inductive Command where
  | operation (op : Operation)
  | zone (command : ZoneCommand)

/-- A command and its arguments. -/
structure Step where
  command : Command
  args : List Term

/-- What came out of a step: the outcome, the notes of the store and the keys of
the recent and of the known zones afterwards. -/
structure Report where
  outcome : Outcome Value
  notes : List Zone.Note
  recent : List String
  known : List String

/-! ## Arguments -/

/-- The result of an earlier step. -/
def resultOf (results : List (Outcome Value)) (index : Nat) : Outcome Value :=
  match results[index]? with
  | some (.ok v) => .ok v
  | _ => .error (.failedStep index)

mutual

/-- The value of an argument. -/
def Term.eval (results : List (Outcome Value)) : Term → Outcome Value
  | .value v => .ok v
  | .list ts => do return .list (← Term.evalAll results ts)
  | .apply op args => do op.eval (← Term.evalAll results args)
  | .result index => resultOf results index

/-- The values of some arguments, from the left to the right. -/
def Term.evalAll (results : List (Outcome Value)) : List Term → Outcome (List Value)
  | [] => .ok []
  | t :: ts => do
    let v ← t.eval results
    return v :: (← Term.evalAll results ts)

end

/-! ## Commands on zones -/

open Zone

/-- The outcome of a command, the store afterwards and notes. -/
abbrev Effect := Outcome Value × Store × List Note

/-- A value in a list of paths. -/
def pathItem : Value → PathItem
  | .text s => .text s
  | .bytes bs => .bytes bs
  | v => .other v.kind

/-- The search path that a store shows, as a value. -/
def pathValue (s : Store) : Value := .tuple (s.shown.map .text)

/-- The search path that a value stands for. A single text or string of bytes is not
a list of paths. -/
def pathOf : Value → Outcome (List String)
  | .text _ | .bytes _ => .error (.mismatch .pathList)
  | v => do Store.checkedPath ((← v.elements).map pathItem)

/-- Sets the search path. -/
def setPath (s : Store) (v : Value) : Effect :=
  match pathOf v with
  | .ok path =>
    let (s, notes) := s.setPath path
    (.ok (pathValue s), s, notes)
  | .error fault => (.error fault, s, [])

/-- The text of a value that is a text. -/
def textOf? : Value → Option String
  | .text s => some s
  | _ => none

/-- Sets the search path from the entries of a list. -/
def setPathFrom (s : Store) (entries : List Value) : Effect :=
  let (s, notes) := s.setPathFrom (":".intercalate (entries.filterMap textOf?))
  (.ok (pathValue s), s, notes)

/-- Loads a zone, which is held from then on. -/
def acquire (fs : Files) (s : Store) : Value → Effect
  | .text key =>
    let (outcome, s, notes) := s.acquire fs key
    (.zone <$> outcome, s, notes)
  | v =>
    match v.keyObstacle? with
    | some kind => (.error (.mismatch (.key kind)), s, [])
    | none =>
      (do
        v.requireShown
        throw (.zoneNotFound v.shown), s, [])

/-- Forgets the zones of some keys, up to the first value that cannot be a key. -/
def clearKeys (s : Store) (keys : List Value) : Effect :=
  let usable := keys.takeWhile fun v => v.keyObstacle?.isNone
  (match Value.firstObstacle? keys with
    | some kind => .error (.mismatch (.key kind))
    | none => .ok .nothing,
    s.clearKeys (usable.filterMap textOf?), [])

/-- Forgets all zones, or those of some keys. In a text each character is a key. -/
def clear (s : Store) : List Value → Effect
  | [] | [.nothing] => (.ok .nothing, s.clear, [])
  | v :: _ =>
    match v.elements with
    | .ok keys => clearKeys s keys
    | .error fault => (.error fault, s, [])

/-- The policy that a value names. -/
def policyOf (v : Value) : Option Policy := (textOf? v).bind Policy.ofName?

/-- The moment of a local time at an offset or in the zone of a key. The zone is
looked up before anything else. -/
def localize (fs : Files) (s : Store) (t : LocalDateTime) (policy : Value) : Value → Effect
  | .offset o =>
    (do
      t.requireSubOffset o
      .offsetDateTime <$> t.withOffset o, s, [])
  | .text key =>
    let (outcome, s, notes) := s.use fs key
    (do return .offsetDateTime (← t.inZone (policyOf policy) (← outcome).table key), s, notes)
  | v => (.error (.mismatch (.expected "FixedOffset or str" v.kind)), s, [])

/-- Performs a command on zones. -/
def ZoneCommand.perform (fs : Files) (s : Store) : ZoneCommand → List Value → Effect
  | setPath, [v] => CivilTime.setPath s v
  | setPathFrom, [.list entries] => CivilTime.setPathFrom s entries
  | acquire, [v] => CivilTime.acquire fs s v
  | clear, args => CivilTime.clear s args
  | localize, [.localDateTime t, tz] => CivilTime.localize fs s t (.text "compatible") tz
  | localize, [.localDateTime t, tz, policy] => CivilTime.localize fs s t policy tz
  | _, _ => (.error .arguments, s, [])

/-! ## Running programs -/

/-- Performs a step, given the results of the steps before. -/
def Step.perform (fs : Files) (results : List (Outcome Value)) (s : Store) (step : Step) :
    Effect :=
  match Term.evalAll results step.args with
  | .error fault => (.error fault, s, [])
  | .ok args =>
    match step.command with
    | .operation op => (op.eval args, s, [])
    | .zone command => command.perform fs s args

/-- Runs steps one after the other from a given store, with the results so far. -/
def runFrom (fs : Files) (results : List (Outcome Value)) (s : Store) : List Step → List Report
  | [] => []
  | step :: steps =>
    let (outcome, s, notes) := step.perform fs results s
    ⟨outcome, notes, s.recentKeys, s.knownKeys⟩ ::
      runFrom fs (results ++ [outcome]) s steps

/-- Runs a program. At the start the store is empty. -/
def run (fs : Files) (steps : List Step) : List Report := runFrom fs [] Store.empty steps

end CivilTime
