import ScoreFilter.CommandLine.Place
import ScoreFilter.Settings.File

namespace ScoreFilter.CommandLine

inductive Command where
  | none
  | tokenize (expression : String)
  | complete (expression : String) (cursor : Option Nat) (explicit : Bool) (apply : Option String)
  | diagnose (expression : String) (error : Option String)
  | functions
  | configShow
  | configSet (key value : String)
  | configPath
  | completions (shell : Shell)
deriving DecidableEq

structure Invocation where
  verbose : Bool
  quiet : Bool
  json : Bool
  noColor : Bool
  catalog : Option String
  command : Command
deriving DecidableEq

inductive UsageError where
  | unknownSwitch (word : String)
  | unknownCommand (word : String)
  | unexpectedWord (word : String)
  | unexpectedValue (switch : Switch)
  | missingValue (switch : Switch)
  | badValue (switch : Switch) (value : String)
  | badOperand (value : String)
  | repeated (switch : Switch)
  | conflict
  | missingOperand
deriving DecidableEq

inductive Stop where
  | usage (error : UsageError)
  | help (place : Place)
  | version (place : Place)
deriving DecidableEq

-- What has been given behind one command word. A switch is given once there, and may be given again
-- behind the next.
structure Level where
  given : List (Switch × String)
  operands : List String
deriving DecidableEq

namespace Level

def empty : Level :=
  ⟨[], []⟩

def has (level : Level) (switch : Switch) : Bool :=
  level.given.any (·.1 == switch)

def value? (level : Level) (switch : Switch) : Option String :=
  (level.given.find? (·.1 == switch)).map (·.2)

end Level

-- The last thing read, which is checked only when the next one comes.
inductive Pending where
  | nothing
  | awaiting (switch : Switch)
  | filled (switch : Switch) (value : String)
  | operand (value : String)
deriving DecidableEq

def offset? (text : String) : Option Nat :=
  let ds :=
    match text.toList with
    | '+' :: ds => ds
    | ds => ds
  let n := Decimal.value ds
  if !ds.isEmpty && ds.all Char.isDigit && n < Nat.pow 2 64 then some n else none

def accepts (switch : Switch) (value : String) : Bool :=
  match switch with
  | .catalog => value ≠ ""
  | .cursor => (offset? value).isSome
  | _ => true

def acceptsOperand (place : Place) (value : String) : Bool :=
  place ≠ .completions || (Shell.ofWord? value).isSome

def usage {α : Type} (error : UsageError) : Except Stop α :=
  .error (.usage error)

def give (level : Level) (switch : Switch) (value : String) : Except Stop Level :=
  if !accepts switch value then usage (.badValue switch value)
  else if level.has switch then usage (.repeated switch)
  else .ok { level with given := level.given ++ [(switch, value)] }

def settle (place : Place) (level : Level) : Pending → Except Stop Level
  | .nothing => .ok level
  | .awaiting switch => usage (.missingValue switch)
  | .filled switch value => give level switch value
  | .operand value =>
    if acceptsOperand place value then
      .ok { level with operands := level.operands ++ [value] }
    else usage (.badOperand value)

def flag (place : Place) (level : Level) (switch : Switch) : Except Stop Level :=
  if switch = .help then .error (.help place)
  else if switch = .version then .error (.version place)
  else give level switch ""

-- Letters behind one dash. A letter that takes a value takes the rest of the word, if any.
def cluster (place : Place) (word : String) (level : Level) (pending : Pending) :
    List Char → Except Stop (Level × Pending)
  | [] => .ok (level, pending)
  | letter :: rest =>
    match place.short? letter with
    | none => usage (.unknownSwitch word)
    | some switch => do
      let level ← settle place level pending
      if switch.takesValue then
        match rest with
        | [] => return (level, .awaiting switch)
        | '=' :: value => return (← give level switch (String.ofList value), .nothing)
        | value => return (← give level switch (String.ofList value), .nothing)
      else cluster place word (← flag place level switch) .nothing rest

def splitEquals : List Char → List Char × Option (List Char)
  | [] => ([], none)
  | '=' :: value => ([], some value)
  | c :: cs => (c :: (splitEquals cs).1, (splitEquals cs).2)

def longSwitch (place : Place) (level : Level) (pending : Pending) (word : String)
    (body : List Char) : Except Stop (Level × Pending) :=
  let (name, value) := splitEquals body
  match place.long? (String.ofList name) with
  | none => usage (.unknownSwitch word)
  | some switch =>
    if switch.takesValue then do
      let level ← settle place level pending
      match value with
      | some value => return (← give level switch (String.ofList value), .nothing)
      | none => return (level, .awaiting switch)
    else
      match value with
      | some _ => usage (.unexpectedValue switch)
      | none => do
        let level ← settle place level pending
        return (← flag place level switch, .nothing)

def operand (place : Place) (level : Level) (pending : Pending) (word : String) :
    Except Stop (Level × Pending) := do
  let level ← settle place level pending
  if level.operands.length < place.operands.length then return (level, .operand word)
  else usage (.unexpectedWord word)

def word (place : Place) (level : Level) (pending : Pending) (word : String) :
    Except Stop (Level × Pending) :=
  match word.toList with
  | '-' :: '-' :: body => longSwitch place level pending word body
  | '-' :: letter :: letters => cluster place word level pending (letter :: letters)
  | _ =>
    match pending with
    | .awaiting switch => .ok (level, .filled switch word)
    | _ => operand place level pending word

def helpFor : Place → List String → Stop
  | place, [] => .help place
  | place, word :: rest =>
    match place.child? word with
    | some child => helpFor child rest
    | none =>
      if word = "help" && place.children ≠ [] && rest = [] then .help place
      else .usage (.unknownCommand word)

-- A catalog in the surroundings counts on every level that names none.
def finish (e : Environment) (place : Place) (level : Level) (pending : Pending) :
    Except Stop Level := do
  let level ← settle place level pending
  if !level.has .catalog && e.catalog = some "" then usage (.badValue .catalog "")
  else if level.has .verbose && level.has .quiet then usage .conflict
  else if level.operands.length < place.operands.length then usage .missingOperand
  else return level

def isAwaiting : Pending → Bool
  | .awaiting _ => true
  | _ => false

-- The levels that the words open, each with its place. Two dashes make operands of all words
-- that follow.
def levels (e : Environment) (place : Place) (level : Level) (pending : Pending)
    (switches : Bool) : List String → Except Stop (List (Place × Level))
  | [] => do return [(place, ← finish e place level pending)]
  | first :: rest =>
    if !switches then do
      let (level, pending) ← operand place level pending first
      levels e place level pending false rest
    else if !isAwaiting pending && first = "help" && place.children ≠ [] then
      .error (helpFor place rest)
    else
      match if isAwaiting pending then none else place.child? first with
      | some child => do
        let inner ← levels e child .empty .nothing true rest
        return (place, ← finish e place level pending) :: inner
      | none =>
        if first = "--" then levels e place level pending false rest
        else do
          let (level, pending) ← word place level pending first
          levels e place level pending true rest

def commandOf (place : Place) (level : Level) : Except Stop Command :=
  match place, level.operands with
  | .program, _ => .ok .none
  | .tokenize, [expression] => .ok (.tokenize expression)
  | .complete, [expression] =>
    .ok (.complete expression ((level.value? .cursor).bind offset?) (level.has .explicit)
      (level.value? .apply))
  | .diagnose, [expression] => .ok (.diagnose expression (level.value? .error))
  | .functions, _ => .ok .functions
  | .config, _ | .configShow, _ => .ok .configShow
  | .configSet, [key, value] => .ok (.configSet key value)
  | .configPath, _ => .ok .configPath
  | .completions, [name] =>
    match Shell.ofWord? name with
    | some shell => .ok (.completions shell)
    | none => usage (.badOperand name)
  | _, _ => usage .missingOperand

def catalogOf (e : Environment) (opened : List (Place × Level)) : Option String :=
  (opened.filterMap fun row => row.2.value? .catalog).getLast?.or e.catalog

def parse (e : Environment) (words : List String) : Except Stop Invocation := do
  let opened ← levels e .program .empty .nothing true words
  let has (switch : Switch) : Bool := opened.any fun row => row.2.has switch
  let (place, level) := opened.getLast?.getD (.program, .empty)
  let command ← commandOf place level
  return ⟨has .verbose, has .quiet, has .json, has .noColor, catalogOf e opened, command⟩

end ScoreFilter.CommandLine
