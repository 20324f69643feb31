import ScoreFilter.Json
import ScoreFilter.Json.Record

namespace ScoreFilter

inductive Severity where
  | error
  | warning
  | info
deriving DecidableEq

def Severity.label : Severity → String
  | .error => "error"
  | .warning => "warning"
  | .info => "info"

def Severity.words : List (String × Severity) :=
  [Severity.error, .warning, .info].map fun s => (s.label, s)

structure Fault where
  message : String
  severity : Severity
  start : Option Nat
  stop : Option Nat
deriving DecidableEq

structure Diagnostic where
  start : Nat
  stop : Nat
  severity : Severity
  message : String
deriving DecidableEq

-- An unknown beginning is that of the document, an unknown end its length.
def Fault.toDiagnostic (f : Fault) (length : Nat) : Diagnostic where
  start := f.start.getD 0
  stop := f.stop.getD length
  severity := f.severity
  message := f.message

def Diagnostic.ofFault (fault : Option Fault) (length : Nat) : List Diagnostic :=
  (fault.map (·.toDiagnostic length)).toList

def Diagnostic.toJson (d : Diagnostic) : Json :=
  .obj [("from", .int d.start), ("to", .int d.stop), ("severity", .str d.severity.label),
    ("message", .str d.message)]

namespace Fault

structure Draft where
  message : Option String := none
  severity : Option Severity := none
  start : Option (Option Nat) := none
  stop : Option (Option Nat) := none

def messageSlot : Json.Slot Draft where
  key := "message"
  required := true
  filled d := d.message.isSome
  read d cs := (Json.string cs).map fun (s, rest) => ({ d with message := some s }, rest)

def severitySlot : Json.Slot Draft where
  key := "severity"
  required := false
  filled d := d.severity.isSome
  read d cs :=
    (Json.word Severity.words cs).map fun (s, rest) => ({ d with severity := some s }, rest)

def startSlot : Json.Slot Draft where
  key := "from"
  required := false
  filled d := d.start.isSome
  read d cs :=
    (Json.nullable Json.index cs).map fun (n, rest) => ({ d with start := some n }, rest)

def stopSlot : Json.Slot Draft where
  key := "to"
  required := false
  filled d := d.stop.isSome
  read d cs :=
    (Json.nullable Json.index cs).map fun (n, rest) => ({ d with stop := some n }, rest)

def shape : Json.Shape Draft where
  name := "EvaluationError"
  slots := [messageSlot, severitySlot, startSlot, stopSlot]

def Draft.finish (d : Draft) : Except Json.Problem Fault :=
  match d.message with
  | none => .error (.missing messageSlot.key)
  | some message => .ok ⟨message, d.severity.getD .error, d.start.join, d.stop.join⟩

def read : Json.Reader Fault := fun cs => do
  let (draft, rest) ← shape.read {} cs
  return (← draft.finish, rest)

def ofDocument (text : String) : Except Json.Problem (Option Fault) :=
  Json.document (Json.nullable read) text

def toJson (f : Fault) : Json :=
  .obj ([("message", .str f.message), ("severity", .str f.severity.label)] ++
    Json.optional "from" (f.start.map fun n => .int n) ++
    Json.optional "to" (f.stop.map fun n => .int n))

def toDocument (f : Fault) : String :=
  f.toJson.compact

end Fault

end ScoreFilter
