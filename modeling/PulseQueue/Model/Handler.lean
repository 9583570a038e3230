import PulseQueue.Model.Worker

/-!
# The handler (`app/handler.py`)

`execute_job` for a payload, a dictionary with its keys and values in order. How long it takes is left to
its caller, who may not wait for the answer. The parsing of texts, the texts of values other than strings
and the limit of `time.sleep` are those of Python (`Builtins`).
-/

namespace PulseQueue

structure Builtins where
  /-- `int(s)`, or the text of the `ValueError` -/
  intOfStr : String → Except String Int
  /-- `float(s)`, or the text of the `ValueError` -/
  floatOfStr : String → Except String PyFloat
  /-- `str(value)` -/
  str : Json → String
  /-- the text of the error that `time.sleep` raises for so many seconds -/
  sleepError : ℚ → Option String

/-- `type(value).__name__`. -/
def Json.typeName : Json → String
  | null => "NoneType"
  | bool _ => "bool"
  | int _ => "int"
  | float _ => "float"
  | str _ => "str"
  | arr _ => "list"
  | obj _ => "dict"

/-- An exception that is no `TimeoutError`. -/
def PyExc.other (text : String) : PyExc := .plain false text

namespace Builtins

variable (py : Builtins)

/-- `int(value)`; floats are truncated. -/
def int : Json → Except PyExc Int
  | .bool b => .ok (if b then 1 else 0)
  | .int n => .ok n
  | .float (.rat q) => .ok (q.num.tdiv q.den)
  | .float .nan => .error (.other "cannot convert float NaN to integer")
  | .str s => (py.intOfStr s).mapError PyExc.other
  | value => .error (.other ("int() argument must be a string, a bytes-like object or a real number, not '"
      ++ value.typeName ++ "'"))

/-- `float(value)`; integers are exact. -/
def float : Json → Except PyExc PyFloat
  | .bool b => .ok (.rat (if b then 1 else 0))
  | .int n => .ok (.rat n)
  | .float x => .ok x
  | .str s => (py.floatOfStr s).mapError PyExc.other
  | value => .error (.other ("float() argument must be a string or a real number, not '"
      ++ value.typeName ++ "'"))

/-- `time.sleep(seconds)`. -/
def sleep : PyFloat → Except PyExc Unit
  | .nan => .error (.other "Invalid value NaN (not a number)")
  | .rat q =>
    match py.sleepError q with
    | none => .ok ()
    | some text => .error (.other text)

/-- A value inside an f-string. -/
def format : Json → String
  | .str s => s
  | value => py.str value

end Builtins

/-- `max(a, b)`: the first argument unless the second is larger. -/
def PyFloat.max (a b : PyFloat) : PyFloat := if a.lt b then b else a

/-- `sum(i * i for i in range(max(n, 0)))`. -/
def sumOfSquares (n : Int) : Nat := ((List.range n.toNat).map fun i => i * i).sum

/-- `execute_job`. -/
def executeJob (py : Builtins) (payload : List (String × Json)) (attemptNo : Nat) :
    Except PyExc (List (String × Json)) :=
  match (payload.lookup "action").getD (.str "echo") with
  | .str "echo" => .ok [("echo", .obj payload), ("attempt", .int attemptNo)]
  | .str "fail" => do
    let failuresBeforeSuccess ← py.int ((payload.lookup "failures_before_success").getD (.int 0))
    if attemptNo ≤ failuresBeforeSuccess then
      .error (.other ("simulated transient failure on attempt " ++ toString attemptNo))
    else .ok [("recovered", .bool true), ("attempt", .int attemptNo)]
  | .str "sleep" => do
    let seconds ← py.float ((payload.lookup "seconds").getD (.int 1))
    py.sleep (seconds.max (.rat 0))
    .ok [("slept_seconds", .float seconds), ("attempt", .int attemptNo)]
  | .str "compute" => do
    let n ← py.int ((payload.lookup "n").getD (.int 1000))
    .ok [("n", .int n), ("sum_of_squares", .int (sumOfSquares n)), ("attempt", .int attemptNo)]
  | action => .error (.other ("unsupported action: " ++ py.format action))

end PulseQueue
