import Naalp.Python.Naming

/-! The activity side of `ecosystem/naalp-a2a-bridge/naalp_a2a_bridge/a2a_bridge.py`: a history of
task states in the words of A2A, and the signed chain of transitions that carries it.
-/

namespace Naalp.Python.A2aBridge

open Naalp.Foundation
open Naalp.Python.Cose
open Naalp.Python.Naming

/-- The kinds of `A2ABridgeError`. -/
inductive BridgeKind where
  | unknownTaskState
  | emptyActivity
  | foreignTask
  deriving DecidableEq, Repr

def BridgeKind.name : BridgeKind → String
  | .unknownTaskState => "UnknownTaskState"
  | .emptyActivity => "EmptyActivity"
  | .foreignTask => "ForeignTask"

/-- An error of the bridge itself, or one that it lets through. -/
inductive BridgeError where
  | bridge (kind : BridgeKind) (msg : String)
  | raised (err : Exc)

abbrev Bridge := Except BridgeError

def lift {α : Type} : Py α → Bridge α
  | .ok value => .ok value
  | .error err => .error (.raised err)

/-- `_STATE_BY_NAME`. -/
def stateByName : List (PyStr × Int) :=
  [(.lit ['s', 'u', 'b', 'm', 'i', 't', 't', 'e', 'd'], stateSubmitted),
    (.lit ['w', 'o', 'r', 'k', 'i', 'n', 'g'], stateWorking),
    (.lit ['i', 'n', 'p', 'u', 't', '-', 'r', 'e', 'q', 'u', 'i', 'r', 'e', 'd'],
      stateInputRequired),
    (.lit ['a', 'u', 't', 'h', '-', 'r', 'e', 'q', 'u', 'i', 'r', 'e', 'd'], stateAuthRequired),
    (.lit ['c', 'o', 'm', 'p', 'l', 'e', 't', 'e', 'd'], stateCompleted),
    (.lit ['c', 'a', 'n', 'c', 'e', 'l', 'e', 'd'], stateCanceled),
    (.lit ['f', 'a', 'i', 'l', 'e', 'd'], stateFailed),
    (.lit ['r', 'e', 'j', 'e', 'c', 't', 'e', 'd'], stateRejected)]

/-- One observed state of a task, in the words of A2A. -/
structure ForeignTaskEvent where
  taskId : PyStr
  state : PyStr
  deriving DecidableEq

section Bridging

-- `repr` is Python's `repr` of a string.
variable (repr : PyStr → String)

def stateCode (name : PyStr) : Bridge Int :=
  match stateByName.lookup name with
  | some code => return code
  | none => throw (.bridge .unknownTaskState ("not an A2A TaskState name: " ++ repr name))

/-- The loop of `bridge_activity`, at index `i` below the head and the state that the events before
it left.
-/
def bridgeEvents (card : Bytes) (taskId : PyStr) (task : Bytes)
    : (i : Int) → (prev : Bytes) → (frm : Int) → List ForeignTaskEvent → Bridge (List Transition)
  | _, _, _, [] => return []
  | i, prev, frm, ev :: rest => do
      raiseIf (ev.taskId ≠ taskId)
        (.bridge .foreignTask "every event in one chain must name the same task id")
      let to_ ← stateCode repr ev.state
      let t : Transition := { task, card, frm, to_, seq := i, prev }
      lift (verifyTransition t.frm t.to_)
      let head ← lift t.head
      return t :: (← bridgeEvents card taskId task (i + 1) head to_ rest)

/-- What `bridge_activity` builds before it signs. -/
def bridgeTransitions (events : List ForeignTaskEvent) (card : Bytes) : Bridge (List Transition) :=
  match events with
  | [] => throw (.bridge .emptyActivity "no task-state events to bridge")
  | first :: _ => do
      let task ← lift first.taskId.encode
      bridgeEvents repr card first.taskId task 0 genesis startState events

variable (lib : SignatureLibrary)

def bridgeActivity (events : List ForeignTaskEvent) (card seed : Bytes) (alg : Int)
    : Bridge (List Transition × List Bytes) := do
  let transitions ← bridgeTransitions repr events card
  let objs ← lift (transitions.mapM fun t => signTransition lib t alg seed)
  return (transitions, objs)

end Bridging

def verifyActivity (lib : SignatureLibrary) (objs : List Bytes) (card pubkey : Bytes)
    (alg profile : Int)
    : Py (List Transition × List ForeignTaskEvent) := do
  let verified ← verifyTaskChain lib objs card profile alg pubkey
  let some first := verified.head? | throw (.other "IndexError")
  let taskId ← PyStr.decode first.task
  return (verified, verified.map fun t => { taskId, state := stateName t.to_ })

end Naalp.Python.A2aBridge
