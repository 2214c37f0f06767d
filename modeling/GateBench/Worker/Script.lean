import GateBench.Worker.Transport

/-!
Workers that play scripts, one for each call.  Time passes only where a script sleeps, and where a
call waits for its time to run out.
-/

namespace GateBench.Worker

open GateBench.Message

/-- One action of a script. -/
inductive ScriptAction where
  | event (event : RunEvent) (mustHear : Bool)
  | sleep (milliseconds : Nat)
  | reply (response : Response)
  | fail (error : WorkerError)
deriving Repr

/-- A script.  One that ends without a reply or an error waits for ever. -/
abbrev Script := List ScriptAction

/-- The caller takes all events that wait in its buffer, unless its time has run out. -/
def takeWaiting (reception : Reception) (patience : Patience) (now waiting : Nat) :
    List Happening :=
  match reception with
  | .consumed _ => if now < patience.limit then List.replicate waiting (.taken now) else []
  | _ => []

/-- The events that wait in the buffer after the worker has slept. -/
def waitingAfter (reception : Reception) (waiting : Nat) : Nat :=
  match reception with
  | .consumed _ => 0
  | _ => waiting

/-- Whether there is room for one more event behind those that wait.  A caller that takes events has
room for at least one. -/
def hasRoom (reception : Reception) (waiting : Nat) : Bool :=
  match reception with
  | .discarded | .closed => true
  | .buffered capacity => waiting < capacity
  | .consumed capacity => waiting = 0 || waiting < capacity

/-- Whether the caller takes an event of those that wait, to make room for more. -/
def makesRoom (reception : Reception) (patience : Patience) (now waiting : Nat) : Bool :=
  match reception with
  | .consumed _ => 0 < waiting && now < patience.limit
  | _ => false

theorem makesRoom_pos {reception : Reception} {patience : Patience} {now waiting : Nat}
    (h : makesRoom reception patience now waiting = true) : 0 < waiting := by
  cases reception <;> simp_all [makesRoom]

/-- Play a script from a time on, while `waiting` events wait in the buffer.  An event needs room in
the buffer; a caller that empties its buffer makes room, any other lets the worker wait.  A sleep
that ends just when time runs out has ended in time. -/
def play (reception : Reception) (patience : Patience) (now waiting : Nat) :
    Script → List Happening × CallEnd
  | [] => (takeWaiting reception patience now waiting, patience.expiry)
  | .event event mustHear :: others =>
    if reception = .closed ∧ mustHear then ([], .failed (.crashed "nobody listens"))
    else if !reception.isAttached then play reception patience now waiting others
    else if hasRoom reception waiting then
      let (happenings, ending) := play reception patience now (waiting + 1) others
      (.delivered event :: happenings, ending)
    else if makesRoom reception patience now waiting then
      let (happenings, ending) :=
        play reception patience now (waiting - 1) (.event event mustHear :: others)
      (.taken now :: happenings, ending)
    else ([], patience.expiry)
  | .sleep milliseconds :: others =>
    if milliseconds = 0 then play reception patience now waiting others
    else
      let taken := takeWaiting reception patience now waiting
      let awake := now + milliseconds
      if awake ≤ patience.limit then
        let (happenings, ending) :=
          play reception patience awake (waitingAfter reception waiting) others
        (taken ++ happenings, ending)
      else (taken, patience.expiry)
  | .reply response :: _ => ([], .replied response)
  | .fail error :: _ => ([], .failed error)
termination_by script => (script.length, waiting)
decreasing_by
  · exact Prod.Lex.left _ _ (by simp)
  · exact Prod.Lex.left _ _ (by simp)
  · have := makesRoom_pos ‹makesRoom reception patience now waiting = true›
    exact Prod.Lex.right _ (by omega)
  · exact Prod.Lex.left _ _ (by simp)
  · exact Prod.Lex.left _ _ (by simp)

/-- The scripts still to be played, and the startings that fail, counted from one. -/
structure Stage where
  scripts : List Script
  failingSpawns : List Nat := []
  spawns : Nat := 0

/-- Workers that play the scripts of a stage in order.  Without a script left a call finds the
worker gone. -/
def scripted : Transport Unit Stage where
  spawn stage :=
    let spawns := stage.spawns + 1
    let result :=
      if spawns ∈ stage.failingSpawns then .error (.spawn ("spawn " ++ toString spawns))
      else .ok ()
    (result, { stage with spawns })
  call _ reception patience worker stage :=
    match stage.scripts with
    | [] => (⟨[], .failed .disconnected⟩, worker, stage)
    | script :: scripts =>
      let (happenings, ending) := play reception patience 0 0 script
      (⟨happenings, ending⟩, worker, { stage with scripts })
  terminate worker stage := (worker, stage)
  kill worker stage := (worker, stage)

end GateBench.Worker
