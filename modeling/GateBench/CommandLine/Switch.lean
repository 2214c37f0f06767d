/-!
Reading the arguments of a command line: options by long and short names, with values attached or
behind them, and operands.
-/

namespace GateBench.CommandLine

/-- Why arguments name nothing to do: they are no proper ones, or they ask for help or for the
version. -/
inductive Stop where
  | usage
  | help
  | version
deriving DecidableEq, Repr

/-- An option.  One that stops ends the reading; others may have values that are not accepted. -/
structure Switch where
  long : String
  short : Option Char := none
  takesValue : Bool := true
  mayRepeat : Bool := false
  stop : Option Stop := none
  accepts : String → Bool := fun _ => true

/-- What was given: the values of options by their long names, and the operands, in order. -/
structure Given where
  values : List (String × String) := []
  operands : List String := []
deriving DecidableEq, Repr

/-- The value of an option that is given at most once. -/
def Given.value? (given : Given) (long : String) : Option String :=
  given.values.lookup long

/-- All values of an option. -/
def Given.all (given : Given) (long : String) : List String :=
  (given.values.filter (·.1 = long)).map Prod.snd

/-- Note an option and its value, which is empty for one that takes none. -/
def Given.note (given : Given) (switch : Switch) (value : String) : Except Stop Given :=
  match switch.stop with
  | some stop => .error stop
  | none =>
    if !switch.accepts value || (!switch.mayRepeat && (given.value? switch.long).isSome) then
      .error .usage
    else .ok { given with values := given.values ++ [(switch.long, value)] }

/-- Whether an argument is an option or the mark behind which only operands stand. -/
def isDashed (argument : String) : Bool :=
  argument.startsWith "-" && argument ≠ "-"

/-- Note an option whose value is the next argument. -/
def noteNext (given : Given) (switch : Switch) (rest : List String) :
    Except Stop (Given × Nat) :=
  match rest with
  | value :: _ =>
    if isDashed value then .error .usage else (given.note switch value).map (·, 1)
  | [] => .error .usage

/-- Take an option by what stands behind its two dashes; also how many further arguments it
takes. -/
def takeLong (switches : List Switch) (given : Given) (body : List Char) (rest : List String) :
    Except Stop (Given × Nat) :=
  let name := body.takeWhile (· ≠ '=')
  let attached := body.drop name.length
  match switches.find? (·.long.toList = name) with
  | none => .error .usage
  | some switch =>
    match switch.takesValue, attached with
    | false, [] => (given.note switch "").map (·, 0)
    | false, _ => .error .usage
    | true, [] => noteNext given switch rest
    | true, _ :: value => (given.note switch (String.ofList value)).map (·, 0)

/-- Take the options whose letters stand behind one dash; also how many further arguments they take.
What stands behind the letter of an option with a value is its value. -/
def takeShort (switches : List Switch) (given : Given) (rest : List String) :
    List Char → Except Stop (Given × Nat)
  | [] => .ok (given, 0)
  | letter :: others =>
    match switches.find? (·.short = some letter) with
    | none => .error .usage
    | some switch =>
      match switch.takesValue, others with
      | false, _ => do takeShort switches (← given.note switch "") rest others
      | true, [] => noteNext given switch rest
      | true, '=' :: value => (given.note switch (String.ofList value)).map (·, 0)
      | true, value => (given.note switch (String.ofList value)).map (·, 0)

/-- Read arguments as far as they are options or the first `wanted` operands; also the arguments
left.  Behind two dashes alone all arguments are operands. -/
def scan (switches : List Switch) (wanted : Nat) (given : Given) (arguments : List String) :
    Except Stop (Given × List String) :=
  match arguments with
  | [] => .ok (given, [])
  | argument :: rest =>
    if argument = "--" then
      let operands := given.operands ++ rest
      if operands.length ≤ wanted then .ok ({ given with operands }, []) else .error .usage
    else if isDashed argument then do
      let (given, taken) ← match argument.toList with
        | '-' :: '-' :: body => takeLong switches given body rest
        | letters => takeShort switches given rest (letters.drop 1)
      scan switches wanted given (rest.drop taken)
    else if given.operands.length < wanted then
      scan switches wanted { given with operands := given.operands ++ [argument] } rest
    else .ok (given, argument :: rest)
termination_by arguments.length
decreasing_by all_goals (simp_wf; try omega)

end GateBench.CommandLine
