import TurtlePlayback.Command.Help
import TurtlePlayback.Decimal.Reading
import TurtlePlayback.Playback.Clock

/-!
The command line as data: which command is asked for, and with which options. An option is given
once, as `--name value` or `--name=value`; what starts with a dash is no value of its own. Arguments
are read in turn: the first fault ends them, and so does a request for help or for the version,
whatever is behind it.
-/

namespace TurtlePlayback.Command

open Playback

structure RunOptions where
  out : Option String := none
  config : Option String := none
  seconds : Option Float := none
  fps : Option Float := none
  speed : Option Nat := none
  loopMode : Option LoopMode := none
  width : Option Nat := none
  height : Option Nat := none
  ratio : Option Float := none

structure DumpOptions where
  steps : Option Nat := none

def RunOptions.duration (o : RunOptions) : Float :=
  o.seconds.getD 2.0

def RunOptions.rate (o : RunOptions) : Float :=
  o.fps.getD 60.0

def DumpOptions.count (o : DumpOptions) : Nat :=
  o.steps.getD 1

inductive Request
  | check (script : String)
  | run (script : String) (options : RunOptions)
  | dump (script : String) (options : DumpOptions)
  | version
  | help (topic : Topic)

def digits? (cs : List Char) : Option Nat :=
  if cs.isEmpty || !cs.all Char.isDigit then none else some (Decimal.ofDigits cs)

def word? (bound : Nat) (s : String) : Option Nat :=
  let size :=
    match s.toList with
    | '+' :: r => digits? r
    | r => digits? r
  size.filter (· < bound)

def signedWord? (bound : Nat) (s : String) : Option Nat :=
  match s.toList with
  | '-' :: r => (digits? r).filter (· = 0)
  | _ => word? bound s

def exponent? : List Char → Option Int
  | [] => some 0
  | mark :: r =>
    let (negative, digits) : Bool × List Char :=
      match r with
      | '-' :: r => (true, r)
      | '+' :: r => (false, r)
      | r => (false, r)
    if mark ≠ 'e' ∧ mark ≠ 'E' then none
    else (digits? digits).map fun size => if negative then -size else size

def magnitude? (cs : List Char) : Option Float :=
  match String.ofList (cs.map Char.toLower) with
  | "nan" => some (0.0 / 0.0)
  | "inf" | "infinity" => some (1.0 / 0.0)
  | _ =>
    let whole := cs.takeWhile Char.isDigit
    let rest := cs.dropWhile Char.isDigit
    let (decimals, rest) : List Char × List Char :=
      match rest with
      | '.' :: r => (r.takeWhile Char.isDigit, r.dropWhile Char.isDigit)
      | r => ([], r)
    if whole.isEmpty && decimals.isEmpty then none
    else (exponent? rest).map fun e =>
      Decimal.toFloat (Decimal.ofDigits (whole ++ decimals)) (e - decimals.length)

def real? (s : String) : Option Float :=
  match s.toList with
  | '-' :: r => (magnitude? r).map fun x => -x
  | '+' :: r => magnitude? r
  | r => magnitude? r

def path? (s : String) : Option String :=
  if s.isEmpty then none else some s

def loopMode? : String → Option LoopMode
  | "none" => some .noLoop
  | "wrap" => some .wrap
  | "reverse" => some .reverse
  | _ => none

abbrev Reading :=
  Except (Option Request)

namespace Reading

def fault {α : Type} : Reading α :=
  .error none

def answer {α : Type} (r : Request) : Reading α :=
  .error (some r)

def demand {α : Type} : Option α → Reading α
  | some a => .ok a
  | none => fault

end Reading

def setVerbose (verbose : Bool) : Reading Bool :=
  if verbose then .fault else .ok true

def shortFlags (topic : Topic) (verbose : Bool) : List Char → Reading Bool
  | [] => .ok verbose
  | 'h' :: _ => .answer (.help topic)
  | 'V' :: _ => if topic = .program then .answer .version else .fault
  | 'v' :: r => do shortFlags topic (← setVerbose verbose) r
  | _ :: _ => .fault

inductive Shape
  | plain (text : String)
  | short (flags : List Char)
  | long (name : String) (value : Option String)
  | divider

def Shape.ofText (arg : String) : Shape :=
  match arg.toList with
  | ['-', '-'] => .divider
  | '-' :: '-' :: r =>
    let value :=
      match r.dropWhile (· ≠ '=') with
      | _ :: value => some (String.ofList value)
      | [] => none
    .long (.ofList (r.takeWhile (· ≠ '='))) value
  | '-' :: c :: r => .short (c :: r)
  | _ => .plain arg

structure Given (ω : Type) where
  options : ω
  script : Option String := none
  verbose : Bool := false

class Options (ω : Type) where
  none : ω
  set : ω → (name value : String) → Option ω

namespace Given

variable {ω : Type}

def plain (g : Given ω) (arg : String) : Reading (Given ω) :=
  if g.script.isSome then .fault
  else do return { g with script := ← .demand (path? arg) }

def longFlag? (topic : Topic) (g : Given ω) : String → Option (Reading (Given ω))
  | "help" => some (.answer (.help topic))
  | "verbose" => some do return { g with verbose := ← setVerbose g.verbose }
  | _ => none

variable [Options ω]

def option (g : Given ω) (name value : String) : Reading (Given ω) := do
  return { g with options := ← .demand (Options.set g.options name value) }

def read (topic : Topic) (g : Given ω) : List String → Reading (Given ω)
  | [] => .ok g
  | arg :: rest =>
    match Shape.ofText arg with
    | .divider => rest.foldlM plain g
    | .plain text => do read topic (← g.plain text) rest
    | .short flags => do
      read topic { g with verbose := ← shortFlags topic g.verbose flags } rest
    | .long name (some value) => do read topic (← g.option name value) rest
    | .long name none =>
      match g.longFlag? topic name, rest with
      | some flag, rest => do read topic (← flag) rest
      | none, value :: rest =>
        match Shape.ofText value with
        | .plain value => do read topic (← g.option name value) rest
        | _ => .fault
      | none, [] => .fault

end Given

def fresh {α : Type} (old new : Option α) : Option (Option α) :=
  if old.isSome then none else new.map some

instance : Options Unit where
  none := ()
  set _ _ _ := none

instance : Options DumpOptions where
  none := {}
  set o name value :=
    match name with
    | "steps" => do return { o with steps := ← fresh o.steps (word? (1 <<< 64) value) }
    | _ => none

instance : Options RunOptions where
  none := {}
  set o name value :=
    match name with
    | "out" => do return { o with out := ← fresh o.out (path? value) }
    | "config" => do return { o with config := ← fresh o.config (path? value) }
    | "seconds" => do return { o with seconds := ← fresh o.seconds (real? value) }
    | "fps" => do return { o with fps := ← fresh o.fps (real? value) }
    | "speed" => do return { o with speed := ← fresh o.speed (signedWord? (1 <<< 32) value) }
    | "loop-mode" => do return { o with loopMode := ← fresh o.loopMode (loopMode? value) }
    | "width" => do return { o with width := ← fresh o.width (signedWord? (1 <<< 32) value) }
    | "height" => do return { o with height := ← fresh o.height (signedWord? (1 <<< 32) value) }
    | "pixel-ratio" => do return { o with ratio := ← fresh o.ratio (real? value) }
    | _ => none

def scriptAndOptions (ω : Type) [Options ω] (topic : Topic) (args : List String) :
    Reading (String × ω) := do
  let g ← Given.read topic { options := (Options.none : ω) } args
  return (← .demand g.script, g.options)

namespace Request

def ofHelp : List String → Reading Request
  | [] => .ok (.help .program)
  | [name] => do return .help (← .demand (Topic.ofName? name))
  | _ => .fault

def ofTopic (args : List String) : Topic → Reading Request
  | .check => do return .check (← scriptAndOptions Unit .check args).1
  | .run => do
    let (script, options) ← scriptAndOptions RunOptions .run args
    return .run script options
  | .dump => do
    let (script, options) ← scriptAndOptions DumpOptions .dump args
    return .dump script options
  | .help => ofHelp args
  | .program => .fault

def read (verbose : Bool) : List String → Reading Request
  | [] => .fault
  | arg :: rest =>
    match Shape.ofText arg with
    | .plain name => do ofTopic rest (← .demand (Topic.ofName? name))
    | .short flags => do read (← shortFlags .program verbose flags) rest
    | .long "help" none => .answer (.help .program)
    | .long "version" none => .answer .version
    | .long "verbose" none => do read (← setVerbose verbose) rest
    | .long _ _ | .divider => .fault

def parse (args : List String) : Option Request :=
  match read false args with
  | .ok r => some r
  | .error r => r

end Request

end TurtlePlayback.Command
