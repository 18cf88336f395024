/-
The command line of a replay.

Four options name files, each with a short and a long form: the trace, which must be given, a configuration, an image
path that replaces the configured one, and a save path. A value follows its option, or stands behind an equals sign, or
right behind a short form.
-/
import Accel3D.Replay.Run

namespace Accel3D.CommandLine

/-- the options -/
inductive Flag where
  | trace
  | config
  | image
  | save
deriving DecidableEq, Repr

namespace Flag

def short : Flag → String
  | trace => "-t"
  | config => "-c"
  | image => "-o"
  | save => "-s"

def long : Flag → String
  | trace => "--trace"
  | config => "--config"
  | image => "--output"
  | save => "--save-state"

def all : List Flag := [trace, config, image, save]

end Flag

/-- what can be wrong with a command line -/
inductive Fault where
  | unexpected (argument : String)
  | valueMissing (flag : Flag)
  | repeated (flag : Flag)
  | traceMissing
deriving DecidableEq, Repr

def Fault.message : Fault → String
  | unexpected argument => "unexpected argument '" ++ argument ++ "' found"
  | valueMissing flag => "a value is required for '" ++ flag.long ++ "' but none was supplied"
  | repeated flag => "the argument '" ++ flag.long ++ "' cannot be used multiple times"
  | traceMissing => "the argument '" ++ Flag.trace.long ++ "' was not provided"

/-- the text behind a lead -/
def behind? (lead text : List Char) : Option (List Char) :=
  if lead.isPrefixOf text then some (text.drop lead.length) else none

/-- the option that an argument is, with the value that the argument holds itself -/
def flagOf? (argument : String) : Option (Flag × Option String) :=
  let text := argument.toList
  Flag.all.findSome? fun flag =>
    match behind? flag.long.toList text with
    | some [] => some (flag, none)
    | some ('=' :: value) => some (flag, some (String.ofList value))
    | _ =>
      match behind? flag.short.toList text with
      | some [] => some (flag, none)
      | some ('=' :: value) => some (flag, some (String.ofList value))
      | some value => some (flag, some (String.ofList value))
      | none => none

/-- an argument that cannot be the value of an option before it: it begins with a dash and is longer than that -/
def isDashed (argument : String) : Bool :=
  match argument.toList with
  | '-' :: _ :: _ => true
  | _ => false

/-- the options of an argument list, in order, with their values -/
def readFlags : List String → Except Fault (List (Flag × String))
  | [] => .ok []
  | argument :: rest =>
    match flagOf? argument, rest with
    | none, _ => .error (.unexpected argument)
    | some (flag, some value), rest => (readFlags rest).map ((flag, value) :: ·)
    | some (flag, none), [] => .error (.valueMissing flag)
    | some (flag, none), value :: rest =>
      if isDashed value then .error (.valueMissing flag) else (readFlags rest).map ((flag, value) :: ·)

/-- the value of an option that may be given once -/
def valueOf (flags : List (Flag × String)) (flag : Flag) : Except Fault (Option String) :=
  match flags.filter fun f => f.1 == flag with
  | [] => .ok none
  | [f] => if f.2.isEmpty then .error (.valueMissing flag) else .ok (some f.2)
  | _ => .error (.repeated flag)

/-- the files that an argument list names -/
def read (arguments : List String) : Except Fault ReplayFiles := do
  let flags ← readFlags arguments
  let config ← valueOf flags .config
  let image ← valueOf flags .image
  let save ← valueOf flags .save
  match ← valueOf flags .trace with
  | some trace => return ⟨trace, config, image, save⟩
  | none => throw .traceMissing

/-- causes, numbered if there are several -/
def causeLines (causes : List String) : List String :=
  match causes with
  | [cause] => ["    " ++ cause]
  | causes => causes.zipIdx.map fun (cause, i) => "    " ++ toString i ++ ": " ++ cause

/-- a failure as it is shown -/
def showError (e : ReplayError) : String :=
  let causes := if e.causes.isEmpty then [] else "" :: "Caused by:" :: causeLines e.causes
  "\n".intercalate (("Error: " ++ e.headline) :: causes)

end Accel3D.CommandLine
