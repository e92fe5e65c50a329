import MarkdownExport.CommandLine.Terminal
import MarkdownExport.Markdown.Dialect

/-! The arguments of the command line. -/
namespace MarkdownExport.CommandLine

structure Arguments where
  input : Text
  output : Option Text := none
  dialect : Dialect := .gfm
  frontmatter : Bool := false
  includeReport : Bool := false
  strict : Bool := false
  verbose : Bool := false
  deriving DecidableEq, Repr

inductive Flag where
  | frontmatter | includeReport | strict | verbose
  deriving DecidableEq, Repr

/-- An argument that has a value. -/
inductive Slot where
  | input | output | format
  deriving DecidableEq, Repr

inductive Switch where
  | flag (f : Flag)
  | slot (s : Slot)
  | version
  | help

def Flag.label : Flag → Text
  | frontmatter => "--frontmatter"
  | includeReport => "--include-parse-report"
  | strict => "--strict"
  | verbose => "--verbose"

def Slot.label : Slot → Text
  | input => "<INPUT>"
  | output => "--output <OUTPUT>"
  | format => "--format <FORMAT>"

def longSwitches : List (String × Switch) :=
  [("output", .slot .output), ("format", .slot .format), ("frontmatter", .flag .frontmatter),
   ("include-parse-report", .flag .includeReport), ("strict", .flag .strict),
   ("verbose", .flag .verbose), ("version", .version), ("help", .help)]

def shortSwitches : List (Char × Switch) :=
  [('o', .slot .output), ('f', .slot .format), ('v', .flag .verbose), ('V', .version),
   ('h', .help)]

def longSwitch? (name : Text) : Option Switch :=
  (longSwitches.find? fun s => s.1.toList == name).map Prod.snd

/-- Why the arguments cannot be used. -/
inductive Misuse where
  | unexpected (argument : Text)
  | needlessValue (f : Flag) (value : Text)
  | needlessAnswer (name value : Text)
  | noValue (s : Slot)
  | repeatedSlot (s : Slot)
  | repeatedFlag (f : Flag)
  | badFormat (value : Text)
  | noInput
  deriving DecidableEq, Repr

def repeated (label : Text) : Text :=
  "the argument '" ++ emphasized label ++ "' cannot be used multiple times"

def needless (label value : Text) : Text :=
  "unexpected value '" ++ emphasized value ++ "' for '" ++ emphasized label ++
    "' found; no more were expected"

def Misuse.reason : Misuse → Text
  | unexpected argument => "unexpected argument '" ++ emphasized argument ++ "' found"
  | needlessValue f value => needless f.label value
  | needlessAnswer name value => needless name value
  | noValue s => "a value is required for '" ++ emphasized s.label ++ "' but none was supplied"
  | repeatedSlot s => repeated s.label
  | repeatedFlag f => repeated f.label
  | badFormat value =>
    "invalid value '" ++ emphasized value ++ "' for '" ++ emphasized Slot.format.label ++ "': " ++
      Dialect.unknownMessage value
  | noInput => "the following required arguments were not provided:"

/-- The message as it is printed, where a control sequence in an argument is not carried out. -/
def Misuse.message (m : Misuse) : Text :=
  plain ("error: " ++ m.reason ++ "\n\nFor more information, try '" ++ emphasized "--help" ++ "'.")

inductive Request where
  | convert (a : Arguments)
  | version
  | help
  | misuse (m : Misuse)

/-- The arguments as far as they are read. -/
structure Reading where
  input : Option Text := none
  output : Option Text := none
  dialect : Option Dialect := none
  flags : List Flag := []
  /-- The last slot that was named, with its value once that has come. It is filled when the next
  argument has been recognized. -/
  waiting : Option (Slot × Option Text) := none
  trailing : Bool := false

namespace Reading

def fill (s : Slot) (value : Text) (r : Reading) : Except Misuse Reading :=
  match s with
  | .format =>
    if r.dialect.isSome then .error (.repeatedSlot s)
    else match Dialect.ofName? value with
      | some d => .ok { r with dialect := some d }
      | none => .error (.badFormat value)
  | .output =>
    if r.output.isSome then .error (.repeatedSlot s)
    else if value.isEmpty then .error (.noValue s)
    else .ok { r with output := some value }
  | .input => if value.isEmpty then .error (.noValue s) else .ok { r with input := some value }

/-- Fills the slot that waits. -/
def settle (r : Reading) : Except Misuse Reading :=
  match r.waiting with
  | none => .ok r
  | some (s, none) => .error (.noValue s)
  | some (s, some value) => { r with waiting := none }.fill s value

def raise (f : Flag) (r : Reading) : Except Misuse Reading := do
  let r ← r.settle
  if f ∈ r.flags then .error (.repeatedFlag f) else .ok { r with flags := f :: r.flags }

def await (s : Slot) (value : Option Text) (r : Reading) : Except Misuse Reading := do
  let r ← r.settle
  match value with
  | some value => r.fill s value
  | none => .ok { r with waiting := some (s, none) }

/-- Answers that are given at once, whatever comes after. -/
inductive Step where
  | next (r : Reading)
  | stop (request : Request)

def Step.ofExcept : Except Misuse Reading → Step
  | .ok r => .next r
  | .error m => .stop (.misuse m)

def answer (request : Request) (r : Reading) : Step :=
  match r.settle with
  | .ok _ => .stop request
  | .error m => .stop (.misuse m)

def long (body : Text) (r : Reading) : Step :=
  let (name, value) : Text × Option Text :=
    match body.span (· ≠ '=') with
    | (name, _ :: value) => (name, some value)
    | (name, []) => (name, none)
  let label : Text := "--" ++ name
  match longSwitch? name, value with
  | none, _ => .stop (.misuse (.unexpected label))
  | some (.slot s), value => .ofExcept (r.await s value)
  | some (.flag f), none => .ofExcept (r.raise f)
  | some (.flag f), some value => .stop (.misuse (.needlessValue f value))
  | some .version, none => r.answer .version
  | some .help, none => r.answer .help
  | some _, some value => .stop (.misuse (.needlessAnswer label value))

/-- One-letter switches in a row; the first that takes a value takes the rest. -/
def short : Text → Reading → Step
  | [], r => .next r
  | c :: cs, r =>
    match shortSwitches.lookup c with
    | none => .stop (.misuse (.unexpected ['-', c]))
    | some (.flag f) =>
      match r.raise f with
      | .ok r => short cs r
      | .error m => .stop (.misuse m)
    | some (.slot s) =>
      .ofExcept <| r.await s <|
        match cs with
        | [] => none
        | '=' :: value => some value
        | value => some value
    | some .version => r.answer .version
    | some .help => r.answer .help

def positional (argument : Text) (r : Reading) : Step :=
  let inputNamed := r.input.isSome || (r.waiting.any fun w => w.1 == .input)
  if inputNamed then .stop (.misuse (.unexpected argument))
  else match r.settle with
    | .ok r => .next { r with waiting := some (.input, some argument) }
    | .error m => .stop (.misuse m)

def step (argument : Text) (r : Reading) : Step :=
  if r.trailing then r.positional argument
  else match argument with
    | ['-', '-'] => .next { r with trailing := true }
    | '-' :: '-' :: body => r.long body
    | '-' :: c :: cs => r.short (c :: cs)
    | value =>
      match r.waiting with
      | some (s, none) => .next { r with waiting := some (s, some value) }
      | _ => r.positional value

def finish (r : Reading) : Request :=
  match r.settle with
  | .error m => .misuse m
  | .ok r =>
    match r.input with
    | none => .misuse .noInput
    | some input =>
      .convert
        { input, output := r.output, dialect := r.dialect.getD .gfm,
          frontmatter := .frontmatter ∈ r.flags, includeReport := .includeReport ∈ r.flags,
          strict := .strict ∈ r.flags, verbose := .verbose ∈ r.flags }

def readAll : List Text → Reading → Request
  | [], r => r.finish
  | argument :: arguments, r =>
    match r.step argument with
    | .next r => readAll arguments r
    | .stop request => request

end Reading

def request (arguments : List Text) : Request := Reading.readAll arguments {}

end MarkdownExport.CommandLine
