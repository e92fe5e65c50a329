import MarkdownExport.CommandLine.Directory

/-! The program: files are read and written here, and nothing is decided. -/
namespace MarkdownExport.CommandLine

/-- The number of an error, which some calls give as its negative. -/
def errorNumber (code : UInt32) : UInt32 := min code (0 - code)

def FileError.ofSystem (e : IO.Error) : FileError :=
  match e with
  | .noFileOrDirectory .. => .notFound
  | .permissionDenied .. => .other "Permission denied (os error 13)"
  | .inappropriateType _ code _ =>
    if errorNumber code = 20 then .notADirectory else .isADirectory
  | .invalidArgument _ code detail =>
    if errorNumber code = 36 then .nameTooLong else .other detail.toList
  | e => .other e.toString.toList

/-- Reads the file that the arguments name as their input. -/
def readInput (arguments : List Text) : IO (Except FileError (Except Error Word.Package)) :=
  match request arguments with
  | .convert a => do
    match ← (IO.FS.readBinFile (String.ofList a.input)).toBaseIO with
    | .ok bytes => return .ok (Word.Package.ofZip bytes)
    | .error e => return .error (.ofSystem e)
  | _ => return .error .notFound

/-- Writes what a call wants written, which may fail after all. -/
def writeOutput (o : Outcome) : IO Outcome :=
  match o.written with
  | some (path, content) => do
    match ← (IO.FS.writeFile (String.ofList path) (String.ofList content)).toBaseIO with
    | .ok _ => return o
    | .error e => return failure ("write " ++ path) [(FileError.ofSystem e).message]
  | none => return o

end MarkdownExport.CommandLine

open MarkdownExport CommandLine in
def main (arguments : List String) : IO UInt32 := do
  let arguments := arguments.map String.toList
  let directory : Directory := ⟨(← IO.currentDir).toString.toList, []⟩
  let input ← readInput arguments
  let files : Files := ⟨fun _ => input, fun _ => none, directory.absolute⟩
  let o ← writeOutput (run files arguments)
  (← IO.getStdout).putStr (String.ofList o.stdout)
  if let some line := o.stderr then
    (← IO.getStderr).putStrLn (String.ofList line)
  return o.code.toUInt32
