import MarkdownExport.CommandLine.Arguments
import MarkdownExport.Conversion

/-! What a call of the program prints, writes and answers. -/
namespace MarkdownExport.CommandLine

/-- Why the system does not let a file be read or written. -/
inductive FileError where
  | notFound | notADirectory | isADirectory | nameTooLong
  | other (detail : Text)
  deriving DecidableEq, Repr

def FileError.message : FileError → Text
  | notFound => "No such file or directory (os error 2)"
  | notADirectory => "Not a directory (os error 20)"
  | isADirectory => "Is a directory (os error 21)"
  | nameTooLong => "File name too long (os error 36)"
  | other detail => detail

/-- The files that a call sees: what it can read, and what it cannot write. -/
structure Files where
  read : Text → Except FileError (Except Error Word.Package)
  refusal : Text → Option FileError
  /-- The absolute form of a path. -/
  absolute : Text → Text

structure Outcome where
  code : Nat
  stdout : Text := []
  /-- The message that tells why the call failed. -/
  stderr : Option Text := none
  /-- The file that is written, and its content. -/
  written : Option (Text × Text) := none

/-- A failure is told from the outside in: what was done, why it failed, and the causes of that. -/
def failure (context : Text) (reasons : List Text) : Outcome where
  code := 1
  stderr := some ("docx-markdown error: " ++ List.intercalate (": " : Text) (context :: reasons))

def Arguments.options (a : Arguments) : WordOptions where
  markdown := { dialect := a.dialect, frontmatter := a.frontmatter }
  includeReport := a.includeReport
  profile := if a.strict then .strict else .faithful

def deliver (files : Files) (output : Option Text) (document : Text) : Outcome :=
  match output with
  | none => { code := 0, stdout := document }
  | some path =>
    match files.refusal path with
    | some e => failure ("write " ++ path) [e.message]
    | none =>
      { code := 0, stdout := "Wrote markdown to " ++ files.absolute path ++ "\n",
        written := some (path, document) }

def convert (files : Files) (a : Arguments) : Outcome :=
  match files.read a.input with
  | .error e => failure ("open " ++ a.input) [e.message]
  | .ok package =>
    match package.bind (convertWord a.options) with
    | .error e => failure ("convert " ++ a.input) (e.message :: e.causes)
    | .ok converted => deliver files a.output converted.document

def versionText : Text := "docx-markdown 0.1.0\n"

def helpText : Text :=
  "Convert a Word document to Markdown\n\nUsage: docx-markdown [OPTIONS] <INPUT>\n"

def run (files : Files) (arguments : List Text) : Outcome :=
  match request arguments with
  | .convert a => convert files a
  | .version => { code := 0, stdout := versionText }
  | .help => { code := 0, stdout := helpText }
  | .misuse m => { code := 2, stderr := some m.message }

end MarkdownExport.CommandLine
