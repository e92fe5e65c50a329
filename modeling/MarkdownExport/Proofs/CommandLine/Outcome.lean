import MarkdownExport.CommandLine.Run
import MarkdownExport.Proofs.CommandLine.Omission
import MarkdownExport.Proofs.Text.Lines
import MarkdownExport.Proofs.Word.Parts

/-! What a call leaves behind. It fails with a message alone, or it delivers one document, which is
the same on the terminal as in a file. -/
namespace MarkdownExport.CommandLine
open Word (Package documentPart)

/-- The call leaves nothing but a message, which is one line if no text that it tells has a newline. -/
structure Outcome.Fails (o : Outcome) (context : Text) (reasons : List Text) : Prop where
  code : o.code = 1
  stdout : o.stdout = []
  written : o.written = none
  stderr : o.stderr =
    some ("docx-markdown error: " ++ List.intercalate (": " : Text) (context :: reasons))
  oneLine : ∀ message ∈ o.stderr, message.lines = [message] ↔ ∀ t ∈ context :: reasons, '\n' ∉ t

theorem failure_fails (context : Text) (reasons : List Text) :
    (failure context reasons).Fails context reasons := by
  refine ⟨rfl, rfl, rfl, rfl, ?_⟩
  rintro _ ⟨⟩
  have hbetween : '\n' ∉ (": " : Text) := by decide
  rw [Text.lines_eq_singleton_iff, List.mem_append, Text.newline_mem_intercalate hbetween]
  simp

/-- Whatever the arguments are, a call that does not succeed prints no document and writes none. -/
theorem run_failed {files : Files} {arguments : List Text} (h : (run files arguments).code ≠ 0) :
    (run files arguments).stdout = [] ∧ (run files arguments).written = none ∧
      (run files arguments).stderr.isSome := by
  have hdeliver (output : Option Text) (document : Text)
      (h : (deliver files output document).code ≠ 0) :
      (deliver files output document).stdout = [] ∧
        (deliver files output document).written = none ∧
          (deliver files output document).stderr.isSome := by
    unfold deliver at h ⊢
    split at h
    · exact absurd rfl h
    · split at h
      · exact ⟨rfl, rfl, rfl⟩
      · exact absurd rfl h
  unfold run at h ⊢
  cases hrequest : request arguments with
  | version | help =>
    rw [hrequest] at h
    exact absurd rfl h
  | misuse m => exact ⟨rfl, rfl, rfl⟩
  | convert a =>
    rw [hrequest] at h
    dsimp only at h ⊢
    unfold convert at h ⊢
    cases hread : files.read a.input with
    | error e => exact ⟨rfl, rfl, rfl⟩
    | ok package =>
      rw [hread] at h
      dsimp only at h ⊢
      cases hconvert : package.bind (convertWord a.options) with
      | error e => exact ⟨rfl, rfl, rfl⟩
      | ok converted =>
        rw [hconvert] at h
        exact hdeliver a.output converted.document h

section Report
variable {o : WordOptions}

/-- A report has its place in the frontmatter alone. -/
theorem document_convertSnapshot (h : o.markdown.frontmatter = false) (s : Word.Snapshot) :
    (convertSnapshot { o with includeReport := false } s).document =
      (convertSnapshot o s).document := by
  unfold convertSnapshot convertHtml convertTree ConvertedWord.document
  simp [h]

theorem document_convertWord (h : o.markdown.frontmatter = false) (package : Package) :
    (convertWord { o with includeReport := false } package).map ConvertedWord.document =
      (convertWord o package).map ConvertedWord.document := by
  unfold convertWord
  cases Word.snapshot package o.profile with
  | error e => rfl
  | ok s => exact congrArg Except.ok (document_convertSnapshot h s)

end Report

section Run
variable {files : Files} {arguments : List Text} {a : Arguments}

theorem run_of_request (h : request arguments = .convert a) :
    run files arguments = convert files a := by
  simp only [run, h]

/-- Of a conversion nothing is delivered but its document. -/
theorem convert_eq (files : Files) (a : Arguments) :
    convert files a =
      match files.read a.input with
      | .error e => failure ("open " ++ a.input) [e.message]
      | .ok package =>
        match package.bind fun p => (convertWord a.options p).map ConvertedWord.document with
        | .error e => failure ("convert " ++ a.input) (e.message :: e.causes)
        | .ok document => deliver files a.output document := by
  unfold convert
  cases files.read a.input with
  | error e => rfl
  | ok package =>
    cases package with
    | error e => rfl
    | ok package =>
      dsimp only [Except.bind]
      cases convertWord a.options package <;> rfl

theorem convert_includeReport (h : a.frontmatter = false) :
    convert files { a with includeReport := false } = convert files a := by
  have hoptions : { a with includeReport := false }.options =
      { a.options with includeReport := false } := rfl
  have hfrontmatter : a.options.markdown.frontmatter = false := h
  rw [convert_eq, convert_eq]
  simp only [hoptions, document_convertWord hfrontmatter]

/-- A call with accepted arguments fails without a trace if its input cannot be read or converted.
Otherwise it prints the document, or writes to a file what it would print. Without frontmatter it
does not matter whether a report is asked for. -/
theorem run_accepted (files : Files) {arguments : List Text} {a : Arguments}
    (h : request arguments = .convert a) :
    (∀ e, files.read a.input = .error e →
        (run files arguments).Fails ("open " ++ a.input) [e.message]) ∧
      (∀ package e, files.read a.input = .ok package →
        package.bind (convertWord a.options) = .error e →
          (run files arguments).Fails ("convert " ++ a.input) (e.message :: e.causes)) ∧
      (∀ package converted, files.read a.input = .ok package →
        package.bind (convertWord a.options) = .ok converted →
          (a.output = none →
            run files arguments = { code := 0, stdout := converted.document }) ∧
          ∀ path, a.output = some path → files.refusal path = none →
            (run files arguments).code = 0 ∧
              (run files arguments).written = some (path, converted.document) ∧
              run files (omitSwitch (.slot .output) arguments) =
                { code := 0, stdout := converted.document }) ∧
      (a.frontmatter = false →
        run files (omitSwitch (.flag .includeReport) arguments) = run files arguments) := by
  rw [run_of_request h]
  refine ⟨fun e hread => ?_, fun package e hread hconvert => ?_,
    fun package converted hread hconvert => ⟨fun houtput => ?_, fun path houtput hpath => ?_⟩,
    fun hfrontmatter => ?_⟩
  · rw [convert, hread]
    exact failure_fails _ _
  · rw [convert, hread]
    dsimp only
    rw [hconvert]
    exact failure_fails _ _
  · rw [convert, hread]
    dsimp only
    rw [hconvert, houtput]
    rfl
  · have hprinted : request (omitSwitch (.slot .output) arguments) =
        .convert (a.omitting (.slot .output)) := request_omitSwitch (by decide) h
    have homitting : a.omitting (.slot .output) = { a with output := none } := by
      simp [Arguments.omitting]
    have hdelivered : convert files a = deliver files a.output converted.document := by
      rw [convert, hread]
      dsimp only
      rw [hconvert]
    have hterminal : convert files { a with output := none } =
        deliver files none converted.document := by
      have hoptions : { a with output := none }.options = a.options := rfl
      rw [convert, hread]
      dsimp only
      rw [hoptions, hconvert]
    have hwritten : deliver files (some path) converted.document =
        { code := 0, stdout := "Wrote markdown to " ++ files.absolute path ++ "\n",
          written := some (path, converted.document) } := by
      simp only [deliver, hpath]
    rw [run_of_request hprinted, homitting, hterminal, hdelivered, houtput, hwritten]
    exact ⟨rfl, rfl, rfl⟩
  · have hunreported : request (omitSwitch (.flag .includeReport) arguments) =
        .convert (a.omitting (.flag .includeReport)) := request_omitSwitch (by decide) h
    have homitting : a.omitting (.flag .includeReport) = { a with includeReport := false } := by
      simp [Arguments.omitting]
    rw [run_of_request hunreported, homitting, convert_includeReport hfrontmatter]

/-- A file whose document is one letter. -/
def letterFiles : Files where
  read _ := .ok (.ok (.ofTexts [(documentPart, "<w:p><w:r><w:t>t</w:t></w:r></w:p>")]))
  refusal _ := none
  absolute := id

def letterArguments : Arguments where
  input := "in.docx"
  output := some ("x.md" : Text)
  includeReport := true
  verbose := true

theorem run_accepted_letter :
    (run letterFiles ["-vox.md", "in.docx", "--include-parse-report"]).written =
        some (("x.md" : Text), ("t\n" : Text)) ∧
      run letterFiles ["-v", "in.docx", "--include-parse-report"] =
        { code := 0, stdout := "t\n" } ∧
      run letterFiles ["-vox.md", "in.docx"] =
        run letterFiles ["-vox.md", "in.docx", "--include-parse-report"] := by
  have hrequest : request ["-vox.md", "in.docx", "--include-parse-report"] =
      .convert letterArguments := rfl
  have hdocument : (convertWord letterArguments.options
      (.ofTexts [(documentPart, "<w:p><w:r><w:t>t</w:t></w:r></w:p>")])).map
        ConvertedWord.document = .ok ("t\n" : Text) := by
    refine Word.eq_ok_of_toOption ?_
    simp only [convertWord, Word.snapshot, Word.readContents, Word.readNotes, Word.readOptional,
      Package.text?_ofTexts]
    decide +kernel
  obtain ⟨-, -, hconverted, hreport⟩ := run_accepted letterFiles hrequest
  cases hconvert : convertWord letterArguments.options
      (.ofTexts [(documentPart, "<w:p><w:r><w:t>t</w:t></w:r></w:p>")]) with
  | error e =>
    rw [hconvert] at hdocument
    cases hdocument
  | ok converted =>
    rw [hconvert] at hdocument
    have htext : converted.document = "t\n" := Except.ok.inj hdocument
    obtain ⟨-, hwritten⟩ := hconverted _ converted rfl hconvert
    obtain ⟨-, hfile, hterminal⟩ := hwritten "x.md" rfl rfl
    rw [htext] at hfile hterminal
    exact ⟨hfile, hterminal, hreport rfl⟩

/-- A file whose document part has an end tag over two lines. -/
def brokenFiles : Files where
  read _ := .ok (.ok (.ofTexts [(documentPart, "<a></a\nb>")]))
  refusal _ := none
  absolute := id

def brokenMessage : Text :=
  "docx-markdown error: convert in.docx: malformed xml in word/document.xml: " ++
    "Expecting </a> found </a\nb>: Expecting </a> found </a\nb>"

/-- The message is then no line of its own. -/
theorem run_accepted_brokenEndTag :
    request ["in.docx"] = .convert { input := "in.docx" } ∧
      (run brokenFiles ["in.docx"]).stderr = some brokenMessage ∧
      brokenMessage.lines.getLast? = some ("b>" : Text) := by
  have hrequest : request ["in.docx"] = .convert { input := "in.docx" } := rfl
  refine ⟨hrequest, ?_, by decide +kernel⟩
  rw [run_of_request hrequest]
  simp only [convert, brokenFiles, Except.bind, convertWord, Word.snapshot, Word.readContents,
    Word.readNotes, Word.readOptional, Word.Package.text?_ofTexts]
  decide +kernel

end Run

end MarkdownExport.CommandLine
