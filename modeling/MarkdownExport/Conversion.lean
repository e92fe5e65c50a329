import MarkdownExport.Html.Document
import MarkdownExport.Markdown.Default
import MarkdownExport.Metadata.Extract
import MarkdownExport.Metadata.Frontmatter
import MarkdownExport.Word.Snapshot

/-! Converting HTML and Word documents to Markdown, with metadata if it is wanted. -/
namespace MarkdownExport

structure Options where
  dialect : Dialect := .gfm
  /-- Whether metadata are derived. -/
  frontmatter : Bool := false
  /-- Entries that are put over the derived metadata. -/
  metadata : Option Record := none
  /-- Rules that replace the default rules of their tags. -/
  rules : Option Markdown.RuleTable := none

namespace Options

def dialectDisplay : Dialect → Text
  | .standard => "Standard"
  | .gfm => "Gfm"

def metadataDisplay : Option Record → Text
  | none => "None"
  | some record => "Some(\x7b" ++ Value.displayFields record ++ "\x7d)"

/-- The tags of the replaced rules as they were given, in the order of their scalars. -/
def ruleTags (o : Options) : List Text := ((o.rules.getD []).keys).mergeSort Text.le

def display (o : Options) : Text :=
  "MarkdownOptions \x7b format: " ++ dialectDisplay o.dialect ++ ", frontmatter: " ++
    Text.ofBool o.frontmatter ++ ", metadata: " ++ metadataDisplay o.metadata ++
    ", rules: [" ++ List.intercalate (", " : Text) (o.ruleTags.map Text.displayQuoted) ++ "] \x7d"

end Options

/-- What a conversion gives; the Markdown does not hold the metadata. -/
structure Converted where
  markdown : Text
  frontmatter : Option Record

def convertTree (o : Options) (document : List Node) : Converted where
  markdown := Markdown.markdown o.dialect (o.rules.getD []) (Node.body document)
  frontmatter :=
    if o.frontmatter then some (Metadata.extract document (o.metadata.getD [])) else none

def convertHtml (o : Options) (html : Text) : Converted := convertTree o (Html.parse html)

structure WordOptions where
  markdown : Options := {}
  includeReport : Bool := false
  profile : Word.Profile := .faithful

structure ConvertedWord where
  markdown : Text
  frontmatter : Option Record
  report : Option Word.Report

/-- The snapshot is converted as HTML, and its report is passed on if it is wanted. -/
def convertSnapshot (o : WordOptions) (snapshot : Word.Snapshot) : ConvertedWord :=
  let converted := convertHtml o.markdown snapshot.html
  ⟨converted.markdown, converted.frontmatter, if o.includeReport then snapshot.report else none⟩

def convertWord (o : WordOptions) (package : Word.Package) : Except Error ConvertedWord :=
  (Word.snapshot package o.profile).map (convertSnapshot o)

/-- The frontmatter block, with the report as its last entry, and the Markdown. Without
frontmatter there is no place for a report. -/
def ConvertedWord.document (c : ConvertedWord) : Text :=
  match c.frontmatter with
  | none => c.markdown
  | some record =>
    let record := match c.report with
      | some report => record.insert "parseReport" report.toValue
      | none => record
    Frontmatter.render record ++ c.markdown

end MarkdownExport
