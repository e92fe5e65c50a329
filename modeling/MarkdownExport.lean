import MarkdownExport.Main
import MarkdownExport.Markdown.Template
import MarkdownExport.Proofs.Text.Basic
import MarkdownExport.Proofs.Word.Encoding
import MarkdownExport.Proofs.Word.Grammar
import MarkdownExport.Proofs.Word.Invariant
import MarkdownExport.Proofs.Word.WellFormed
import MarkdownExport.Proofs.Xml.Content
import MarkdownExport.Proofs.Xml.Scanning
import MarkdownExport.Proofs.Word.Document
import MarkdownExport.Proofs.Word.Grouping
import MarkdownExport.Proofs.Word.Reading.Blocks
import MarkdownExport.Proofs.Word.LinkSafety
import MarkdownExport.Proofs.Markdown.Copied
import MarkdownExport.Proofs.Conversion.StrictLinks
import MarkdownExport.Proofs.Word.Immaterial
import MarkdownExport.Proofs.Word.Sanitized
import MarkdownExport.Proofs.Word.Siblings
import MarkdownExport.Proofs.Word.ParagraphText
import MarkdownExport.Proofs.Markdown.Rules
import MarkdownExport.Proofs.Markdown.VisibleText
import MarkdownExport.Proofs.Tree.Variant
import MarkdownExport.Proofs.Conversion.Equivalence
import MarkdownExport.Proofs.Markdown.Dialects
import MarkdownExport.Proofs.Conversion.PlainDocument
import MarkdownExport.Proofs.Markdown.NormalForm
import MarkdownExport.Proofs.Markdown.TableReading
import MarkdownExport.Proofs.Conversion.FrontmatterBlock
import MarkdownExport.Proofs.Conversion.Footnotes
import MarkdownExport.Proofs.Markdown.Overrides
import MarkdownExport.Proofs.Word.Faults
import MarkdownExport.Proofs.CommandLine.Outcome
import MarkdownExport.Proofs.Markdown.Skipping
import MarkdownExport.Proofs.Markdown.FencedCode
import MarkdownExport.Proofs.Markdown.TableLayout
import MarkdownExport.Proofs.Markdown.NestedQuotes
import MarkdownExport.Proofs.Markdown.StartNumber
import MarkdownExport.Proofs.Markdown.BlockSpacing
import MarkdownExport.Proofs.Markdown.ListItems
import MarkdownExport.Proofs.Text.Words
import MarkdownExport.Proofs.Tree.Adjacency
import MarkdownExport.Proofs.Metadata.Extraction
import MarkdownExport.Proofs.Markdown.LineConstructs
import MarkdownExport.Proofs.Word.Reading.Runs
import MarkdownExport.Proofs.Word.References
import MarkdownExport.Proofs.Word.BlankParagraphs
import MarkdownExport.Proofs.Metadata.FrontmatterReading
import MarkdownExport.Proofs.Word.Numbering.Notes
import MarkdownExport.Proofs.Word.Numbering.Resolution
import MarkdownExport.Proofs.Word.Numbering.Spelling
import MarkdownExport.Proofs.Word.FeatureCounts
import MarkdownExport.Proofs.Word.CrossReferences
import MarkdownExport.Proofs.Word.Stacks
import MarkdownExport.Proofs.Word.Stretches
