import CodeReference.Text.Blank
import CodeReference.Text.Lines
import CodeReference.Text.Source
import CodeReference.Text.Utf8
import CodeReference.Syntax.Node
import CodeReference.Grammar.Program
import CodeReference.Text.Lowercase
import CodeReference.Text.Quoted
import CodeReference.Text.Integer
import CodeReference.Entry
import CodeReference.Outline.Block
import CodeReference.Outline.SelectedName
import CodeReference.Markup.Range
import CodeReference.Markup.Locator
import CodeReference.Syntax.Walk
import CodeReference.Data.Toml
import CodeReference.Settings.Layers
import CodeReference.Reference
import CodeReference.CommandLine.Run
import CodeReference.Main
import CodeReference.Proofs.Outline.Extents
import CodeReference.Proofs.Outline.Enclosing
import CodeReference.Proofs.Syntax.Walk
import CodeReference.Proofs.Syntax.Enclosing
import CodeReference.Proofs.Markup.Format
import CodeReference.Proofs.Markup.Partition
import CodeReference.Proofs.Reference
import CodeReference.Proofs.Direction
import CodeReference.Proofs.Coordinates
import CodeReference.Proofs.Markup.Balanced
import CodeReference.Proofs.Output
import CodeReference.Proofs.Markup.OpenTag
import CodeReference.Proofs.Registry.History
import CodeReference.Proofs.Outline.LineEnding
import CodeReference.Proofs.LineEnding
import CodeReference.Proofs.Syntax.Rows
import CodeReference.Proofs.Registry.ExtraExtension
import CodeReference.Proofs.Markup.Shape
import CodeReference.Proofs.Markup.Pieces
import CodeReference.Proofs.Markup.Preserved
import CodeReference.Proofs.Positions
import CodeReference.Proofs.Outline.Insertion
import CodeReference.Proofs.Outline.SelectedName
import CodeReference.Proofs.Entry.Distinct
import CodeReference.Proofs.Syntax.Order
import CodeReference.Proofs.Syntax.Widening
import CodeReference.Proofs.Markup.Openings
import CodeReference.Proofs.CommandLine.Surroundings
import CodeReference.Proofs.Markup.Margin
import CodeReference.Proofs.Markup.Range
import CodeReference.Proofs.Text.Decoding
import CodeReference.Proofs.CommandLine.Lines
import CodeReference.Proofs.Text.Source
import CodeReference.Proofs.Warning
