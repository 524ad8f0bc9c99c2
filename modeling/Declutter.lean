import Declutter.Main
import Declutter.Proofs.Disk.Entries
import Declutter.Proofs.Disk.Leads
import Declutter.Proofs.Path.Components
import Declutter.Proofs.Disk.Action
import Declutter.Proofs.Disk.Growth
import Declutter.Proofs.Disk.Removal
import Declutter.Proofs.Output.Recreate
import Declutter.Proofs.Output.Writing
import Declutter.Proofs.Run.Frame
import Declutter.Proofs.Output.Overlap
import Declutter.Proofs.Comment.Lines
import Declutter.Proofs.Method.Lines
import Declutter.Proofs.Marker.Insert
import Declutter.Proofs.Scrub.Lines
import Declutter.Proofs.Text.Occurrence
import Declutter.Proofs.Comment.FixedPoint
import Declutter.Proofs.Ordered.Members
import Declutter.Proofs.Symbol.Capture
import Declutter.Proofs.Symbol.Unused
import Declutter.Proofs.Method.Balance
import Declutter.Proofs.Method.Shape
import Declutter.Proofs.Method.Grammar
import Declutter.Proofs.Output.Mirror
import Declutter.Proofs.Run.Mirror
import Declutter.Proofs.Disk.Equality
import Declutter.Proofs.Output.Again
import Declutter.Proofs.Run.Refusal
import Declutter.Proofs.Run.Repeat
import Declutter.Proofs.Disk.AddFile
import Declutter.Proofs.Output.Below
import Declutter.Proofs.Run.Order
import Declutter.Proofs.Comment.LineComment
import Declutter.Proofs.Symbol.Mention
import Declutter.Proofs.Text.LineEnds
import Declutter.Proofs.Comment.LineEnds
import Declutter.Proofs.Method.Openings
import Declutter.Proofs.Method.Nesting
import Declutter.Proofs.Method.Padding
import Declutter.Proofs.Scrub.Again
import Declutter.Proofs.Symbol.Order
import Declutter.Proofs.Marker.BottomUp
import Declutter.Proofs.Method.Bodies
import Declutter.Proofs.Text.ByteOrder
import Declutter.Proofs.Source.Discovery
import Declutter.Proofs.Symbol.Tokens
import Declutter.Proofs.Symbol.Usage
import Declutter.Proofs.Symbol.Addition
import Declutter.Proofs.Comment.Spans
import Declutter.Proofs.Scrub.BlockContents
import Declutter.Proofs.Symbol.Listing
import Declutter.Proofs.Comment.DocLines
import Declutter.Proofs.Method.Matching
import Declutter.Proofs.Json.Reader
import Declutter.Proofs.Method.CallName
import Declutter.Proofs.Json.RoundTrip
import Declutter.Proofs.Report.Json
import Declutter.Proofs.Report.Plain
import Declutter.Proofs.Method.SpanLines
import Declutter.Proofs.Report.Keys
