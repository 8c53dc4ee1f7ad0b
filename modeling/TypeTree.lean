import TypeTree.Expr.Json
import TypeTree.Expr.Workbench
import TypeTree.Main
import TypeTree.Walk.Numbering
import TypeTree.Walk.Outline
import TypeTree.Proofs.Children
import TypeTree.Proofs.Conformance
import TypeTree.Proofs.Nesting
import TypeTree.Proofs.Document
import TypeTree.Proofs.Labels
import TypeTree.Proofs.Enumeration
import TypeTree.Proofs.Similarity
import TypeTree.Proofs.Lines
import TypeTree.Proofs.Counting
import TypeTree.Proofs.Scalars
import TypeTree.Proofs.Spelling
import TypeTree.Proofs.ReadBack
import TypeTree.Proofs.RoundTrip
import TypeTree.Proofs.Notes
import TypeTree.Proofs.Layout
import TypeTree.Proofs.TraceReports
import TypeTree.Proofs.CommandLine
import TypeTree.Proofs.Pipeline
import TypeTree.Proofs.Output
import TypeTree.Proofs.Logging
import TypeTree.Proofs.Depths
import TypeTree.Proofs.Widths
import TypeTree.Proofs.Rows
import TypeTree.Proofs.Configuration
import TypeTree.Proofs.Embedding
import TypeTree.Proofs.OpenNodes
import TypeTree.Proofs.Tables
import TypeTree.Proofs.UniqueLayout
import TypeTree.Proofs.Restoring
import TypeTree.Proofs.Listings
import TypeTree.Proofs.Messages
