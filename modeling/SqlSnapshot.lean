import SqlSnapshot.Text.Blank
import SqlSnapshot.Text.Fold
import SqlSnapshot.Text.Letter
import SqlSnapshot.Text.Numeral
import SqlSnapshot.Text.WordChar
import SqlSnapshot.Json.Decode
import SqlSnapshot.Json.Printer
import SqlSnapshot.Json.Reader
import SqlSnapshot.Timestamp
import SqlSnapshot.Content.Basic
import SqlSnapshot.Dependency
import SqlSnapshot.Issue
import SqlSnapshot.Token.Lexer
import SqlSnapshot.Definition.Header
import SqlSnapshot.Definition.Source
import SqlSnapshot.Definition.Analysis
import SqlSnapshot.Digest.Sha256
import SqlSnapshot.Text.Utf8
import SqlSnapshot.Enrichment
import SqlSnapshot.Snapshot
import SqlSnapshot.Path
import SqlSnapshot.Disk
import SqlSnapshot.Options
import SqlSnapshot.Catalog
import SqlSnapshot.Text.Split
import SqlSnapshot.Filter.Glob
import SqlSnapshot.Filter.Size
import SqlSnapshot.Filter.Basic
import SqlSnapshot.Collection.Basic
import SqlSnapshot.Collection.Graph
import SqlSnapshot.Cache.Entry
import SqlSnapshot.Cache.Basic
import SqlSnapshot.Build.Effects
import SqlSnapshot.Build.Collect
import SqlSnapshot.Build.Write
import SqlSnapshot.Report
import SqlSnapshot.Build.Run
import SqlSnapshot.ServerTime
import SqlSnapshot.Arguments
import SqlSnapshot.CommandLine
import SqlSnapshot.Main
import SqlSnapshot.Proofs.SortedDistinct
import SqlSnapshot.Proofs.NameOrder
import SqlSnapshot.Proofs.Dependency
import SqlSnapshot.Proofs.Json.RoundTrip
import SqlSnapshot.Proofs.Timestamp.Calendar
import SqlSnapshot.Proofs.Timestamp.RoundTrip
import SqlSnapshot.Proofs.Build.Collect
import SqlSnapshot.Proofs.Build.Complete
import SqlSnapshot.Proofs.Build.Recorded
import SqlSnapshot.Proofs.Build.Incremental
import SqlSnapshot.Proofs.Build.LateCancellation
import SqlSnapshot.Proofs.Build.Reanalysis
import SqlSnapshot.Proofs.Build.Rebuild
import SqlSnapshot.Proofs.Enrichment.Repeated
import SqlSnapshot.Proofs.Enrichment.Untyped
import SqlSnapshot.Proofs.Definition.NestedSelect
import SqlSnapshot.Proofs.Definition.Statements
import SqlSnapshot.Proofs.Definition.WellFormed
import SqlSnapshot.Proofs.Definition.TableBindings
import SqlSnapshot.Proofs.Build.Interrupted
import SqlSnapshot.Proofs.Build.Written
import SqlSnapshot.Proofs.Build.History
import SqlSnapshot.Proofs.Build.Flush
import SqlSnapshot.Proofs.Content.Snapshots
import SqlSnapshot.Proofs.Build.RowOrder
import SqlSnapshot.Proofs.Build.Independence
import SqlSnapshot.Proofs.Text.LatinCase
import SqlSnapshot.Proofs.Token.Endings
import SqlSnapshot.Proofs.Token.Lookahead
import SqlSnapshot.Proofs.Token.Numbers
import SqlSnapshot.Proofs.Token.Comments
import SqlSnapshot.Proofs.Token.Spelling
import SqlSnapshot.Proofs.Definition.Spelling.Source
import SqlSnapshot.Proofs.Definition.Spelling.Select
import SqlSnapshot.Proofs.Definition.Spelling.Body
import SqlSnapshot.Proofs.Definition.Spelling.Definition
import SqlSnapshot.Proofs.Definition.Comments
import SqlSnapshot.Proofs.Build.Identities
import SqlSnapshot.Proofs.Build.LateFailure
import SqlSnapshot.Proofs.Build.Accounting
import SqlSnapshot.Proofs.Definition.JoinTree
import SqlSnapshot.Proofs.Build.FailedFlush
import SqlSnapshot.Proofs.Definition.JoinConditions
import SqlSnapshot.Proofs.Definition.AssignmentSelects
import SqlSnapshot.Proofs.Definition.Inserts
import SqlSnapshot.Proofs.Enrichment.Changes
import SqlSnapshot.Proofs.Definition.ForJson
import SqlSnapshot.Proofs.Definition.Headers
import SqlSnapshot.Proofs.Text.LowerImages
import SqlSnapshot.Proofs.Filter.Names
import SqlSnapshot.Proofs.Filter.Spelling
import SqlSnapshot.Proofs.Filter.Requests
import SqlSnapshot.Proofs.Filter.Globs
import SqlSnapshot.Proofs.Filter.GlobRegex
import SqlSnapshot.Proofs.Filter.Wildcards
import SqlSnapshot.Proofs.Filter.QuotedNames
import SqlSnapshot.Proofs.Build.Requests
import SqlSnapshot.Proofs.Enrichment.Attempts
import SqlSnapshot.Proofs.Enrichment.Lengths
import SqlSnapshot.Proofs.Disk.Fingerprints
import SqlSnapshot.Proofs.Json.Printed
import SqlSnapshot.Proofs.Disk.Trees
import SqlSnapshot.Proofs.Build.Differences
import SqlSnapshot.Proofs.Build.QuotedRequests
import SqlSnapshot.Proofs.Text.NameChars
import SqlSnapshot.Proofs.Token.NameParts
import SqlSnapshot.Proofs.Definition.ExecStatements
import SqlSnapshot.Proofs.Definition.ExecTargets
import SqlSnapshot.Proofs.Definition.ExecAgreement
import SqlSnapshot.Proofs.Indexed.Header
import SqlSnapshot.Proofs.Indexed.Source
import SqlSnapshot.Proofs.Indexed.Clauses
import SqlSnapshot.Proofs.Indexed.Select
import SqlSnapshot.Proofs.Indexed.Statements
import SqlSnapshot.Proofs.Indexed.Body
import SqlSnapshot.Proofs.Indexed.Nesting
