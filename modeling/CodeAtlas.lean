import CodeAtlas.Corpus
import CodeAtlas.Hierarchy.Index
import CodeAtlas.Json.Reader
import CodeAtlas.Json.Writer
import CodeAtlas.Language.Comment
import CodeAtlas.Language.Packaged
import CodeAtlas.LineRanges
import CodeAtlas.Main
import CodeAtlas.Naming.Report
import CodeAtlas.Proofs.CommandLine.Scan
import CodeAtlas.Proofs.Corpus.Replacement
import CodeAtlas.Proofs.Hierarchy.Agreement
import CodeAtlas.Proofs.Hierarchy.Arrangement
import CodeAtlas.Proofs.Hierarchy.Canonical
import CodeAtlas.Proofs.Hierarchy.Descendant
import CodeAtlas.Proofs.Hierarchy.Walk
import CodeAtlas.Proofs.Language.Tagged
import CodeAtlas.Proofs.Language.Trailing
import CodeAtlas.Proofs.LineRanges.Tokens
import CodeAtlas.Proofs.Naming.BestMatch
import CodeAtlas.Proofs.Naming.Edits
import CodeAtlas.Proofs.Naming.Renamed
import CodeAtlas.Proofs.Review.Agreement
import CodeAtlas.Proofs.Review.Conventions
import CodeAtlas.Proofs.Review.Orphans
import CodeAtlas.Proofs.Review.Rearranged
import CodeAtlas.Proofs.Scan.Appended
import CodeAtlas.Proofs.Scan.Block
import CodeAtlas.Proofs.Scan.Separated
import CodeAtlas.Proofs.Settings.Usable
import CodeAtlas.Proofs.Store.Accepted
import CodeAtlas.Proofs.Store.Agreement
import CodeAtlas.Proofs.Store.Relocation
import CodeAtlas.Proofs.Store.Resave
import CodeAtlas.Proofs.Workspace.Limits
import CodeAtlas.Proofs.Workspace.Origin
import CodeAtlas.Review.Report
import CodeAtlas.Scan.Scanner
import CodeAtlas.Settings.File
import CodeAtlas.Store.Refresh
import CodeAtlas.Toml.Document
import CodeAtlas.Toml.Writer
import CodeAtlas.Workspace.Scan
