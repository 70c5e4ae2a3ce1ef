import EditorConfig.Config
import EditorConfig.Proofs.Definition.Report
import EditorConfig.Proofs.Glob.Expansion
import EditorConfig.Proofs.Glob.Pieces
import EditorConfig.Proofs.Reader.History
import EditorConfig.Proofs.Resolver.Relocation
import EditorConfig.Proofs.Resolver.TabWidth
import EditorConfig.Proofs.Resolver.Transparency
import EditorConfig.Proofs.Selector.Basename
import EditorConfig.Proofs.Snapshot.RoundTrip
import EditorConfig.Proofs.Glob.Members
import EditorConfig.Proofs.Definition.FixedPoint
import EditorConfig.Proofs.Glob.Literal
import EditorConfig.Proofs.Text.Decimal
import EditorConfig.Proofs.Glob.Range
import EditorConfig.Proofs.Glob.Crossing
import EditorConfig.Proofs.Selector.Fallback
import EditorConfig.Proofs.Glob.Unbalanced
import EditorConfig.Proofs.Definition.Merging
import EditorConfig.Proofs.Resolver.Warnings
import EditorConfig.Proofs.Snapshot.Concatenation
import EditorConfig.Proofs.Resolver.Spelling
import EditorConfig.Proofs.Resolver.Mending
import EditorConfig.Proofs.Snapshot.Layout
import EditorConfig.Proofs.Resolver.Versions
import EditorConfig.Proofs.Version
import EditorConfig.Proofs.Matcher.Recency
import EditorConfig.Proofs.Reader.Room
import EditorConfig.Proofs.Glob.Groups
