import Linkage.Archive.Checksum
import Linkage.Archive.Fault
import Linkage.Archive.Inflate
import Linkage.Archive.Row
import Linkage.Archive.Writer
import Linkage.Archive.Zip
import Linkage.Call.Arguments
import Linkage.Call.Bridge
import Linkage.Call.Conversion
import Linkage.Call.Failure
import Linkage.Call.Forwarding
import Linkage.Call.Overload
import Linkage.Call.Resolution
import Linkage.Call.Target
import Linkage.ClassFile.Pool
import Linkage.ClassFile.Reader
import Linkage.ClassFile.Stub
import Linkage.ClassFile.Writer
import Linkage.Classpath.Entry
import Linkage.Classpath.Fingerprint
import Linkage.Classpath.Index
import Linkage.Classpath.Record
import Linkage.Classpath.Release
import Linkage.Classpath.Scan
import Linkage.Classpath.Store
import Linkage.Codec
import Linkage.Diagnostic.Basic
import Linkage.Diagnostic.Catalog
import Linkage.FileTree.Action
import Linkage.FileTree.Basic
import Linkage.FileTree.Path
import Linkage.Json.Basic
import Linkage.Json.Reader
import Linkage.Library.Bundle
import Linkage.Library.Coordinate
import Linkage.Library.Project
import Linkage.Mediation.Graph
import Linkage.Mediation.Outcome
import Linkage.Mediation.Scope
import Linkage.Number.Binary
import Linkage.Number.Decimal
import Linkage.Number.Natural
import Linkage.Policy.Effective
import Linkage.Policy.Gate
import Linkage.Policy.Journal
import Linkage.Policy.Pattern
import Linkage.Policy.Ruling
import Linkage.Policy.Setting
import Linkage.Policy.Source
import Linkage.Proofs.Call.Choice
import Linkage.Proofs.Call.Passing
import Linkage.Run.Artifact
import Linkage.Run.Config
import Linkage.Run.Manifest
import Linkage.Run.Output
import Linkage.Run.Session
import Linkage.Run.Summary
import Linkage.Text.Basic
import Linkage.Text.Blank
import Linkage.Text.Case
import Linkage.Text.Hex
import Linkage.Text.Letter
import Linkage.Text.Properties
import Linkage.Text.Utf8
import Linkage.Toml.Basic
import Linkage.Toml.Document
import Linkage.Toml.Reader
import Linkage.Type.Basic
import Linkage.Type.Descriptor
import Linkage.Type.Primitive
import Linkage.Value.Basic
import Linkage.Value.Host
import Linkage.View.Ancestry
import Linkage.View.Assemble
import Linkage.View.Basic
import Linkage.View.Mode
import Linkage.View.Namespace
import Linkage.Xml.Node
import Linkage.Xml.Reader
import Linkage.Proofs.Call.Selection
import Linkage.Proofs.Call.Resolved
import Linkage.Proofs.Call.Reaching
import Linkage.Proofs.Call.Agreement
import Linkage.Proofs.Call.Typing
import Linkage.Proofs.Mediation.Nearest
import Linkage.Proofs.Text.Utf8
import Linkage.Proofs.Text.Runs
import Linkage.Proofs.Text.Distinct
import Linkage.Proofs.Type.Descriptor
import Linkage.Proofs.ClassFile.Pool
import Linkage.Proofs.ClassFile.RoundTrip
import Linkage.Proofs.Mediation.Exclusions
import Linkage.Proofs.Mediation.Explained
import Linkage.Proofs.Mediation.Consistency
import Linkage.Proofs.Json.RoundTrip
import Linkage.Proofs.Policy.Audit
import Linkage.Proofs.Policy.Merge
import Linkage.Proofs.Policy.Exchange
import Linkage.Proofs.Run.Governance
import Linkage.Proofs.Classpath.Entries
import Linkage.Proofs.View.Assembly
import Linkage.Proofs.View.Status
import Linkage.Proofs.View.Completeness
import Linkage.Proofs.Call.Memory
import Linkage.Proofs.FileTree.Paths
import Linkage.Proofs.FileTree.Changes
import Linkage.Proofs.Run.Delivery
import Linkage.Proofs.Call.Places
import Linkage.Proofs.Run.Finish
import Linkage.Proofs.Text.Trimming
import Linkage.Proofs.Call.TargetText
import Linkage.Proofs.Classpath.Variants
import Linkage.Proofs.Run.Recorded
import Linkage.Proofs.Run.Reread
import Linkage.Proofs.Mediation.Usages
import Linkage.Proofs.Classpath.Freshness
import Linkage.Proofs.View.Ancestry
import Linkage.Proofs.Call.Stages
import Linkage.Proofs.Call.Nearness
import Linkage.Proofs.Arrangement
import Linkage.Proofs.View.Outline
import Linkage.Proofs.Call.Outline
import Linkage.Proofs.Call.MemberOrder
import Linkage.Proofs.View.Hierarchy
import Linkage.Proofs.Call.Erased
import Linkage.Proofs.Call.Exact
import Linkage.Proofs.ClassFile.Extent
import Linkage.Proofs.ClassFile.Declared
import Linkage.Proofs.ClassFile.Numbering
import Linkage.Proofs.ClassFile.Layout
import Linkage.Proofs.ClassFile.Naming
import Linkage.Proofs.Policy.Monotone
import Linkage.Proofs.Text.Ascending
import Linkage.Proofs.Call.Numbered
import Linkage.Proofs.Call.Generated
import Linkage.Proofs.Call.Answered
import Linkage.Proofs.Call.Forwarding
import Linkage.Proofs.Policy.Owner
import Linkage.Proofs.Run.Written
import Linkage.Proofs.ClassFile.Module
import Linkage.Proofs.Library.Entities
import Linkage.Proofs.Text.Parts
import Linkage.Proofs.Classpath.Expansion
import Linkage.Proofs.Policy.Rendering
import Linkage.Proofs.Call.Dominance
import Linkage.Proofs.Type.Runs
import Linkage.Proofs.Type.Cursor
