import Conform.Main
import Conform.Schema.Same
import Conform.Session
import Conform.Stock
import Conform.Proofs.Draft7.Agreement
import Conform.Proofs.Rules.Abort
import Conform.Proofs.Rules.Truncation
import Conform.Proofs.Schema.Acceptance
import Conform.Proofs.Schema.Verdict
import Conform.Proofs.Session.Order
import Conform.Proofs.Session.Text
import Conform.Proofs.Tree.Alike
import Conform.Proofs.Rules.Alike
import Conform.Proofs.Schema.Paired
import Conform.Proofs.Schema.Strip
import Conform.Proofs.Schema.Inert
import Conform.Proofs.Schema.Breakdown
import Conform.Proofs.Rearranged
import Conform.Proofs.Rules.Shuffle
import Conform.Proofs.Schema.Reordered
import Conform.Proofs.Value.Interchange
import Conform.Proofs.Rules.Interchange
import Conform.Proofs.Schema.Interchange
import Conform.Proofs.Rules.Location
import Conform.Proofs.Validator.Conduct
import Conform.Proofs.Validator.Truncation
import Conform.Proofs.Rules.Mirror
import Conform.Proofs.Rules.Reroot
import Conform.Proofs.Path
import Conform.Proofs.Validator.Flattening
import Conform.Proofs.Validator.Reach
import Conform.Proofs.Rules.Roots
import Conform.Proofs.Schema.Representation
import Conform.Proofs.Session.Strict
import Conform.Proofs.Session.Undecodable
import Conform.Proofs.Rules.Terms
import Conform.Proofs.Rules.Mode
import Conform.Proofs.Schema.Opened
import Conform.Proofs.Session.Atomic
import Conform.Proofs.Command.Status
import Conform.Proofs.Number.Multiple
import Conform.Proofs.Rules.Divisibility
import Conform.Proofs.Number.Line
import Conform.Proofs.Rules.Bounds
import Conform.Proofs.Value.Meaning
import Conform.Proofs.Rules.Relocate
import Conform.Proofs.Rules.Conjunction
import Conform.Proofs.Schema.Nesting
import Conform.Proofs.Tag
import Conform.Proofs.Validator.Required
import Conform.Proofs.Json.Counts
import Conform.Proofs.Rules.Measures
import Conform.Proofs.Session.Between
import Conform.Proofs.Tag.Schema
import Conform.Proofs.Tag.Spelling
import Conform.Proofs.Validator.Variable
import Conform.Proofs.Format.Hostname
import Conform.Proofs.Pattern.Language
import Conform.Proofs.Rules.Uniqueness
import Conform.Proofs.Registry
import Conform.Proofs.Json.Rendering
import Conform.Proofs.Report
import Conform.Proofs.Pattern.Groups
import Conform.Proofs.Format.Digits
import Conform.Proofs.Format.Calendar
import Conform.Proofs.Format.Parts
import Conform.Proofs.Format.DateTime
import Conform.Proofs.Report.Grouping
import Conform.Proofs.Rules.Enumeration
