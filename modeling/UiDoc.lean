import UiDoc.Config.Decoder
import UiDoc.Diagnostics
import UiDoc.Document.Cache
import UiDoc.Document.Decoder
import UiDoc.Document.Encoder
import UiDoc.Event.Firing
import UiDoc.Event.Normal
import UiDoc.Expr
import UiDoc.Expr.Literal
import UiDoc.Expr.Nesting
import UiDoc.Flow.Branching
import UiDoc.Flow.Repetition
import UiDoc.Guard
import UiDoc.Interpreter
import UiDoc.Json.Decoder
import UiDoc.Registry.OfManifest
import UiDoc.Registry.Resolution
import UiDoc.Render.Encoder
import UiDoc.Script.Cache
import UiDoc.Script.FunctionForm
import UiDoc.Service
import UiDoc.Template.Interpolation
import UiDoc.Text.Identifier
import UiDoc.Text.LetterCase
import UiDoc.Text.Search
import UiDoc.Validation.Document
import UiDoc.Proofs.Document.RoundTrip
import UiDoc.Proofs.Registry.History
import UiDoc.Proofs.Rendering.NodeCount
import UiDoc.Proofs.Rendering.Siblings
import UiDoc.Proofs.Entries
import UiDoc.Proofs.Rendering.Fallbacks
import UiDoc.Proofs.Rendering.Invariants
import UiDoc.Proofs.Rendering.Budget
import UiDoc.Proofs.Rendering.Slack
import UiDoc.Proofs.Document.Contents
import UiDoc.Proofs.Template.Filling
import UiDoc.Proofs.Validation.Silence
import UiDoc.Proofs.Rendering.Foreseen
import UiDoc.Proofs.Guard.Windows
import UiDoc.Proofs.Rendering.Freshness
import UiDoc.Proofs.Script.Runs
import UiDoc.Proofs.Script.Sizes
import UiDoc.Proofs.Document.Height
import UiDoc.Proofs.Registry.Composites
import UiDoc.Proofs.Rendering.Chains
import UiDoc.Proofs.Rendering.Termination
import UiDoc.Proofs.Document.Recency
import UiDoc.Proofs.Script.Confinement
import UiDoc.Proofs.Script.Agreement
import UiDoc.Proofs.Rendering.Keys
import UiDoc.Proofs.Rendering.Replacement
import UiDoc.Proofs.Expr.Printing
import UiDoc.Proofs.Expr.Parentheses
import UiDoc.Proofs.Scope.Root
import UiDoc.Proofs.Binding
import UiDoc.Proofs.Rendering.Properties
import UiDoc.Proofs.Event.Forms
import UiDoc.Proofs.Event.Twice
import UiDoc.Proofs.Rendering.Ordering
import UiDoc.Proofs.Rendering.Handlers
import UiDoc.Proofs.Rendering.Instances
import UiDoc.Proofs.Script.Chains
import UiDoc.Proofs.Script.Indexing
import UiDoc.Proofs.Path.Forms
import UiDoc.Proofs.Registry.Wrappers
import UiDoc.Proofs.Registry.Permutation
import UiDoc.Proofs.Validation.EmptyNodes
import UiDoc.Proofs.Script.Lexical
import UiDoc.Proofs.Files.Discovery
import UiDoc.Proofs.Value.Digits
import UiDoc.Proofs.Rendering.Development
import UiDoc.Proofs.Value.Equality
import UiDoc.Proofs.Value.Numerals
import UiDoc.Proofs.Script.Words
