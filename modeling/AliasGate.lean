import AliasGate.Server.Application
import AliasGate.Settings.Reader
import AliasGate.Proofs.Dispatch.Writes
import AliasGate.Proofs.Token.Binding
import AliasGate.Proofs.Token.SignThenVerify
import AliasGate.Proofs.Storage.Execution
import AliasGate.Proofs.Storage.Turns
import AliasGate.Proofs.Storage.Coherence
import AliasGate.Proofs.Storage.Refinement
import AliasGate.Proofs.Storage.Interleaving
import AliasGate.Proofs.Json.Writing
import AliasGate.Proofs.Storage.Finality
import AliasGate.Proofs.Number.Rounding
import AliasGate.Proofs.Number.Shortest
import AliasGate.Proofs.Json.Numbers
import AliasGate.Proofs.Json.Parts
import AliasGate.Proofs.Json.Strings
import AliasGate.Proofs.Json.Reading
import AliasGate.Proofs.Json.RoundTrip
import AliasGate.Proofs.ShortUrl.QueryText
import AliasGate.Proofs.ShortUrl.Records
import AliasGate.Proofs.Storage.Agreement
import AliasGate.Proofs.Json.Agreement
import AliasGate.Proofs.Route
import AliasGate.Proofs.ShortUrl.Store
import AliasGate.Proofs.Dispatch.Course
import AliasGate.Proofs.Dispatch.Effects
import AliasGate.Proofs.Dispatch.Failures
import AliasGate.Proofs.Dispatch.Changes
import AliasGate.Proofs.Dispatch.Isolation
import AliasGate.Proofs.Dispatch.Answers
import AliasGate.Proofs.Dispatch.Runs
import AliasGate.Proofs.Dispatch.Meaning
import AliasGate.Proofs.Token.Schemes
import AliasGate.Proofs.Event.History
import AliasGate.Proofs.Dispatch.Replies
import AliasGate.Proofs.Server.Serving
import AliasGate.Proofs.Dispatch.Heads
import AliasGate.Proofs.Server.Forwarding
import AliasGate.Proofs.Token.EncodedRequest
import AliasGate.Proofs.Dispatch.Stages
import AliasGate.Proofs.Route.Patterns
import AliasGate.Proofs.ShortUrl.Drawing
import AliasGate.Proofs.Storage.Deletion
import AliasGate.Proofs.Dispatch.Public
import AliasGate.Proofs.Transformation.Exemption
import AliasGate.Proofs.Transformation.RoundTrip
import AliasGate.Proofs.Dispatch.QueryNotation
import AliasGate.Proofs.Dispatch.Accounting
import AliasGate.Proofs.Token.Configured
import AliasGate.Proofs.Token.Stripped
