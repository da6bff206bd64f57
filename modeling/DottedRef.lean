import DottedRef.Session
import DottedRef.Proofs.Placeholder.Scan
import DottedRef.Proofs.Session.LastRequest
import DottedRef.Proofs.Store.Tickets
import DottedRef.Proofs.Text.Parts
import DottedRef.Proofs.Json.Keys
import DottedRef.Proofs.Json.Rendering
import DottedRef.Proofs.Placeholder.AtOffset
import DottedRef.Proofs.Placeholder.Draft
import DottedRef.Proofs.Resolution.Descent
import DottedRef.Proofs.Engine.Diagnostics
import DottedRef.Proofs.Session.Reachable
import DottedRef.Proofs.Session.Completion
import DottedRef.Proofs.Session.Endings
import DottedRef.Proofs.Session.Notices
import DottedRef.Proofs.Location.Destination
import DottedRef.Proofs.Session.Events
import DottedRef.Proofs.Session.Addresses
import DottedRef.Proofs.Session.Moments
import DottedRef.Proofs.Session.Unloaded
import DottedRef.Proofs.Json.Strings
import DottedRef.Proofs.Json.Numerals
import DottedRef.Proofs.Json.RoundTrip
import DottedRef.Proofs.Resolution.Composition
import DottedRef.Proofs.Placeholder.OpenForm
import DottedRef.Proofs.Text.Lossy
import DottedRef.Proofs.LoadError.Lines
import DottedRef.Proofs.LoadError.Spans
import DottedRef.Proofs.LoadError.CutCharacters
import DottedRef.Proofs.LoadError.Offsets
import DottedRef.Proofs.Text.Ceiling
import DottedRef.Proofs.Position.Lines
import DottedRef.Proofs.Position.Inverse
import DottedRef.Proofs.Position.Encodings
import DottedRef.Proofs.Placeholder.Concatenation
import DottedRef.Proofs.Engine.Concatenation
import DottedRef.Proofs.Engine.Completion
import DottedRef.Proofs.Engine.Ranges
import DottedRef.Proofs.Engine.Sameness
import DottedRef.Proofs.Placeholder.Progress
