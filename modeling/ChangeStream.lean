import ChangeStream.Sample
import ChangeStream.Codec.Record
import ChangeStream.Codec.Settings
import ChangeStream.Waiting
import ChangeStream.Subscriber
import ChangeStream.Reporter
import ChangeStream.Sink.Recording
import ChangeStream.Sink.Channel
import ChangeStream.Reading
import ChangeStream.Engine.Played
import ChangeStream.Engine.Scripted
import ChangeStream.Task
import ChangeStream.Fetcher.Calls
import ChangeStream.Proofs.EndWatermark
import ChangeStream.Proofs.FailStop
import ChangeStream.Proofs.Course
import ChangeStream.Proofs.Settlement
import ChangeStream.Proofs.Agreement
import ChangeStream.Proofs.FlagState
import ChangeStream.Proofs.Lifecycle
import ChangeStream.Proofs.SingleUse
import ChangeStream.Proofs.Fetcher.Books
import ChangeStream.Proofs.Fetcher.Conservation
import ChangeStream.Proofs.Fetcher.Failures
import ChangeStream.Proofs.Fetcher.Rest
import ChangeStream.Proofs.Fetcher.Closing
import ChangeStream.Proofs.Company
import ChangeStream.Proofs.Truncation
import ChangeStream.Proofs.ScriptedRead
import ChangeStream.Proofs.Codec.RoundTrip
import ChangeStream.Proofs.Position.Numerals
import ChangeStream.Proofs.Position.Unset
import ChangeStream.Proofs.Position.FixedWidth
import ChangeStream.Proofs.Position.Canonical
import ChangeStream.Proofs.Latch
import ChangeStream.Proofs.Codec.TextAndValue
import ChangeStream.Proofs.Unbounded
import ChangeStream.Proofs.LateCloses
import ChangeStream.Proofs.Fetcher.Clock
import ChangeStream.Proofs.Fetcher.Submission
import ChangeStream.Proofs.Codec.Overrides
import ChangeStream.Proofs.FirstError
import ChangeStream.Proofs.GeneratedRead
import ChangeStream.Proofs.Recording
