import Casquinha.Wire.CodecReference
import Casquinha.Wire.ListsRoundTrip
import Casquinha.Wire.Truncation
import Casquinha.Wire.EmbeddedNul
import Casquinha.Wire.Additive
import Casquinha.Decode.Equivalence
import Casquinha.Decode.TailGate
import Casquinha.Decode.DecTask
import Casquinha.Decode.Sync
import Casquinha.Decode.Resync
import Casquinha.Decode.Leftover
import Casquinha.App.Adoption
import Casquinha.App.CutOff
import Casquinha.App.CoverCache
import Casquinha.App.Fallback
import Casquinha.App.Clicked
import Casquinha.App.QueueLedger
import Casquinha.App.Budget
import Casquinha.App.Cadence
import Casquinha.App.Covers
import Casquinha.App.Watchdog
import Casquinha.App.ServerChange
import Casquinha.Audio.OutStage
import Casquinha.Audio.DeadStream
import Casquinha.Transport.Lifecycle
import Casquinha.Transport.Deadlines
import Casquinha.Audio.ServiceRuns
import Casquinha.Audio.LastDrain
import Casquinha.Audio.TuneIn
import Casquinha.Decode.SyncExact
import Casquinha.Decode.PumpEnds
import Casquinha.Decode.Walk
import Casquinha.Decode.IdleTell
import Casquinha.App.ViewLaws
import Casquinha.App.Interpolation
import Casquinha.App.QueueOrder
import Casquinha.App.SameAction
import Casquinha.App.Progress
import Casquinha.App.Selector
import Casquinha.Transport.Streams
import Casquinha.Transport.DottedQuad
import Casquinha.Transport.Backpressure
import Casquinha.Audio.LastChunk
import Casquinha.App.Coalesce
import Casquinha.App.Escape
import Casquinha.App.Phantom
import Casquinha.App.PlayFromIds
import Casquinha.App.Prefs
import Casquinha.App.SingleUri
import Casquinha.App.SkipAck
import Casquinha.Decode.MainData
import Casquinha.Decode.Minimp3Ring
import Casquinha.Decode.QuitTask
import Casquinha.Decode.FrameScaleFactors
import Casquinha.Transport.Blocking
