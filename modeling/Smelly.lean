import Smelly.Proofs.LineBufIndirection
import Smelly.Proofs.DiskCacheCoherence
import Smelly.Proofs.GraphicsChunks
import Smelly.Proofs.ParserOverflow
import Smelly.Proofs.SgrRoundTrip
import Smelly.Proofs.ChildWriteQueue
import Smelly.Proofs.PeerResponses
import Smelly.Proofs.KeyEncodingFlagStack
import Smelly.Proofs.HistoryContinuation
import Smelly.Proofs.SplitsCoverage
import Smelly.Proofs.TransferResponses
import Smelly.Proofs.UtilsRingQueue
import Smelly.Proofs.LoopTimersDispatch
import Smelly.Proofs.ReadlineHistorySharing
import Smelly.Proofs.TuiGraphicsRoundTrip
import Smelly.Proofs.TransferWire
import Smelly.Proofs.CursorReport
import Smelly.Proofs.SgrCells
import Smelly.Proofs.CsiParameters
import Smelly.Proofs.WideCells
import Smelly.Proofs.ClipboardPieces
import Smelly.Proofs.ColorStack
import Smelly.Proofs.Base64Decoding
import Smelly.Proofs.AnsiCExpansion
import Smelly.Proofs.CopiedTabs
import Smelly.Proofs.WindowListReturn
import Smelly.Proofs.GraphicsFrameDeletion
import Smelly.Proofs.SplitsEdits
import Smelly.Proofs.KeyBufferBounds
import Smelly.Proofs.WidthSegments
import Smelly.Proofs.GraphicsComposeClipping
import Smelly.Proofs.LayoutTiling
import Smelly.Proofs.SelectionScrolling
import Smelly.Proofs.CommonAffixes
import Smelly.Proofs.BracketedPaste
import Smelly.Proofs.PythonKeyRoundTrip
import Smelly.Proofs.KittenStreams
import Smelly.Proofs.ScreenLayout
import Smelly.Proofs.KillYank
import Smelly.Proofs.SgrStateRoundTrip
import Smelly.Proofs.ShellWords
import Smelly.Proofs.SentFiles
import Smelly.Proofs.ClipboardRecovery
import Smelly.Proofs.SearchExpressions
import Smelly.Proofs.FreeClientIds
import Smelly.Proofs.PagerTrimming
import Smelly.Proofs.SpriteAllocation
import Smelly.Proofs.PeerFraming
import Smelly.Proofs.ReapedChildren
import Smelly.Proofs.PagerRing
import Smelly.Proofs.HyperlinkMeaning
