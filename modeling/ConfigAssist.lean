import ConfigAssist.Color.Document
import ConfigAssist.Proofs.Color.Extent
import ConfigAssist.Proofs.Text.Offset
import ConfigAssist.Session.Call
import ConfigAssist.Proofs.Color.Tiling
import ConfigAssist.Proofs.Color.Coherence
import ConfigAssist.Proofs.Session.History
import ConfigAssist.Proofs.Color.Pairing
import ConfigAssist.Proofs.Color.Width
import ConfigAssist.Proofs.Color.Entry
import ConfigAssist.Proofs.Template.Token
import ConfigAssist.Proofs.Color.Hidden
import ConfigAssist.Proofs.Color.BlockScalar
import ConfigAssist.Proofs.Suggest.Ranking
import ConfigAssist.Proofs.Suggest.Typed
import ConfigAssist.Proofs.Suggest.WellFormed
import ConfigAssist.Proofs.Suggest.Locality
import ConfigAssist.Proofs.Json.RoundTrip
import ConfigAssist.Proofs.Session.StateText
import ConfigAssist.Proofs.Session.Coloring
import ConfigAssist.Proofs.Session.Completion
import ConfigAssist.Proofs.Suggest.Accept
import ConfigAssist.Proofs.Suggest.Marker
import ConfigAssist.Proofs.Suggest.MarkerSearch
import ConfigAssist.Proofs.Suggest.Scope
import ConfigAssist.Proofs.Color.Rereading
import ConfigAssist.Proofs.Suggest.Siblings
import ConfigAssist.Proofs.Color.Opacity
import ConfigAssist.Proofs.Template.Longest
import ConfigAssist.Proofs.Color.Vocabulary
import ConfigAssist.Proofs.Color.QuotedScalar
import ConfigAssist.Proofs.Color.Paint
import ConfigAssist.Proofs.Color.TrailingComment
import ConfigAssist.Proofs.Template.LineEnd
import ConfigAssist.Proofs.Color.CarriageReturn
import ConfigAssist.Proofs.Suggest.Selection
import ConfigAssist.Proofs.Suggest.Recognition
import ConfigAssist.Proofs.Suggest.Table
import ConfigAssist.Proofs.Suggest.Trigger
import ConfigAssist.Proofs.Suggest.FullName
import ConfigAssist.Proofs.Suggest.Validity
import ConfigAssist.Proofs.Session.Intake
import ConfigAssist.Proofs.Session.ColumnPair
import ConfigAssist.Proofs.Suggest.Expansion
import ConfigAssist.Proofs.Text.LowerCase
import ConfigAssist.Proofs.Suggest.LiteralMatch
import ConfigAssist.Proofs.Session.Wire
import ConfigAssist.Proofs.Suggest.Pools
import ConfigAssist.Proofs.Suggest.Builtin
import ConfigAssist.Proofs.Color.Slots
