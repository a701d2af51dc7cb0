import ChannelServer.Main
import ChannelServer.Proofs.Effect.Channels
import ChannelServer.Proofs.Effect.Players
import ChannelServer.Proofs.Change
import ChannelServer.Proofs.Forest
import ChannelServer.Proofs.Default
import ChannelServer.Proofs.Crowd
import ChannelServer.Proofs.Import.Draft
import ChannelServer.Proofs.Import.Depth
import ChannelServer.Proofs.Import.Attach
import ChannelServer.Proofs.Import.Survivors
import ChannelServer.Proofs.Import.Outcome
import ChannelServer.Proofs.RoundTrip
import ChannelServer.Proofs.Copy
import ChannelServer.Proofs.Ledger.Basic
import ChannelServer.Proofs.Ledger.Recorded
import ChannelServer.Proofs.Ledger.Refinement
import ChannelServer.Proofs.Presence
import ChannelServer.Proofs.Ledger.Handed
import ChannelServer.Proofs.Grammar
import ChannelServer.Proofs.Pieces
import ChannelServer.Proofs.Server.Restart
import ChannelServer.Proofs.Import.Account
import ChannelServer.Proofs.Import.Discard
import ChannelServer.Proofs.Import.Displaced
import ChannelServer.Proofs.Whereabouts
import ChannelServer.Proofs.Config.Check
import ChannelServer.Proofs.Config.Build
import ChannelServer.Proofs.Config.Agreement
import ChannelServer.Proofs.Import.Stream
import ChannelServer.Proofs.Membership
import ChannelServer.Proofs.Attachment
import ChannelServer.Proofs.Destruction
import ChannelServer.Proofs.Protection
import ChannelServer.Proofs.Numbering
import ChannelServer.Proofs.Direct
import ChannelServer.Proofs.Lines
import ChannelServer.Proofs.LengthField
