import PyBulletin.Foundation.GoBackN
import PyBulletin.Foundation.Chunks
import PyBulletin.Foundation.Utf8
import PyBulletin.Foundation.Frames
import PyBulletin.Ax25.Connection
import PyBulletin.Ax25.Window
import PyBulletin.Ax25.Transmit
import PyBulletin.Ax25.Teardown
import PyBulletin.Ax25.Stall
import PyBulletin.Ax25.Conservation
import PyBulletin.Ax25.Suffix
import PyBulletin.Ax25.Replies
import PyBulletin.Ax25.Link
import PyBulletin.Ax25.Router
import PyBulletin.Ax25.Exchange
import PyBulletin.Ax25.Storm
import PyBulletin.Ax25.Network
import PyBulletin.Transport.Kiss
import PyBulletin.Transport.KissRoundTrip
import PyBulletin.Transport.Pactor
import PyBulletin.Transport.Conference
import PyBulletin.Transport.Membership
import PyBulletin.Ax25.FrameRoundTrip
import PyBulletin.Ax25.Hdlc
import PyBulletin.Ax25.HdlcRoundTrip
import PyBulletin.Ax25.HdlcStream
import PyBulletin.Foundation.Fueled
import PyBulletin.Foundation.Pattern
import PyBulletin.Vendor.Lzhuf
import PyBulletin.Vendor.LzhufBits
import PyBulletin.Vendor.LzhufTree
import PyBulletin.Vendor.LzhufWindow
import PyBulletin.Vendor.LzhufCompress
import PyBulletin.Vendor.LzhufDecompress
import PyBulletin.Store.Models
import PyBulletin.Store.Mail
import PyBulletin.Store.Query
import PyBulletin.Forward.Sid
import PyBulletin.Forward.Protocol
import PyBulletin.Foundation.Lines
import PyBulletin.Forward.Envelope
import PyBulletin.Forward.RoundTrip
import PyBulletin.Forward.Hops
import PyBulletin.Forward.Forgery
import PyBulletin.Forward.Proposal
import PyBulletin.Forward.Session
import PyBulletin.Forward.Hearing
import PyBulletin.Forward.Effect
import PyBulletin.Forward.Pass
import PyBulletin.Forward.Origin
import PyBulletin.Forward.Joint
import PyBulletin.Forward.Deadlock
import PyBulletin.Forward.Agreement
import PyBulletin.Forward.WirePath
import PyBulletin.Auth
import PyBulletin.Store.Users
import PyBulletin.Store.Ledger
import PyBulletin.Command.Profile
import PyBulletin.Web.Users
import PyBulletin.Web.Sessions
import PyBulletin.Web.Protocol
import PyBulletin.Web.App
import PyBulletin.Web.Access
import PyBulletin.Web.Authority
import PyBulletin.Web.Server
import PyBulletin.Web.Framing
import PyBulletin.Web.WebSocket
import PyBulletin.Web.Conversation
import PyBulletin.Session.Accounts
import PyBulletin.Session.Traffic
import PyBulletin.Session.Retention
import PyBulletin.Session.Lasting
import PyBulletin.Session.Reading
import PyBulletin.Session.Login
import PyBulletin.Foundation.Stateful
import PyBulletin.Foundation.Fair
import PyBulletin.Store.Bid
import PyBulletin.Store.Writers
import PyBulletin.Session.Console
import PyBulletin.Command.Display
import PyBulletin.Command.Listing
import PyBulletin.Command.Mailing
import PyBulletin.Command.Station
import PyBulletin.Command.Sysop
import PyBulletin.Command.Engine
import PyBulletin.Session.Lifecycle
import PyBulletin.Session.Parity
import PyBulletin.Command.Outlook
import PyBulletin.Command.Conduct
import PyBulletin.Command.Ownership
import PyBulletin.Command.Secrecy
import PyBulletin.Foundation.Toml
import PyBulletin.Foundation.TomlText
import PyBulletin.Foundation.TomlTables
import PyBulletin.Foundation.TomlDocument
import PyBulletin.Config.Loader
import PyBulletin.Config.Writer
import PyBulletin.Config.Saving
import PyBulletin.Config.Reload
import PyBulletin.Config.Restart
import PyBulletin.Config.Settings
import PyBulletin.Ax25.Delimiting
import PyBulletin.Ax25.Addressing
import PyBulletin.Ax25.Retries
import PyBulletin.Ax25.KeepAlive
import PyBulletin.Store.BidSearch
import PyBulletin.Forward.Cron
import PyBulletin.Forward.SidRoundTrip
import PyBulletin.Forward.ProposalLine
import PyBulletin.Forward.BodySize
import PyBulletin.Forward.SizeLimit
import PyBulletin.Foundation.Crc
import PyBulletin.Ax25.BurstErrors
import PyBulletin.Foundation.Windows
import PyBulletin.Transport.SymbolTiming
import PyBulletin.Transport.Keying
import PyBulletin.Transport.Yapp
import PyBulletin.Command.Listed
import PyBulletin.Command.SinceDate
import PyBulletin.Command.Searching
import PyBulletin.Command.LoginTime
import PyBulletin.Command.SinceLogin
import PyBulletin.Command.FileArea
import PyBulletin.Foundation.Readers
import PyBulletin.Foundation.LineEnds
import PyBulletin.Ax25.Stream
import PyBulletin.Transport.Telnet
import PyBulletin.Foundation.Outcomes
import PyBulletin.Session.Ending
import PyBulletin.Ax25.Stuffing
import PyBulletin.Web.Closing
import PyBulletin.Transport.Switching
import PyBulletin.Command.Composing
import PyBulletin.Command.Terminator
import PyBulletin.Command.BodyLimit
import PyBulletin.Foundation.Faultless
import PyBulletin.Ax25.Arrival
import PyBulletin.Ax25.Progress
import PyBulletin.Ax25.WireFrames
import PyBulletin.Transport.KissReads
import PyBulletin.Transport.KissLink
import PyBulletin.Foundation.Mailbox
import PyBulletin.Transport.Chat
import PyBulletin.Transport.WebChat
import PyBulletin.Transport.Heard
import PyBulletin.Transport.Seats
import PyBulletin.Transport.KissLines
import PyBulletin.Session.Integrity
import PyBulletin.Session.Bystanders
import PyBulletin.Session.Authorship
import PyBulletin.Transport.YappTransfer
import PyBulletin.Ax25.Call
import PyBulletin.Ax25.Ports
