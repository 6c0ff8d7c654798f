import LinuxChat.Lib.Program
import LinuxChat.Lib.RelyGuarantee
import LinuxChat.Lib.Environment
import LinuxChat.Lib.Framing
import LinuxChat.Source.Values
import LinuxChat.Source.Protocol
import LinuxChat.Source.Database
import LinuxChat.Source.Server
import LinuxChat.Source.MessageRouter
import LinuxChat.Source.EpollServer
import LinuxChat.Guarantees.Effects
import LinuxChat.Guarantees.FrameDecoder
import LinuxChat.Guarantees.ParserFailures
import LinuxChat.Guarantees.Dispatch
import LinuxChat.Guarantees.Handlers.Announcements
import LinuxChat.Guarantees.Handlers.Requests
import LinuxChat.Guarantees.Handlers
import LinuxChat.Guarantees.Handlers.Composed
import LinuxChat.Guarantees.Passwords
import LinuxChat.Guarantees.BruteForce
import LinuxChat.Guarantees.Accounts.Answers
import LinuxChat.Guarantees.Accounts
import LinuxChat.Guarantees.AccountIdentity
import LinuxChat.Guarantees.HistoryPrivacy.Law
import LinuxChat.Guarantees.HistoryPrivacy.Actions
import LinuxChat.Guarantees.HistoryPrivacy.Requests
import LinuxChat.Guarantees.HistoryPrivacy
import LinuxChat.Guarantees.Core
import LinuxChat.Guarantees.Playback
import LinuxChat.Guarantees.Outline
import LinuxChat.Guarantees.Reservations
import LinuxChat.Guarantees.LoginUniqueness
import LinuxChat.Guarantees.SenderAuthenticity
import LinuxChat.Guarantees.Roster
import LinuxChat.Guarantees.OnlineList.Stages
import LinuxChat.Guarantees.OnlineList.Threads
import LinuxChat.Guarantees.OnlineList
import LinuxChat.Guarantees.MessageFlow.Books
import LinuxChat.Guarantees.MessageFlow.Balance
import LinuxChat.Guarantees.MessageFlow
import LinuxChat.Guarantees.Recipients.Record
import LinuxChat.Guarantees.Recipients.Programs
import LinuxChat.Guarantees.Recipients.Invariant
import LinuxChat.Guarantees.Recipients
import LinuxChat.Guarantees.Credentials
import LinuxChat.Guarantees.ClientDecoder
import LinuxChat.Guarantees.SerialRuns.Turns
import LinuxChat.Guarantees.SerialRuns.Book
import LinuxChat.Guarantees.SerialRuns
import LinuxChat.Guarantees.FanOut.Recipients
import LinuxChat.Guarantees.FanOut
import LinuxChat.Guarantees.FrameSizes
import LinuxChat.Guarantees.PrivateConversations
import LinuxChat.Guarantees.Lockout.Cleanup
import LinuxChat.Guarantees.Lockout.Steps
import LinuxChat.Guarantees.Lockout.Threads
import LinuxChat.Guarantees.Lockout
import LinuxChat.Guarantees.ConnectionOrder.Steps
import LinuxChat.Guarantees.ConnectionOrder.Threads
import LinuxChat.Guarantees.ConnectionOrder
import LinuxChat.Guarantees.Passage
import LinuxChat.Guarantees.UserList.Steps
import LinuxChat.Guarantees.UserList.Threads
import LinuxChat.Guarantees.UserList
import LinuxChat.Guarantees.Generations.Programs
import LinuxChat.Guarantees.Generations.Invariant
import LinuxChat.Guarantees.Generations
import LinuxChat.Guarantees.HistoryOrder
import LinuxChat.Guarantees.PasswordChecks
import LinuxChat.Guarantees.Pool
import LinuxChat.Guarantees.ScopeExit
import LinuxChat.Guarantees.SendFailures
import LinuxChat.Guarantees.StoredMessages
import LinuxChat.Guarantees.Violations.FatalOctets
import LinuxChat.Guarantees.Violations.Calls
import LinuxChat.Guarantees.Violations
import LinuxChat.Guarantees.DeadlockFreedom
import LinuxChat.Guarantees.WholeFrames.Senders
import LinuxChat.Guarantees.WholeFrames.Sockets
import LinuxChat.Guarantees.WholeFrames
import LinuxChat.Guarantees.BlockDuration
import LinuxChat.Guarantees.ServerChoice
import LinuxChat.Guarantees.ResidualBuffer
import LinuxChat.Guarantees.DescriptorOwnership.Owners
import LinuxChat.Guarantees.DescriptorOwnership.Steps
import LinuxChat.Guarantees.DescriptorOwnership.Sound
import LinuxChat.Guarantees.DescriptorOwnership.Failures
import LinuxChat.Guarantees.DescriptorOwnership
import LinuxChat.Lib.ChatRoom
import LinuxChat.Guarantees.ChatService.Reading
import LinuxChat.Guarantees.ChatService.Entrance
import LinuxChat.Guarantees.ChatService.Presence
import LinuxChat.Guarantees.ChatService
import LinuxChat.Source.ClientModels
import LinuxChat.Guarantees.RoomWindow
import LinuxChat.Guarantees.Screens
import LinuxChat.Guarantees.Archive
import LinuxChat.Guarantees.Reconnection
import LinuxChat.Source.EventLoop
import LinuxChat.Guarantees.Shutdown
import LinuxChat.Lib.Utf8
import LinuxChat.Source.JsonLexer
import LinuxChat.Source.JsonParser
import LinuxChat.Guarantees.JsonText
import LinuxChat.Guarantees.JsonNumbers
import LinuxChat.Guarantees.JsonStrings
import LinuxChat.Guarantees.JsonParsing.Tokens
import LinuxChat.Guarantees.JsonParsing.Values
import LinuxChat.Guarantees.JsonParsing
import LinuxChat.Guarantees.Uplink
import LinuxChat.Guarantees.HalfClose.Line
import LinuxChat.Guarantees.HalfClose.Attention
import LinuxChat.Guarantees.HalfClose.Kept
import LinuxChat.Guarantees.HalfClose
import LinuxChat.Guarantees.OnlineNames.Naming
import LinuxChat.Guarantees.OnlineNames.Accepting
import LinuxChat.Guarantees.OnlineNames.Matched
import LinuxChat.Guarantees.OnlineNames
import LinuxChat.Guarantees.Transcript.Telling
import LinuxChat.Guarantees.Transcript.Readings
import LinuxChat.Guarantees.Transcript.Noting
import LinuxChat.Guarantees.Transcript.Speaking
import LinuxChat.Guarantees.Transcript.Sending
import LinuxChat.Guarantees.Transcript.Seating
import LinuxChat.Guarantees.Transcript.Turns
import LinuxChat.Guarantees.Transcript
