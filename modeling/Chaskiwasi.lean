import Chaskiwasi.Lib.Run
import Chaskiwasi.Lib.Paging
import Chaskiwasi.Lib.Ring
import Chaskiwasi.Sync.Cursor
import Chaskiwasi.Ayllu.Address
import Chaskiwasi.Ayllu.Table
import Chaskiwasi.Ayllu.Mutate
import Chaskiwasi.Ayllu.Log
import Chaskiwasi.Ayllu.History
import Chaskiwasi.Ayllu.Told
import Chaskiwasi.Ayllu.Journal
import Chaskiwasi.Ayllu.Sender
import Chaskiwasi.Mail.Derive
import Chaskiwasi.Lib.Retry
import Chaskiwasi.Mail.Imap
import Chaskiwasi.Mail.Fetch
import Chaskiwasi.Sync.Assemble
import Chaskiwasi.Server.World
import Chaskiwasi.Server.Step
import Chaskiwasi.Server.Messages
import Chaskiwasi.Server.Sample
import Chaskiwasi.Server.System
import Chaskiwasi.Server.Gate
import Chaskiwasi.Server.Released
import Chaskiwasi.Server.Idle
import Chaskiwasi.Server.Arrivals
import Chaskiwasi.Server.Swept
import Chaskiwasi.Outbound.State
import Chaskiwasi.Outbound.Handler
import Chaskiwasi.Mail.Smtp
import Chaskiwasi.Outbound.Replay
import Chaskiwasi.Outbound.Overlap
import Chaskiwasi.Device.Outbox
import Chaskiwasi.Outbound.Identity
import Chaskiwasi.Pututu.Doorbell
import Chaskiwasi.Pututu.Token
import Chaskiwasi.Notice.Service
import Chaskiwasi.Notice.Recovery
import Chaskiwasi.Notice.Once
import Chaskiwasi.Notice.Again
import Chaskiwasi.Web.Login
import Chaskiwasi.Device.Screens
import Chaskiwasi.Device.Locked
import Chaskiwasi.Device.Panel
import Chaskiwasi.Device.Apply
import Chaskiwasi.Device.Replay
import Chaskiwasi.Device.Retention
import Chaskiwasi.Device.PowerCut
import Chaskiwasi.Device.Healing
import Chaskiwasi.Device.Seen
import Chaskiwasi.Device.Shown
import Chaskiwasi.Device.ShownFiles
import Chaskiwasi.Device.Failed
import Chaskiwasi.Device.Resync
import Chaskiwasi.Sync.Snapshot
import Chaskiwasi.Device.Wake
import Chaskiwasi.Device.Halt
import Chaskiwasi.Guardians.Store
import Chaskiwasi.Guardians.Cookie
import Chaskiwasi.Guardians.Session
import Chaskiwasi.Guardians.Race
import Chaskiwasi.Lib.Segments
import Chaskiwasi.Mail.Graphemes
import Chaskiwasi.Server.Announced
import Chaskiwasi.Device.Desk
import Chaskiwasi.Device.Addressee
import Chaskiwasi.Device.Drafts
import Chaskiwasi.Device.Compose
import Chaskiwasi.Lib.Framing
import Chaskiwasi.Transport.Frame
import Chaskiwasi.Transport.Exchange
import Chaskiwasi.Lib.Json
import Chaskiwasi.Lib.JsonSize
import Chaskiwasi.Sync.Codec
import Chaskiwasi.Device.Fits
import Chaskiwasi.Device.Converge
import Chaskiwasi.Sync.Body
import Chaskiwasi.Transport.Room
import Chaskiwasi.Server.Unheld
import Chaskiwasi.Web.Held
import Chaskiwasi.Lib.Absorb
import Chaskiwasi.Lib.Sha256
import Chaskiwasi.Pututu.Crypto
import Chaskiwasi.Lib.Lines
import Chaskiwasi.Device.Record
import Chaskiwasi.Mail.Strip
import Chaskiwasi.Mail.Subject
import Chaskiwasi.Lib.Headers
import Chaskiwasi.Outbound.Message
import Chaskiwasi.Outbound.Letter
import Chaskiwasi.Outbound.Batch
import Chaskiwasi.Outbound.Bounded
import Chaskiwasi.Lib.Breaks
import Chaskiwasi.Lib.Atomic
import Chaskiwasi.Device.Utf8proc
import Chaskiwasi.Device.Wrap
import Chaskiwasi.Server.Durable
import Chaskiwasi.Server.KipuLog
import Chaskiwasi.Device.KeebDeck
import Chaskiwasi.Device.Dispatcher
import Chaskiwasi.Device.Power
import Chaskiwasi.Device.Queued
import Chaskiwasi.Device.Backoff
import Chaskiwasi.Device.Ringing
import Chaskiwasi.Device.Decoration
import Chaskiwasi.Device.Glass
import Chaskiwasi.Device.View
import Chaskiwasi.Device.Visible
import Chaskiwasi.Lib.Calendar
import Chaskiwasi.Server.Config
import Chaskiwasi.Server.KipuSweep
import Chaskiwasi.Server.Reload
import Chaskiwasi.Backup.Name
import Chaskiwasi.Backup.Sweep
import Chaskiwasi.Backup.Copy
import Chaskiwasi.Backup.Descent
import Chaskiwasi.Web.Served
import Chaskiwasi.Sim.Runs
import Chaskiwasi.Sim.Render
import Chaskiwasi.Notice.DataLock
import Chaskiwasi.Pututu.System
import Chaskiwasi.Device.Delivery
import Chaskiwasi.Outbound.Ledger
import Chaskiwasi.Transport.Refined
import Chaskiwasi.Transport.Answered
import Chaskiwasi.Device.Health
import Chaskiwasi.Mail.Spam
