import ModemLink.Config.File
import ModemLink.Script.Engine
import ModemLink.Script.Executor
import ModemLink.Script.Governor
import ModemLink.Script.Ledger
import ModemLink.Script.Link
import ModemLink.Script.Loopback
import ModemLink.Script.Metrics
import ModemLink.Script.Telemetry
import ModemLink.Script.Timeline
import ModemLink.Proofs.Custody
import ModemLink.Proofs.Refusal
import ModemLink.Proofs.Sending
import ModemLink.Proofs.Rearming
import ModemLink.Proofs.Turns
import ModemLink.Proofs.Recovery
import ModemLink.Proofs.ReconnectDelay
import ModemLink.Proofs.LedgerCalls
import ModemLink.Proofs.LinkSessions
import ModemLink.Proofs.LinkAgreement
import ModemLink.Proofs.PowerCalls
import ModemLink.Proofs.SafetyValve
import ModemLink.Proofs.Magnitudes
import ModemLink.Proofs.ReplyOrder
import ModemLink.Proofs.Desk
import ModemLink.Proofs.BoundedWait
import ModemLink.Proofs.BooksBalance
import ModemLink.Proofs.Undisturbed
import ModemLink.Proofs.Audience
import ModemLink.Proofs.Confirmations
import ModemLink.Proofs.Drains
import ModemLink.Proofs.LocalAcks
import ModemLink.Proofs.HoldTimes
import ModemLink.Proofs.ClockReadings
import ModemLink.Proofs.DueOrder
import ModemLink.Proofs.AdvanceEnds
import ModemLink.Proofs.FreeSerial
import ModemLink.Proofs.SlotCalls
import ModemLink.Proofs.MeanLatency
import ModemLink.Proofs.BothStores
