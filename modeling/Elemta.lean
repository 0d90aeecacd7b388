import Elemta.Abuse.Blocks
import Elemta.Arc.BodyHash
import Elemta.Campaign.Once
import Elemta.Delivery.MtastsRuns
import Elemta.Mailbox.BodyHistory
import Elemta.Mailbox.BookingOwners
import Elemta.Mailbox.BookingTimes
import Elemta.Mailbox.Conditional
import Elemta.Mailbox.DateSearch
import Elemta.Mailbox.DomainAliases
import Elemta.Mailbox.Holds
import Elemta.Mailbox.LoopMarks
import Elemta.Mailbox.Quota
import Elemta.Mailbox.Selection
import Elemta.Queue.Claims
import Elemta.Queue.Coverage
import Elemta.Queue.MessageLocks
import Elemta.Queue.OutboundSessions
import Elemta.Queue.Repeats
import Elemta.Queue.RetryTimes
import Elemta.Queue.SingleBounce
import Elemta.Queue.SmtpTransaction
import Elemta.Queue.Statistics
import Elemta.Queue.Suppressions
import Elemta.Queue.Throttle
import Elemta.Smtp.AuthExchange
import Elemta.Smtp.AuthSecurity
import Elemta.Smtp.DmarcPolicy
import Elemta.Smtp.EndOfData
import Elemta.Smtp.ForgedResults
import Elemta.Smtp.Framing
import Elemta.Smtp.SaveRaces
import Elemta.Smtp.SizeLimits
import Elemta.Smtp.Transactions
import Elemta.Webmail.SharedCalendars
