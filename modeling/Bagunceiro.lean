import Bagunceiro.Batch
import Bagunceiro.Durability
import Bagunceiro.Reuse
import Bagunceiro.WriteFailures
import Bagunceiro.Concurrent
import Bagunceiro.Password
import Bagunceiro.Sessions
import Bagunceiro.SavedConfig
import Bagunceiro.Links
import Bagunceiro.Bounds
import Bagunceiro.Histories
import Bagunceiro.BlogStore
import Bagunceiro.Freshness
import Bagunceiro.LeapDays
import Bagunceiro.MonthView
import Bagunceiro.Week
import Bagunceiro.Navigation
import Bagunceiro.Rss
import Bagunceiro.Verdict
import Bagunceiro.Unset
import Bagunceiro.Dangling
import Bagunceiro.Findings
import Bagunceiro.Tags
import Bagunceiro.Sorting
import Bagunceiro.Keys
import Bagunceiro.Params
import Bagunceiro.CaldateNav
import Bagunceiro.Stripping
import Bagunceiro.PostString
import Bagunceiro.Cookies
import Bagunceiro.FailedStart
import Bagunceiro.Rendering
import Bagunceiro.DayIndex
import Bagunceiro.Lib.Brackets
import Bagunceiro.Html5
import Bagunceiro.Fmthtml
import Bagunceiro.OpenDivs
import Bagunceiro.EditForm
import Bagunceiro.Admission
import Bagunceiro.Caltime
import Bagunceiro.CaltimeText
import Bagunceiro.Controls
import Bagunceiro.Fcgi.Accept
import Bagunceiro.Fcgi.Answers
import Bagunceiro.Fcgi.CutOff
import Bagunceiro.Fcgi.Delivery
import Bagunceiro.Fcgi.Wire
import Bagunceiro.Following
