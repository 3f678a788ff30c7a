import QuoteDesk.Main
import QuoteDesk.Cache.Crew
import QuoteDesk.Expression.Gathering
import QuoteDesk.Proofs.Cache.Passage
import QuoteDesk.Proofs.Cache.History
import QuoteDesk.Proofs.Cache.Fallback
import QuoteDesk.Proofs.Cache.FileContent
import QuoteDesk.Proofs.Decimal.Digits
import QuoteDesk.Proofs.Decimal.Written
import QuoteDesk.Proofs.Json.Written
import QuoteDesk.Proofs.Cache.Written
import QuoteDesk.Proofs.Expression.Grammar
import QuoteDesk.Proofs.Expression.Unambiguity
import QuoteDesk.Proofs.Expression.Lexeme
import QuoteDesk.Proofs.Expression.Literal
import QuoteDesk.Proofs.Expression.Scan
import QuoteDesk.Proofs.Expression.Reading
import QuoteDesk.Proofs.Expression.Acceptance
import QuoteDesk.Proofs.Moment.Age
import QuoteDesk.Proofs.Moment.Calendar
import QuoteDesk.Proofs.Moment.Text
import QuoteDesk.Proofs.Cache.Freshness
import QuoteDesk.Proofs.Cache.Serial
import QuoteDesk.Proofs.Cache.Turns
import QuoteDesk.Proofs.Cache.Serializability
import QuoteDesk.Proofs.Cache.Schedule
import QuoteDesk.Proofs.Cache.Keeping
import QuoteDesk.Proofs.Cache.Temporary
import QuoteDesk.Proofs.Cache.Files
import QuoteDesk.Proofs.Cache.Agreement
import QuoteDesk.Proofs.Cache.Interchange
import QuoteDesk.Proofs.Cache.FailedWrites
import QuoteDesk.Proofs.Cache.RoundTrip
import QuoteDesk.Proofs.Binary64
import QuoteDesk.Proofs.Cache.Endings
import QuoteDesk.Proofs.Cache.Statistics
import QuoteDesk.Proofs.Pair
import QuoteDesk.Proofs.Symbol
import QuoteDesk.Proofs.Provider.Ranked
import QuoteDesk.Proofs.Provider.Outcome
import QuoteDesk.Proofs.Provider.Course
import QuoteDesk.Proofs.Provider.Escalation
import QuoteDesk.Proofs.Provider.Backoff
import QuoteDesk.Proofs.Expression.Timing
import QuoteDesk.Proofs.Expression.Gathered
import QuoteDesk.Proofs.Decimal.Nearest
import QuoteDesk.Proofs.Decimal.Value
import QuoteDesk.Proofs.Expression.Total
import QuoteDesk.Proofs.Desk.Blame
import QuoteDesk.Proofs.Desk.Untouched
import QuoteDesk.Proofs.Desk.Session
import QuoteDesk.Proofs.Desk.Serving
import QuoteDesk.Proofs.Desk.Genuine
import QuoteDesk.Proofs.Arguments
import QuoteDesk.Proofs.Decimal.Spelled
import QuoteDesk.Proofs.Provider.Nested
import QuoteDesk.Proofs.Provider.Naming
import QuoteDesk.Proofs.Provider.Ticker
import QuoteDesk.Proofs.Decimal.Reach
import QuoteDesk.Proofs.Decimal.Places
import QuoteDesk.Proofs.Decimal.Reduced
import QuoteDesk.Proofs.Decimal.Shown
import QuoteDesk.Proofs.Decimal.PriceText
import QuoteDesk.Proofs.Decimal.RoundedOnce
import QuoteDesk.Proofs.Decimal.PriceOrder
import QuoteDesk.Proofs.Amount
import QuoteDesk.Proofs.Conversion
import QuoteDesk.Proofs.Exactness
import QuoteDesk.Proofs.Decimal.Quotient
import QuoteDesk.Proofs.Decimal.Retold
import QuoteDesk.Proofs.Decimal.Canonical
import QuoteDesk.Proofs.Expression.LeftToRight
import QuoteDesk.Proofs.Desk.Feedback
import QuoteDesk.Proofs.Desk.Rows
import QuoteDesk.Proofs.Text.Case
import QuoteDesk.Proofs.Expression.Spelling
import QuoteDesk.Proofs.Desk.Service
import QuoteDesk.Proofs.Desk.Resolution
import QuoteDesk.Proofs.Expression.Tiling
import QuoteDesk.Proofs.Cache.Names
import QuoteDesk.Proofs.Provider.Bookkeeping
