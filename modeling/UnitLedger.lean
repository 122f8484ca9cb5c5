import UnitLedger.Numeral
import UnitLedger.Numeral.Bound
import UnitLedger.Decimal.Basic
import UnitLedger.Decimal.Reader
import UnitLedger.Decimal.Printer
import UnitLedger.Decimal.Rounding
import UnitLedger.Decimal.Value
import UnitLedger.Text.Blank
import UnitLedger.Text.Split
import UnitLedger.Binary64.Shortest
import UnitLedger.Decimal.Binary
import UnitLedger.Binary64.Reader
import UnitLedger.Exact
import UnitLedger.Error.Report
import UnitLedger.Text.Alphabet
import UnitLedger.Text.CaseMap
import UnitLedger.Dimension
import UnitLedger.Symbol
import UnitLedger.Amount
import UnitLedger.MeasureUnit
import UnitLedger.Registry.Basic
import UnitLedger.Registry.Tables
import UnitLedger.Registry.Factor
import UnitLedger.Quantity
import UnitLedger.Price
import UnitLedger.Entry
import UnitLedger.Options
import UnitLedger.Format
import UnitLedger.Json.Value
import UnitLedger.Json.Printer
import UnitLedger.Json.Reader
import UnitLedger.Json.Double
import UnitLedger.Json.Record
import UnitLedger.Session
import UnitLedger.Proofs.Decimal.Arithmetic
import UnitLedger.Proofs.Decimal.Sum
import UnitLedger.Proofs.Decimal.Order
import UnitLedger.Proofs.Decimal.Integer
import UnitLedger.Proofs.Binary64.Interval
import UnitLedger.Proofs.Binary64.Shortest
import UnitLedger.Proofs.Binary64.Nearest
import UnitLedger.Proofs.Decimal.Binary
import UnitLedger.Proofs.MeasureUnit
import UnitLedger.Proofs.Quantity.Storing
import UnitLedger.Proofs.Quantity.Grain
import UnitLedger.Proofs.Quantity.Count
import UnitLedger.Proofs.Quantity.Order
import UnitLedger.Proofs.Quantity.Showing
import UnitLedger.Proofs.Decimal.Places
import UnitLedger.Proofs.Format
import UnitLedger.Proofs.Numeral
import UnitLedger.Proofs.Entry
import UnitLedger.Proofs.Reentry
import UnitLedger.Proofs.Decimal.FixedText
import UnitLedger.Proofs.Format.Rounded
import UnitLedger.Proofs.Amount
import UnitLedger.Proofs.Decimal.Chain
import UnitLedger.Proofs.Decimal.Entered
import UnitLedger.Proofs.Format.Written
import UnitLedger.Proofs.Amount.Places
import UnitLedger.Proofs.Amount.Integer
import UnitLedger.Proofs.Text.Blank
import UnitLedger.Proofs.Text.Case
import UnitLedger.Proofs.Symbol
import UnitLedger.Proofs.Registry.Spelling
import UnitLedger.Proofs.Entry.Literal
import UnitLedger.Proofs.Entry.Token
import UnitLedger.Proofs.Entry.Typed
import UnitLedger.Proofs.Session.Total
import UnitLedger.Proofs.Price
import UnitLedger.Proofs.Price.Total
import UnitLedger.Proofs.Quantity.Conversion
import UnitLedger.Proofs.Refusals
import UnitLedger.Proofs.Binary64.Unique
import UnitLedger.Proofs.Binary64.Order
import UnitLedger.Proofs.Session.Held
import UnitLedger.Proofs.Json.Text
import UnitLedger.Proofs.Json.Record
import UnitLedger.Proofs.Decimal.Plain
import UnitLedger.Proofs.Entry.Grammar
import UnitLedger.Proofs.Entry.Unregistered
import UnitLedger.Proofs.Decimal.Spelling
import UnitLedger.Proofs.Decimal.PlainPlaces
import UnitLedger.Proofs.Entry.Printed
import UnitLedger.Proofs.Binary64.Text
import UnitLedger.Proofs.Decimal.Power
import UnitLedger.Proofs.Quantity.Sum
import UnitLedger.Proofs.Registry.Variants
import UnitLedger.Proofs.Registry.Derived
import UnitLedger.Proofs.Registry.Bookkeeping
import UnitLedger.Proofs.Registry.Canonical
