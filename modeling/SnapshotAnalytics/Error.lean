import SnapshotAnalytics.Cache.Error
import SnapshotAnalytics.Query.Error

/-!
# Errors of analytics requests

What can go wrong between a request and its answer. All causes but the last two are found before
anything is sent or looked up.
-/

namespace SnapshotAnalytics

/-- Why a request, a filter, a table or a period was refused. -/
inductive AnalyticsError where
  | unknownTable (name : String)
  | unknownField (table field : String)
  | missingWeight (field : String)
  | tooManyResults (count : Nat)
  | badTableName (name : String)
  | badFieldName (table field : String)
  | notANumber (value field : String)
  | notADate (value field : String)
  /-- The text is no request at all; the reader of JSON says why. -/
  | unreadableRequest (complaint : String)
  | missingResultSlot (column : String) (slots : Nat)
  | noMeasures
  | noMaturityColumn (table : String)
  | maturityNotADate (field : String)
  | unknownPeriod (spelling : String)
  | comparisonAfter (comparison asOf : String)
  | limitNotPositive
  | historyTooShort (limit : Nat)
  | beforeCalendar (period date : String)
  | query (cause : QueryError)
  | store (cause : StoreError)
  deriving DecidableEq

namespace AnalyticsError

/-- The class of an error, as it is reported. -/
def code : AnalyticsError → String
  | unknownTable _ => "UNKNOWN_TABLE"
  | unknownField _ _ => "UNKNOWN_FIELD"
  | missingWeight _ => "MISSING_WEIGHT_FIELD"
  | tooManyResults _ => "TOO_MANY_RESULTS"
  | badTableName _ | badFieldName _ _ => "INVALID_SCHEMA"
  | notANumber _ _ | notADate _ _ => "INVALID_FILTER"
  | unreadableRequest _ | missingResultSlot _ _ | noMeasures | noMaturityColumn _
  | maturityNotADate _ => "INVALID_REQUEST"
  | unknownPeriod _ | comparisonAfter _ _ => "INVALID_PERIOD"
  | limitNotPositive | historyTooShort _ | beforeCalendar _ _ => "OUT_OF_RANGE"
  | query _ => "BACKEND_ERROR"
  | store _ => "CACHE_ERROR"

def message : AnalyticsError → String
  | unknownTable name => s!"unknown table: {name}"
  | unknownField table field => s!"unknown field '{field}' for table '{table}'"
  | missingWeight field => s!"weightedAvg on '{field}' requires a weightField"
  | tooManyResults count => s!"at most 3 result slots are supported, got {count}"
  | badTableName name => s!"invalid schema: table name '{name}' is not an identifier"
  | badFieldName table field =>
    s!"invalid schema: field '{field}' of table '{table}' is not an identifier"
  | notANumber value field => s!"invalid filter: '{value}' is not a number for {field}"
  | notADate value field => s!"invalid filter: '{value}' is not a date for {field}"
  | unreadableRequest complaint => s!"invalid request: {complaint}"
  | missingResultSlot column slots =>
    s!"invalid request: cannot order by {column} with {slots} result slot(s)"
  | noMeasures => "invalid request: stat requires at least one measure"
  | noMaturityColumn table => s!"invalid request: table '{table}' has no maturity column"
  | maturityNotADate field => s!"invalid request: maturity field '{field}' is not a date"
  | unknownPeriod spelling => s!"invalid period: {spelling}"
  | comparisonAfter comparison asOf =>
    s!"invalid period: comparison date {comparison} is after {asOf}"
  | limitNotPositive => "value out of range: limit must be positive"
  | historyTooShort limit =>
    s!"value out of range: historical limit must be at least 2, got {limit}"
  | beforeCalendar period date => s!"value out of range: {period} before {date}"
  | query cause => s!"backend error: {cause.message}"
  | store cause => s!"cache error: {cause.message}"

end AnalyticsError

end SnapshotAnalytics
