import SnapshotAnalytics.Filter.Basic
import SnapshotAnalytics.Number.Shortest
import SnapshotAnalytics.Table.Schema

/-!
# Predicates

A filter with values is compiled to a clause over its field, with every value normalised to the kind
of the field and bound to a name of its own: `p`, the place of the filter, an underscore, and the
place of the value. The clauses of a predicate all have to hold.
-/

namespace SnapshotAnalytics

/-! ## §1 Clauses -/

/-- A condition on one field. -/
inductive Clause where
  /-- The field compared with a value by a symbol. -/
  | comparison (field symbol : String) (value : Parameter)
  /-- The field among values, or not among them. -/
  | membership (field : String) (negated : Bool) (values : List Parameter)
  /-- All or some of the patterns match, or do not match, the target. -/
  | substring (target : String) (negated anyOf : Bool) (patterns : List Parameter)
  deriving DecidableEq

namespace Clause

def fragment : Clause → Fragment
  | comparison field symbol value => .comparison field symbol value
  | membership field negated values =>
    .text (field ++ if negated then " NOT IN (" else " IN (")
      :: Fragment.joined ", " (values.map fun value => [.parameter value]) ++ [.text ")"]
  | substring target negated anyOf patterns =>
    let symbol := if negated then "NOT ILIKE" else "ILIKE"
    let parts := patterns.map (Fragment.comparison target symbol)
    match parts with
    | [part] => part
    | _ => Fragment.parenthesized (Fragment.joined (if anyOf then " OR " else " AND ") parts)

end Clause

abbrev Predicate := List Clause

namespace Predicate

def fragment (p : Predicate) : Fragment :=
  Fragment.joined " AND " (p.map Clause.fragment)

/-- The conditions that a predicate adds to a selection: none when it is empty. -/
def conditions (p : Predicate) : List Fragment :=
  if p.isEmpty then [] else [Fragment.parenthesized p.fragment]

/-! ## §2 Values -/

/-- The date that a value of a filter stands for. -/
def readDate? (value : String) : Option Date :=
  let s := Text.trim value.toList
  Date.readCalendar? s <|> Date.readCompact? s

/-- A value of a filter in the form in which values of a kind are bound. -/
def normalize (kind : FieldKind) (field value : String) : Except AnalyticsError String :=
  match kind with
  | .text => .ok value
  | .number =>
    match Binary64.readFinite? (Text.trim value.toList) with
    | some x => .ok (String.ofList x.plainText)
    | none => .error (.notANumber value field)
  | .date =>
    match readDate? value with
    | some d => .ok d.text
    | none => .error (.notADate value field)

/-- A character of a text inside a pattern. -/
def escapePatternChar (c : Char) : List Char :=
  if c = '\\' || c = '%' || c = '_' then ['\\', c] else [c]

/-- The pattern of the texts that contain `s`. -/
def pattern (s : String) : String :=
  String.ofList ('%' :: s.toList.flatMap escapePatternChar ++ ['%'])

/-- The name of the parameter of a value, by the places of its filter and of the value. -/
def parameterName (filter value : Nat) : String :=
  s!"p{filter}_{value}"

/-- Bind normalised values of the filter at place `filter`, the first of them at place `next`. -/
def bind (filter : Nat) (kind : FieldKind) (field : String) :
    Nat → List String → Except AnalyticsError (List Parameter)
  | _, [] => .ok []
  | next, value :: values => do
    let normal ← normalize kind field value
    let rest ← bind filter kind field (next + 1) values
    return ⟨parameterName filter next, kind.parameterType, normal⟩ :: rest

/-- Bind the patterns of the values of the filter at place `filter`. -/
def bindPatterns (filter : Nat) (values : List String) : List Parameter :=
  values.mapIdx fun i value => ⟨parameterName filter i, .string, pattern value⟩

/-! ## §3 Compiling -/

/-- Equality with one value, or membership among several. -/
def equality (field : String) (negated : Bool) : List Parameter → Clause
  | [value] => .comparison field (if negated then "!=" else "=") value
  | values => .membership field negated values

/-- What patterns are matched against: the field as text. -/
def target (kind : FieldKind) (field : String) : String :=
  match kind with
  | .text => field
  | .number | .date => s!"toString({field})"

/-- The clause of the filter at place `place`, whose field has the given kind. -/
def clause (place : Nat) (kind : FieldKind) (f : Filter) : Except AnalyticsError Clause :=
  let bound := bind place kind f.field 0 f.values
  let patterns := bindPatterns place f.values
  let target := target kind f.field
  match f.operator with
  -- a spelling that is no operator counts as equality
  | .equals | .unrecognized _ => return equality f.field false (← bound)
  | .notEquals => return equality f.field true (← bound)
  | .oneOf => return .membership f.field false (← bound)
  | .contains | .allOf => .ok (.substring target false false patterns)
  | .notContains | .noneOf => .ok (.substring target true false patterns)
  | .anyOf => .ok (.substring target false true patterns)
  | .lessThan | .greaterThan | .lessOrEqual | .greaterOrEqual => do
    -- an order takes one bound; further values are neither read nor refused
    let symbol := f.operator.orderSymbol?.getD "="
    match ← bind place kind f.field 0 (f.values.take 1) with
    | value :: _ => return .comparison f.field symbol value
    | [] => return .membership f.field false []

/-- The clauses of filters, the first of them at place `place`; filters without values are passed
over. -/
def compileFrom (t : TableSchema) : Nat → List Filter → Except AnalyticsError Predicate
  | _, [] => .ok []
  | place, f :: filters =>
    -- a filter that is passed over keeps its place, but its field is not looked up
    if f.values.isEmpty then
      compileFrom t (place + 1) filters
    else do
      let kind ← t.kindOf f.field
      let first ← clause place kind f
      let rest ← compileFrom t (place + 1) filters
      return first :: rest

def compile (t : TableSchema) (filters : List Filter) : Except AnalyticsError Predicate :=
  compileFrom t 0 filters

end Predicate

end SnapshotAnalytics
