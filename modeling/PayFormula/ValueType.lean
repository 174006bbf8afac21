/-!
# Value types

The closed set of types that a formula's values can have.
-/
namespace PayFormula

inductive ValueType where
  | any
  | number
  | string
  | ident
  | time
  | date
  | dateTime
  | dateRange
  | dateTimeRange
  | boolean
  | scheduleRecord
  | timeRecord
  | employeeAttribute
  | ldRecord
  | torDetailRecord
  | resultSet
  | timeRecordGroup
  | exception
  | day
  | week
  | period
  | null
  | undefined
  deriving DecidableEq, Repr, Inhabited

def ValueType.name : ValueType → String
  | .any => "any"
  | .number => "number"
  | .string => "string"
  | .ident => "ident"
  | .time => "time"
  | .date => "date"
  | .dateTime => "dateTime"
  | .dateRange => "dateRange"
  | .dateTimeRange => "dateTimeRange"
  | .boolean => "boolean"
  | .scheduleRecord => "scheduleRecord"
  | .timeRecord => "timeRecord"
  | .employeeAttribute => "employeeAttribute"
  | .ldRecord => "ldRecord"
  | .torDetailRecord => "torDetailRecord"
  | .resultSet => "resultSet"
  | .timeRecordGroup => "timeRecordGroup"
  | .exception => "exception"
  | .day => "day"
  | .week => "week"
  | .period => "period"
  | .null => "null"
  | .undefined => "undefined"

end PayFormula
