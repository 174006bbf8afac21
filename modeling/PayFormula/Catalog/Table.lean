import PayFormula.Catalog.Function

/-!
# The function table

Every builtin function, in alphabetical order of its lowercased name.
-/
namespace PayFormula.Catalog

def interval : List ValueType := [.day, .week, .period]
def range : List ValueType := [.day, .week, .period, .dateRange]

def rangeParam : Param :=
  .required "range" range "the records to visit, given as an `over` clause with an optional `alias`"
def conditionParam : Param :=
  .optional "condition" [.boolean]
    "a `where` clause; only records for which it is true are considered"
def orderParam : Param :=
  .optional "order" [.any] "an `order by` clause deciding which record comes first"
def torFieldParam : Param :=
  .required "field" [.string] "name of the time-off-request field"
def bankParam : Param :=
  .required "bank" [.string] "name of the accrual bank"
def asOfParam : Param :=
  .optional "asOf" [.date] "date to evaluate on; defaults to the calculation date"
def valueParam : Param :=
  .required "value" [.number] "the number to round"
def placesParam : Param :=
  .required "places" [.number] "number of decimal places to keep"
def textParam : Param :=
  .required "text" [.string] "the string to operate on"
def recordExpression : List Param := [
  rangeParam,
  .required "expression" [.number] "numeric expression evaluated for each qualifying record",
  conditionParam]
def recordCount : List Param := [rangeParam, conditionParam]
def recordFind : List Param := [rangeParam, conditionParam, orderParam]
def consecutive : List Param := [
  rangeParam,
  .required "condition" [.boolean] "the condition each consecutive day must meet"]
def daySearch : List Param := [
  .required "start" [.date] "the day the search starts from",
  .required "condition" [.boolean] "the condition the day must meet",
  .optional "maxDays" [.number] "give up after this many days"]
def rounding : List Param := [valueParam, placesParam]
def torLookup : List Param := [torFieldParam]
def bankLookup : List Param := [bankParam, asOfParam]
def caseChange : List Param := [textParam]
def payCodeMap : List Param := [
  .required "payCode" [.string] "the pay code to look for",
  .required "mapName" [.string] "name of the pay code map"]
def ldLookup : List Param := [
  .required "table" [.string] "name of the labor distribution table",
  ⟨"column", [.string], "column to match on", false, .pairFirst⟩,
  ⟨"value", [.any], "value the column must equal", false, .pairSecond⟩]
def attributeLookup : List Param := [
  .required "attribute" [.string] "name of the employee attribute",
  asOfParam]

def functions : List Function := [
  ⟨"accrued", .number, bankLookup,
    "Accrued returns the amount accrued into a bank."⟩,
  ⟨"averageException", .number, recordExpression,
    "AverageException returns the average value of an expression over exceptions."⟩,
  ⟨"avgSchedule", .number, recordExpression,
    "AvgSchedule returns the average value of an expression over schedule records."⟩,
  ⟨"avgTime", .number, recordExpression,
    "AvgTime returns the average value of an expression over time records."⟩,
  ⟨"balance", .number, bankLookup,
    "Balance returns the current balance of an accrual bank."⟩,
  ⟨"balanceAccruedBefore", .number, [
      bankParam,
      .required "date" [.date] "accruals on or after this date are ignored"],
    "BalanceAccruedBefore returns a bank balance counting only accruals before `date`."⟩,
  ⟨"callSql", .resultSet, [
      .required "query" [.string] "name of the registered SQL query",
      .repeating "args" [.any] "query arguments, in order"],
    "CallSql runs a registered SQL query and returns its result set."⟩,
  ⟨"contains", .boolean, [
      .required "string1" [.string] "the string to search in",
      .required "string2" [.string] "the string to search for"],
    "Contains returns true if `string2` is a substring of `string1`."⟩,
  ⟨"convertDttmByTimezone", .dateTime, [
      .required "dateTime" [.dateTime] "the date-time to convert",
      .required "fromZone" [.string] "time zone the value is expressed in",
      .required "toZone" [.string] "time zone to convert into"],
    "ConvertDttmByTimezone converts a date-time between two time zones."⟩,
  ⟨"count", .number, [
      .required "interval" interval "the time period to group by",
      .required "range" range "the time period over which to count",
      .optional "aliasName" [.string] "alias for the interval being evaluated",
      .required "condition" [.boolean] "only intervals where this is true are counted"],
    "Count calculates a total count of qualifying intervals across `range`."⟩,
  ⟨"countException", .number, recordCount,
    "CountException counts the exceptions raised in a range."⟩,
  ⟨"countGroupCalc", .number, [
      .required "groupName" [.string] "name of the calculation group",
      rangeParam],
    "CountGroupCalc counts the members of a calculation group."⟩,
  ⟨"countHolidays", .number, [
      .required "range" [.dateRange] "the dates to check",
      .optional "calendar" [.string] "holiday calendar; the employee's when omitted"],
    "CountHolidays counts the holidays falling within a date range."⟩,
  ⟨"countHomeCrewMembers", .number, [.required "date" [.date] "the day to count crew members on"],
    "CountHomeCrewMembers counts the members of the employee's home crew."⟩,
  ⟨"countSchedule", .number, recordCount,
    "CountSchedule counts the schedule records in a range."⟩,
  ⟨"countShiftChanges", .number, recordCount,
    "CountShiftChanges counts schedule shift changes in a range."⟩,
  ⟨"countTime", .number, recordCount,
    "CountTime counts the time records in a range."⟩,
  ⟨"employee_attribute", .employeeAttribute, attributeLookup,
    "Returns the value of an employee attribute."⟩,
  ⟨"employee_attribute_exists", .boolean, attributeLookup,
    "Returns true when the employee has a value for the attribute."⟩,
  ⟨"findFirstDayBackward", .date, daySearch,
    "FindFirstDayBackward walks backward from `start` and returns the first day meeting the " ++
    "condition."⟩,
  ⟨"findFirstDayForward", .date, daySearch,
    "FindFirstDayForward walks forward from `start` and returns the first day meeting the " ++
    "condition."⟩,
  ⟨"findFirstDeletedTime", .date, recordCount,
    "FindFirstDeletedTime returns the date of the first deleted time record in a range."⟩,
  ⟨"findFirstSchedule", .scheduleRecord, recordFind,
    "FindFirstSchedule returns the first schedule record in a range that meets the condition."⟩,
  ⟨"findFirstTime", .number, recordFind,
    "FindFirstTime finds the first time record in a range that meets the condition."⟩,
  ⟨"findFirstTorDetail", .torDetailRecord, recordFind,
    "FindFirstTorDetail returns the first time-off-request detail in a range that meets the " ++
    "condition."⟩,
  ⟨"findNthTime", .time, [
      .required "n" [.number] "one-based position of the record to return",
      rangeParam,
      conditionParam,
      orderParam],
    "FindNthTime returns the nth time record in a range that meets the condition."⟩,
  ⟨"firstConsecutiveDay", .date, consecutive,
    "FirstConsecutiveDay returns the first day of a run of days meeting the condition."⟩,
  ⟨"getAttributeCalculationDate", .date, [],
    "GetAttributeCalculationDate returns the date attributes are being calculated for."⟩,
  ⟨"getBooleanFieldFromTor", .boolean, torLookup,
    "Reads a boolean field from the current time-off request."⟩,
  ⟨"getDateFieldFromTor", .date, torLookup,
    "Reads a date field from the current time-off request."⟩,
  ⟨"getHoliday", .string, [
      .required "date" [.date] "the date to check",
      .optional "calendar" [.string] "holiday calendar; the employee's when omitted"],
    "GetHoliday returns the name of the holiday on a date, or null."⟩,
  ⟨"getNumberFieldFromTor", .number, torLookup,
    "Reads a number field from the current time-off request."⟩,
  ⟨"getPayCurrencyCode", .string, [],
    "GetPayCurrencyCode returns the employee's pay currency code."⟩,
  ⟨"getSelectFieldValueFromTor", .string, torLookup,
    "Reads the selected value of a select field from the current time-off request."⟩,
  ⟨"getStringFieldFromTor", .string, torLookup,
    "Reads a string field from the current time-off request."⟩,
  ⟨"getSysDateByTimezone", .date, [
      .required "timezone" [.string] "the time zone to read the system date in"],
    "GetSysDateByTimezone returns today's date in a time zone."⟩,
  ⟨"if", .any, [
      .required "condition" [.boolean] "the condition to evaluate",
      .required "then" [.any] "the expression to evaluate if the condition is true",
      .required "else" [.any] "the expression to evaluate if the condition is false"],
    "If expressions comprise a check condition, a consequence and an alternative. Both `then` " ++
    "and `else` are mandatory, so every If is an If-Else."⟩,
  ⟨"indexOf", .number, [textParam, .required "search" [.string] "the substring to find"],
    "IndexOf returns the zero-based position of `search` in `text`, or -1."⟩,
  ⟨"lastConsecutiveDay", .date, consecutive,
    "LastConsecutiveDay returns the last day of a run of days meeting the condition."⟩,
  ⟨"ldLookup", .ldRecord, ldLookup,
    "LdLookup finds the labor distribution record matching every column/value pair."⟩,
  ⟨"ldValidate", .boolean, ldLookup,
    "LdValidate returns true when a labor distribution record matches every column/value pair."⟩,
  ⟨"lengthOfService", .number, [
      .required "unit" [.string] "one of \"days\", \"months\" or \"years\"",
      asOfParam],
    "LengthOfService returns how long the employee has been employed."⟩,
  ⟨"longestConsecutiveRange", .dateRange, consecutive,
    "LongestConsecutiveRange returns the longest run of consecutive days meeting the condition."⟩,
  ⟨"makeDate", .date, [
      .required "year" [.number] "four-digit year",
      .required "month" [.number] "month, 1 to 12",
      .required "day" [.number] "day of month"],
    "MakeDate builds a date from its parts."⟩,
  ⟨"makeDateTime", .dateTime, [
      .required "date" [.date] "the date part",
      .required "time" [.time] "the time part"],
    "MakeDateTime combines a date and a time."⟩,
  ⟨"makeDateTimeRange", .dateTimeRange, [
      .required "start" [.dateTime] "start of the range",
      .required "end" [.dateTime] "end of the range"],
    "MakeDateTimeRange builds a range between two date-times."⟩,
  ⟨"max", .number, [.repeating "args" [.number] "list of numbers to compare"],
    "Max returns the largest of its arguments. It takes as many arguments as you like, each any " ++
    "expression that evaluates to a number."⟩,
  ⟨"maxException", .number, recordExpression,
    "MaxException returns the largest value of an expression over exceptions."⟩,
  ⟨"maxSchedule", .number, recordExpression,
    "MaxSchedule returns the largest value of an expression over schedule records."⟩,
  ⟨"maxTime", .number, recordExpression,
    "MaxTime returns the largest value of an expression over time records."⟩,
  ⟨"min", .number, [.repeating "args" [.number] "list of numbers to compare"],
    "Min returns the smallest of its arguments. It takes as many arguments as you like, " ++
    "each any expression that evaluates to a number."⟩,
  ⟨"minException", .number, recordExpression,
    "MinException returns the smallest value of an expression over exceptions."⟩,
  ⟨"minSchedule", .number, recordExpression,
    "MinSchedule returns the smallest value of an expression over schedule records."⟩,
  ⟨"minTime", .number, recordExpression,
    "MinTime returns the smallest value of an expression over time records."⟩,
  ⟨"payCodeInScheduleMap", .boolean, payCodeMap,
    "Returns true when the pay code belongs to the schedule pay code map."⟩,
  ⟨"payCodeInTimeSheetMap", .boolean, payCodeMap,
    "Returns true when the pay code belongs to the timesheet pay code map."⟩,
  ⟨"rangeLookup", .number, [
      .required "table" [.string] "name of the range table",
      .required "value" [.number] "the value to locate in the table's ranges"],
    "RangeLookup returns the result of the range containing `value`."⟩,
  ⟨"round", .number, rounding,
    "Round rounds half away from zero."⟩,
  ⟨"roundDown", .number, rounding,
    "RoundDown rounds toward zero."⟩,
  ⟨"roundToInt", .number, [valueParam],
    "RoundToInt rounds to the nearest whole number."⟩,
  ⟨"roundUp", .number, rounding,
    "RoundUp rounds away from zero."⟩,
  ⟨"semiMonthlyPeriod", .period, [
      .required "date" [.date] "a date inside the wanted period",
      .optional "splitDay" [.number] "last day of the first half; 15 when omitted"],
    "SemiMonthlyPeriod returns the half-month period containing `date`."⟩,
  ⟨"substr", .string, [
      textParam,
      .required "start" [.number] "zero-based start position",
      .optional "length" [.number] "number of characters; to the end when omitted"],
    "Substr returns part of a string."⟩,
  ⟨"sum", .number, [
      .required "interval" interval "the time period to group by",
      .required "range" range "the time period over which to sum",
      .optional "aliasName" [.string] "alias for the interval being evaluated",
      .required "expression" [.number] "this is what will be summed for each qualifying interval",
      .optional "condition" [.boolean]
        "only intervals where this is true are summed; all intervals when omitted"],
    "Sum calculates the sum of a numeric expression repeatedly over `range`."⟩,
  ⟨"sumException", .number, recordExpression,
    "SumException calculates the sum of a numeric expression over exceptions."⟩,
  ⟨"sumSchedule", .number, recordExpression,
    "SumSchedule calculates the sum of a numeric expression over a range of schedule records."⟩,
  ⟨"sumTime", .number, [
      rangeParam,
      .required "sumExpression" [.number]
        "numeric expression summed for each qualifying time slice",
      conditionParam],
    "SumTime calculates the sum of a numeric expression over a range of time records."⟩,
  ⟨"toLowerCase", .string, caseChange,
    "ToLowerCase converts a string to lower case."⟩,
  ⟨"toUpperCase", .string, caseChange,
    "ToUpperCase converts a string to upper case."⟩]

end PayFormula.Catalog
