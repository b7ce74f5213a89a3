import NodeGet.Monitoring.LastCache

/-! Dynamic and summary data behind the last-value cache: the two sources, that
each is faithful, and what that says of the multi-last queries. -/
namespace NodeGet.Monitoring
open NodeGet.Core NodeGet.Machine

/-! ### The two sources -/

/-- The parts of a `DynamicMonitoringData`, each a structure or a list. -/
structure DynamicReport where
  part : DynamicDataQueryField → Json
  notText : ∀ f s, part f ≠ .str s

/-- The values of a `DynamicMonitoringSummaryData`; a collector may leave any out. -/
abbrev SummaryReport := DynamicSummaryQueryField → Option Int64

def dynamicSource (fromStr : String → Option Json) : Source DynamicDataQueryField DynamicReport where
  data report f := some (report.part f)
  value := buildDynamicValue
  fromCache := dynamicFromCache
  fromRow := dynamicFromRow fromStr

def summarySource : Source DynamicSummaryQueryField SummaryReport where
  data report f := (report f).map fun n => .num (.int n.toInt)
  value := buildDynamicSummaryValue
  fromCache := summaryFromCache
  fromRow := summaryFromRow

section Runs

def idleReport : DynamicReport where
  part _ := .arr []
  notText _ _ := Json.noConfusion

end Runs

end NodeGet.Monitoring
