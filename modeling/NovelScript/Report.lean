/-!
# Failures told to a person

A failure is reported with what led to it: what was being done, and the causes from near to far.
-/

namespace NovelScript

/-- A failure and its causes, the nearest first. -/
structure Report where
  message : String
  causes : List String := []
deriving DecidableEq

namespace Report

/-- The report on a larger task that failed for this reason. -/
def during (task : String) (report : Report) : Report := ⟨task, report.message :: report.causes⟩

/-- The report on one line. -/
def inline (report : Report) : String := ": ".intercalate (report.message :: report.causes)

/-- Causes on lines of their own, with numbers if there is more than one. -/
def causeLines : List String → List String
  | [] => []
  | [cause] => ["", "Caused by:", "    " ++ cause]
  | causes =>
    "" :: "Caused by:" :: causes.mapIdx fun i cause => s!"    {i}: " ++ cause

/-- The report on lines of its own. -/
def render (report : Report) : String :=
  String.join ((("Error: " ++ report.message) :: causeLines report.causes).map (· ++ "\n"))

end Report
end NovelScript
