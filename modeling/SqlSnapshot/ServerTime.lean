import SqlSnapshot.Timestamp

/-!
# Server time

A server gives modify dates in its own local time, together with the distance of its clocks from
UTC in minutes.
-/

namespace SqlSnapshot.ServerTime

/-- Seconds east of UTC; none if that is a day or more. -/
def offset? (minutes : Int) : Option Int :=
  if Timestamp.isOffset (minutes * 60) then some (minutes * 60) else none

def offsetMessage (minutes : Int) : String :=
  s!"server UTC offset out of range: {minutes} minutes"

/-- The instant of a local date, if there is a date. -/
def toUtc (date : Option Timestamp) (offset : Int) : Option Timestamp :=
  date.bind fun d => d.atOffset? offset

end SqlSnapshot.ServerTime
