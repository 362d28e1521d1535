import Recurrence.Failure

/-!
# Choosing a zone

A zone is chosen by name, given as it is, or left out.
-/

namespace Recurrence

/-- The ways to choose a zone. -/
inductive ZoneChoice where
  | default
  | named (name : String)
  | given (zone : Zone)
deriving DecidableEq

namespace ZoneChoice

/-- The chosen zone: the region named after UTC when the choice is left out. -/
def resolve [ZoneDatabase] : ZoneChoice → Except Failure Zone
  | default => .ok (.region .utc)
  | named name =>
    match Zone.ofName? name with
    | some zone => .ok zone
    | none => .error (.unknownZone name)
  | given zone => .ok zone

end ZoneChoice

end Recurrence
