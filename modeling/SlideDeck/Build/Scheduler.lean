import SlideDeck.Text.Basic

/-!
# The schedule of rebuilds

Rebuilds run one at a time. While one runs, any number of requests collapse into
one more, which the worker starts when the current one is finished.
-/

set_option autoImplicit false

namespace SlideDeck.Build

/-- Whether a rebuild is running, and whether another is wanted behind it. -/
structure Schedule where
  running : Bool := false
  pending : Bool := false
  deriving DecidableEq, Repr

namespace Schedule

/-- Asks for a rebuild. The answer tells the caller to start one. -/
def request (schedule : Schedule) : Bool × Schedule :=
  if schedule.running then (false, { schedule with pending := true })
  else (true, { schedule with running := true })

/-- Ends the current rebuild. The answer tells the caller to start another. -/
def finish (schedule : Schedule) : Bool × Schedule :=
  if schedule.pending then (true, { schedule with pending := false })
  else (false, { schedule with running := false })

end Schedule

end SlideDeck.Build
