/-!
# The number of active users

A run shares one counter of the users that are at work, a 32-bit word that
wraps.  A user raises it when it starts and lowers it when it stops, whatever it
stopped for, so a finished run leaves it where it was.

* `Active.leave_enter`: raising and lowering cancel.
-/

namespace ShardLoad

/-- How many users are at work. -/
structure Active where
  count : UInt32
  deriving Repr, DecidableEq

namespace Active

/-- Nobody is at work. -/
def none : Active := ⟨0⟩

/-- A user starts. -/
def enter (a : Active) : Active := ⟨a.count + 1⟩

/-- A user stops. -/
def leave (a : Active) : Active := ⟨a.count - 1⟩

/-- A user that has started and stopped leaves no trace. -/
@[simp] theorem leave_enter (a : Active) : a.enter.leave = a := by
  simp [enter, leave]

end Active
end ShardLoad
