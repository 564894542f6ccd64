import PacketMonitor.Session.Duration
import PacketMonitor.Session.Writer

namespace PacketMonitor.Session

/-- How many milliseconds a tick may be late and still count as on time. -/
def tolerance : Nat := 5

/-- When the tick after one that was due and handled at the given times is due.
    A tick that came too late moves all later ones. -/
def nextDue (period due handled : Nat) : Nat :=
  (if due + tolerance < handled then handled else due) + min period longestWait

/-- The end of a keepalive: the messages written and when it was over. -/
structure KeepaliveOutcome where
  writes : List Write
  time : Nat

/-- The messages that reached the node. -/
def KeepaliveOutcome.sent (outcome : KeepaliveOutcome) : List Sent :=
  outcome.writes.filterMap Write.sent?

theorem lt_nextDue (period due handled : Nat) (hperiod : 0 < period) (hdue : due ≤ handled) :
    due < nextDue period due handled := by
  unfold nextDue longestWait
  split <;> omega

/-- Sends a zero byte at every tick until it is told to stop or a message is
    refused, which is the last one then. A message under way is finished first. -/
def keepaliveFrom (period : Nat) (hperiod : 0 < period) (stopAt : Nat) (w : Writer)
    (due now : Nat) : KeepaliveOutcome :=
  let handled := max due now
  if _hstop : stopAt ≤ handled then ⟨[], max now stopAt⟩
  else
    match w.send handled [0] with
    | (_, time, .error _) => ⟨[⟨handled, time, [0], false⟩], time⟩
    | (w, time, .ok sent) =>
      let outcome := keepaliveFrom period hperiod stopAt w (nextDue period due handled) time
      { outcome with writes := sent.write :: outcome.writes }
termination_by stopAt - due
decreasing_by
  have := lt_nextDue period due (max due now) hperiod (Nat.le_max_left _ _)
  have := Nat.le_max_left due now
  omega

/-- Keeps a session alive from a time on. The first tick is one period later, and
    with a period of zero there is none. -/
def keepalive (period stopAt : Nat) (w : Writer) (now : Nat) : KeepaliveOutcome :=
  if hperiod : 0 < period then keepaliveFrom period hperiod stopAt w (now + period) now
  else ⟨[], max now stopAt⟩

/-- What the clock cannot tell any more, in milliseconds since it began: it counts
    seconds as signed numbers of 64 bits. -/
def clockLimit : Nat := 0x8000000000000000 * 1000

/-- Keeps a session alive, unless the clock cannot tell when the first tick is due.
    Then there is no keepalive at all. `origin` is what the clock showed when times
    began to count. -/
def keepalive? (origin period stopAt : Nat) (w : Writer) (now : Nat) : Option KeepaliveOutcome :=
  if 0 < period ∧ clockLimit ≤ origin + now + period then none
  else some (keepalive period stopAt w now)

end PacketMonitor.Session
