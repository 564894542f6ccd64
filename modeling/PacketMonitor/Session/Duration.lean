namespace PacketMonitor.Session

/-- A length of time in seconds and nanoseconds, each in its machine range. -/
structure Duration where
  seconds : Nat
  nanos : Nat
  seconds_lt : seconds < 0x10000000000000000
  nanos_lt : nanos < 1000000000
  deriving DecidableEq, Repr

namespace Duration

/-- The longest duration. -/
def longest : Duration where
  seconds := 0xFFFFFFFFFFFFFFFF
  nanos := 999999999
  seconds_lt := by decide
  nanos_lt := by decide

/-- The duration of some seconds and nanoseconds. Full seconds among the latter
    are carried, and the longest duration stands for all beyond it. -/
def ofParts (seconds nanos : Nat) : Duration :=
  if hfits : seconds + nanos / 1000000000 < 0x10000000000000000 then
    { seconds := seconds + nanos / 1000000000
      nanos := nanos % 1000000000
      seconds_lt := hfits
      nanos_lt := Nat.mod_lt _ (by decide) }
  else longest

/-- The number of nanoseconds. -/
def toNanos (d : Duration) : Nat := d.seconds * 1000000000 + d.nanos

/-- The number of whole milliseconds. -/
def toMillis (d : Duration) : Nat := d.seconds * 1000 + d.nanos / 1000000

/-- Whether one duration is at most another, seconds first. -/
def isAtMost (a b : Duration) : Bool :=
  a.seconds < b.seconds || (a.seconds == b.seconds && a.nanos ≤ b.nanos)

/-- The shorter of two durations. -/
def shorter (a b : Duration) : Duration :=
  if a.isAtMost b then a else b

/-- Twice a duration, or the longest one. -/
def double (d : Duration) : Duration :=
  ofParts (2 * d.seconds) (2 * d.nanos)

end Duration

/-- A duration of whole milliseconds, which is all that the clock tells apart. -/
structure Interval extends Duration where
  whole : nanos % 1000000 = 0
  deriving DecidableEq, Repr

namespace Interval

/-- An interval of some seconds. -/
def ofSeconds (seconds : UInt64) : Interval where
  seconds := seconds.toNat
  nanos := 0
  seconds_lt := seconds.toNat_lt_size
  nanos_lt := by decide
  whole := by decide

/-- An interval of some milliseconds. -/
def ofMillis (millis : UInt64) : Interval where
  seconds := millis.toNat / 1000
  nanos := millis.toNat % 1000 * 1000000
  seconds_lt := Nat.lt_of_le_of_lt (Nat.div_le_self ..) millis.toNat_lt_size
  nanos_lt := by omega
  whole := Nat.mul_mod_left ..

end Interval

/-- The longest that anything waits for the clock, in milliseconds: thirty years of
    365 days. A longer wait ends when this one does. -/
def longestWait : Nat := 30 * 365 * 24 * 60 * 60 * 1000

end PacketMonitor.Session
