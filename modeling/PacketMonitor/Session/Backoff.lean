import PacketMonitor.Session.Duration

namespace PacketMonitor.Session

/-- The delays between attempts to connect: each twice the one before, up to a
    limit. -/
structure Backoff where
  initial : Duration
  limit : Duration
  current : Duration
  deriving DecidableEq, Repr

namespace Backoff

/-- Starts with an initial delay, or with the limit if that is shorter. -/
def start (initial limit : Duration) : Backoff :=
  let initial := initial.shorter limit
  { initial, limit, current := initial }

/-- The delay to wait now and the sequence after it. -/
def next (b : Backoff) : Duration × Backoff :=
  (b.current, { b with current := b.current.double.shorter b.limit })

/-- Starts again from the initial delay. -/
def reset (b : Backoff) : Backoff :=
  { b with current := b.initial }

end Backoff

end PacketMonitor.Session
