import PacketMonitor.Checksum
import PacketMonitor.Text.Utf8

namespace PacketMonitor

/-- Chooses the colour in which a dashboard shows a route. -/
abbrev RouteColor := String → String

/-- Spreads routes over the hues by checksum, at one saturation and lightness. -/
def hueColor : RouteColor := fun route =>
  let hue := (crc32 (Text.Utf8.encode route.toList)).toNat % 360
  s!"hsl({hue}, 60%, 67%)"

end PacketMonitor
