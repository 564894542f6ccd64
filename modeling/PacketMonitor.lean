import PacketMonitor.Dashboard.Routes
import PacketMonitor.Main
import PacketMonitor.Proofs.CommandLine.Effective
import PacketMonitor.Proofs.Config.Commands
import PacketMonitor.Proofs.Dashboard.Relay
import PacketMonitor.Proofs.Event.Arrangement
import PacketMonitor.Proofs.Event.Ports
import PacketMonitor.Proofs.Frame
import PacketMonitor.Proofs.Hub.Departures
import PacketMonitor.Proofs.LogLine
import PacketMonitor.Proofs.Publication
import PacketMonitor.Proofs.Session.Cancellation
import PacketMonitor.Proofs.Session.Isolation
import PacketMonitor.Proofs.Session.Login
import PacketMonitor.Proofs.Session.LostLine
import PacketMonitor.Proofs.Session.Supervision
import PacketMonitor.Proofs.Stream.Passage
import PacketMonitor.Proofs.Stream.Resumption
import PacketMonitor.Proofs.Telemetry.Beacon
import PacketMonitor.Proofs.Telemetry.Elapsed
import PacketMonitor.Proofs.Telemetry.Numbers
import PacketMonitor.Proofs.Telemetry.Scraps
import PacketMonitor.Proofs.Telemetry.Truncation
