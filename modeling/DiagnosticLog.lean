import DiagnosticLog.Script.Flat
import DiagnosticLog.Session
import DiagnosticLog.Text.JsonValue
import DiagnosticLog.Trap.Calls
import DiagnosticLog.Trap.Reading
import DiagnosticLog.Proofs.Stages
import DiagnosticLog.Turn
import DiagnosticLog.Proofs.Limiting
import DiagnosticLog.Proofs.Records
import DiagnosticLog.Proofs.Text.Utf8
import DiagnosticLog.Proofs.Text.Scanning
import DiagnosticLog.Proofs.TrapText
import DiagnosticLog.Proofs.Sinks
import DiagnosticLog.Proofs.TextualWriter
import DiagnosticLog.Proofs.Text.Json
import DiagnosticLog.Proofs.Programs
import DiagnosticLog.Proofs.Turns
import DiagnosticLog.Proofs.Lockstep
import DiagnosticLog.Proofs.Mirrors
import DiagnosticLog.Proofs.LogLines
import DiagnosticLog.Proofs.Schedules
import DiagnosticLog.Proofs.JsonLog
import DiagnosticLog.Proofs.Agreement
import DiagnosticLog.Proofs.Scopes
import DiagnosticLog.Proofs.Numbering
import DiagnosticLog.Proofs.Notices
import DiagnosticLog.Proofs.IdleCalls
import DiagnosticLog.Proofs.Verbosity
import DiagnosticLog.Proofs.Effects
import DiagnosticLog.Proofs.Isolation
import DiagnosticLog.Proofs.LogFaults
import DiagnosticLog.Proofs.Locations
import DiagnosticLog.Proofs.BufferLines
import DiagnosticLog.Proofs.Associations
import DiagnosticLog.Proofs.Capacity
import DiagnosticLog.Proofs.FullDisk
import DiagnosticLog.Proofs.LoggerKinds
import DiagnosticLog.Proofs.Origins
import DiagnosticLog.Proofs.Text.Numerals
import DiagnosticLog.Proofs.Variables
import DiagnosticLog.Proofs.Delivery
