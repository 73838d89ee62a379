import DiagnosticLog.Journal
import DiagnosticLog.Text.Lines
import DiagnosticLog.Text.Utf8

/-! Bytes kept in memory and read as text while they are written. -/

namespace DiagnosticLog

structure TextBuffer where
  written : Journal UInt8 := .empty
  deriving DecidableEq

namespace TextBuffer

def write (b : TextBuffer) (bytes : List UInt8) : TextBuffer :=
  { b with written := b.written.append bytes }

def clear (_ : TextBuffer) : TextBuffer := {}

/-- Everything written since the buffer was empty. -/
def bytes (b : TextBuffer) : List UInt8 := b.written.toList

/-- The text of everything written since the buffer was empty. -/
def contents (b : TextBuffer) : String := Utf8.decode b.bytes

/-- The lines of the text. -/
def lines (b : TextBuffer) : List String := Lines.ofString b.contents

theorem bytes_write (b : TextBuffer) (bytes : List UInt8) :
    (b.write bytes).bytes = b.bytes ++ bytes := by
  simp [TextBuffer.bytes, write]

end TextBuffer

end DiagnosticLog
