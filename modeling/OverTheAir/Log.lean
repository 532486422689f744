/-!
# Log — lines of the device log
-/

namespace OverTheAir

inductive LogLevel where
  | debug
  | info
  | warn
  | error
  deriving DecidableEq, Repr

structure LogLine where
  level : LogLevel
  text : String
  deriving DecidableEq, Repr

def LogLevel.name : LogLevel → String
  | debug => "DEBUG"
  | info => "INFO"
  | warn => "WARN"
  | error => "ERROR"

/-- The line as it is printed: level, blank, text. -/
def LogLine.render (l : LogLine) : String := l.level.name ++ " " ++ l.text

end OverTheAir
