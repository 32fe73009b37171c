/-!
# Log lines

What a component has to say to its operator is a value, not an effect: operations return the lines
that they log, in order.
-/

namespace ClusterRelay

/-- How serious a line is. -/
inductive Level where
  | debug
  | info
  | warn
  | error
deriving DecidableEq, Repr, Inhabited

def Level.word : Level → String
  | debug => "DEBUG"
  | info => "INFO"
  | warn => "WARN"
  | error => "ERROR"

/-- One line of a log. -/
structure LogLine where
  level : Level
  text : String
deriving DecidableEq, Repr, Inhabited

namespace LogLine

def debug (text : String) : LogLine := ⟨.debug, text⟩
def info (text : String) : LogLine := ⟨.info, text⟩
def warn (text : String) : LogLine := ⟨.warn, text⟩
def error (text : String) : LogLine := ⟨.error, text⟩

/-- The line as it is shown: its level, then its text. -/
def shown (l : LogLine) : String := l.level.word ++ " " ++ l.text

/-- Holds the place of a reason that is not stated. -/
def unstated : String := "<reason>"

end LogLine

/-- What is said on behalf of the link with this name. -/
def aboutLink (link text : String) : String := "[WAN " ++ link ++ "] " ++ text

end ClusterRelay
