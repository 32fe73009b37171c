import ClusterRelay.Fault
import ClusterRelay.Journal

/-!
# How the program ends

A run of the program ends with an exit code, what it prints to its output, and, if it gave up, a
complaint. On the way it makes remarks: lines of its own, and the notes of the links at work.
-/

namespace ClusterRelay.CommandLine

/-- Why the program gave up. -/
inductive Complaint where
  | settings (why : String)
  | target (raw why : String)
  /-- Something else, which is not told. -/
  | other
deriving DecidableEq, Repr

namespace Complaint

def ofFault : Fault → Complaint
  | .settings why => .settings why
  | .target raw why => .target raw why
  | _ => .other

def shown : Complaint → String
  | settings why => "Error: Config(" ++ Text.quoted why ++ ")"
  | target raw why =>
    "Error: InvalidTarget \x7b target: " ++ Text.quoted raw ++ ", reason: " ++ Text.quoted why ++
      " \x7d"
  | other => "Error: <other>"

end Complaint

/-- The end of a run of the program. -/
structure Exit where
  code : UInt32
  output : String := ""
  complaint? : Option Complaint := none
deriving DecidableEq, Repr

namespace Exit

def failure (c : Complaint) : Exit := { code := 1, complaint? := some c }

/-- The words on the command line made no sense. -/
def misuse : Exit := { code := 2 }

/-- A crash that nobody caught. -/
def crashed : Exit := { code := 101 }

/-- A clock could not count as far as it was asked to, and crashed. -/
def beyondClock : Exit := crashed

end Exit

/-- What is remarked in a run of the program. -/
inductive Remark where
  | own (line : LogLine)
  /-- What happened to a link, or to a part of the library. -/
  | noted (note : Note)

namespace Remark

def line? : Remark → Option LogLine
  | own line => some line
  | noted note => note.line?

/-- The line of the program itself, if the remark is one. -/
def own? : Remark → Option LogLine
  | own line => some line
  | noted _ => none

/-- The remarks that a part of the library makes by logging lines. -/
def ofLines (lines : List LogLine) : List Remark := lines.map fun l => noted (.logged l)

end Remark

end ClusterRelay.CommandLine
