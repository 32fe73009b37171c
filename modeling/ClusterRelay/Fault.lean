import ClusterRelay.Text.Numeral
import ClusterRelay.Text.Quoted

/-!
# Faults

Everything that can go wrong is a `Fault`. A fault has a `kind`, one short word for counters and
log records, and a `message`, one line for people. A `Crash` is different: it is what is left of a
collaborator that broke down instead of answering, and all that is known of it is the text it may
have left behind. Whoever calls such a collaborator turns the crash into a fault of its own.
-/

namespace ClusterRelay

/-- Why an operation was given up. -/
inductive Fault where
  /-- The settings contradict themselves or ask for the impossible. -/
  | settings (why : String)
  /-- A configured target is no address. -/
  | target (raw why : String)
  | encoding (why : String)
  | decoding (why : String)
  /-- A frame would be longer than allowed. -/
  | oversize (size limit : Nat)
  | io (why : String)
  | transport (why : String)
  | json (why : String)
  /-- A peer did not show the credentials of the group. -/
  | authentication (group : String)
deriving DecidableEq, Repr, Inhabited

namespace Fault

/-- One word that classifies the fault. -/
def kind : Fault → String
  | settings _ => "config"
  | target _ _ => "invalid_target"
  | encoding _ => "encode"
  | decoding _ => "decode"
  | oversize _ _ => "frame_too_large"
  | io _ => "io"
  | transport _ => "transport"
  | json _ => "json"
  | authentication _ => "authentication"

def message : Fault → String
  | settings why => "Configuration error: " ++ why
  | target raw why => "Invalid target address '" ++ raw ++ "': " ++ why
  | encoding why => "Encode error: " ++ why
  | decoding why => "Decode error: " ++ why
  | oversize size limit =>
    "Frame of " ++ Text.decimal size ++ " bytes exceeds max " ++ Text.decimal limit ++ " bytes"
  | io why => "IO error: " ++ why
  | transport why => "Transport error: " ++ why
  | json why => "JSON error: " ++ why
  | authentication group => "Authentication failed for group " ++ group

/-- The description kept as a link's last fault: the kind, then the message. -/
def description (f : Fault) : String :=
  f.kind ++ ": " ++ f.message

end Fault

/-- The remains of a collaborator that broke down; it left a text, or something else. -/
structure Crash where
  text? : Option String
deriving DecidableEq, Repr, Inhabited

namespace Crash

/-- The text that the crash left, or a phrase that says there was none. -/
def message (c : Crash) : String :=
  c.text?.getD "non-string panic payload"

/-- The fault of a transport whose `activity` ended in this crash. -/
def asFault (c : Crash) (activity : String) : Fault :=
  .transport (activity ++ " panicked: " ++ c.message)

end Crash

end ClusterRelay
