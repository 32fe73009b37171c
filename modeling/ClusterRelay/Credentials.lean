import ClusterRelay.Text.Quoted

/-!
# Credentials

The identity that a link presents to its peer: a group and the group's password. The text for
diagnostics never shows the password.
-/

namespace ClusterRelay

/-- A group and its password. -/
structure Credentials where
  group : String
  password : String
deriving DecidableEq, Repr, Inhabited

namespace Credentials

/-- The text for diagnostics. It is the same for all passwords. -/
def diagnostic (c : Credentials) : String :=
  "LinkCredentials \x7b group_name: " ++ Text.quoted c.group ++ ", password: \"<redacted>\" \x7d"

end Credentials

end ClusterRelay
