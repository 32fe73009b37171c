/-!
# Mutations

What a link carries: one committed change of one entry of a container. The link looks into neither
the key nor the envelope, which holds whatever the peer needs to merge the entry.
-/

namespace ClusterRelay

/-- Two strings of bytes are equal if their bytes are, which the core library decides. -/
instance instDecidableEqBytes : DecidableEq ByteArray := ByteArray.instDecidableEq

/-- One committed change, waiting to be shipped to a peer cluster. -/
structure Mutation where
  container : String
  key : ByteArray
  value : ByteArray
deriving DecidableEq, Inhabited

/-- A mutation that a link has admitted, with its place in the order of admission. -/
structure Parcel where
  serial : Nat
  mutation : Mutation
deriving DecidableEq, Inhabited

end ClusterRelay
