/-!
# Big-endian words

Lengths travel as unsigned words of two or four bytes, most significant byte first.
-/

namespace ClusterRelay.Wire

/-- The low sixteen bits of a number as two bytes. -/
def word16 (n : Nat) : ByteArray :=
  ⟨#[(n / 256).toUInt8, n.toUInt8]⟩

/-- The low thirty-two bits of a number as four bytes. -/
def word32 (n : Nat) : ByteArray :=
  ⟨#[(n / 16777216).toUInt8, (n / 65536).toUInt8, (n / 256).toUInt8, n.toUInt8]⟩

/-- The number that a string of bytes denotes, most significant byte first. -/
def number (bytes : ByteArray) : Nat :=
  bytes.data.toList.foldl (fun n b => 256 * n + b.toNat) 0

@[simp] theorem size_word16 (n : Nat) : (word16 n).size = 2 := rfl

@[simp] theorem size_word32 (n : Nat) : (word32 n).size = 4 := rfl

theorem number_word16 {n : Nat} (h : n < 65536) : number (word16 n) = n := by
  simp [number, word16]
  omega

theorem number_word32 {n : Nat} (h : n < 4294967296) : number (word32 n) = n := by
  simp [number, word32]
  omega

end ClusterRelay.Wire
