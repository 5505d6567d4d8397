/-!
# Fingerprints

A list of light indices is known by a 64-bit hash of it. Different lists may share a hash, so it
finds a candidate and does not decide.
-/

namespace SceneLighting

structure Fingerprint where
  word : UInt64
  deriving DecidableEq

namespace Fingerprint

/-- What makes two lists the same request. -/
inductive Mode where
  /-- The same indices in the same order. -/
  | ordered
  /-- The same indices, each as often, in any order. -/
  | sorted
  deriving DecidableEq

/-- The list that stands for all that are the same request. -/
def Mode.representative : Mode → List Nat → List Nat
  | .ordered, indices => indices
  | .sorted, indices  => indices.mergeSort

/-- Mix one more index into a hash. All sums wrap around. -/
def mix (seed : UInt64) (index : Nat) : UInt64 :=
  seed ^^^ (UInt64.ofNat index + 0x9e3779b9 + seed <<< (6 : UInt64) + seed >>> (2 : UInt64))

def ofIndices (mode : Mode) (indices : List Nat) : Fingerprint :=
  ⟨(mode.representative indices).foldl mix 0⟩

/-- The written form, in hexadecimal without leading zeros. -/
def text (fingerprint : Fingerprint) : String :=
  "0x" ++ String.ofList (Nat.toDigits 16 fingerprint.word.toNat)

end Fingerprint

end SceneLighting
