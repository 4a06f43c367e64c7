/-!
# Collation

The classic collation compares bytes. Its key is the string itself, and its hash
runs over the key one byte at a time.
-/

namespace Hosted.Collation

/-- The order of two strings: that of their first different byte. -/
def order (s t : List UInt8) : Ordering := compare s t

/-- The key whose byte order is the order of the strings. -/
def key (s : List UInt8) : List UInt8 := s

/-- The hash of the empty string. -/
def hashStart : UInt64 := 0xcbf29ce484222325

/-- The odd factor by which each byte spreads over the hash. -/
def hashFactor : UInt64 := 0x100000001b3

/-- The hash after one more byte. -/
def hashStep (h : UInt64) (b : UInt8) : UInt64 := (h ^^^ b.toUInt64) * hashFactor

/-- The hash of a string. -/
def hash (s : List UInt8) : UInt64 := s.foldl hashStep hashStart

@[simp] theorem hash_nil : hash [] = hashStart := rfl

theorem hash_append (s t : List UInt8) : hash (s ++ t) = t.foldl hashStep (hash s) := by
  simp [hash]

end Hosted.Collation
