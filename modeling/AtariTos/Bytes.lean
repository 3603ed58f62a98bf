namespace AtariTos

abbrev Bytes := Array UInt8

/-- The longword spelled by at most four bytes, most significant first. -/
def longOfBytes (bytes : List UInt8) : UInt32 :=
  bytes.foldl (fun value byte => value <<< 8 ||| byte.toUInt32) 0

def wordOfBytes (bytes : List UInt8) : UInt16 :=
  (longOfBytes bytes).toUInt16

def bytesOfWord (value : UInt16) : List UInt8 :=
  [(value >>> 8).toUInt8, value.toUInt8]

def bytesOfLong (value : UInt32) : List UInt8 :=
  [(value >>> 24).toUInt8, (value >>> 16).toUInt8, (value >>> 8).toUInt8, value.toUInt8]

inductive Width where
  | byte
  | word
  | long
deriving DecidableEq, Repr

namespace Width

def bytes : Width → Nat
  | byte => 1
  | word => 2
  | long => 4

/-- The bytes an access of this width stores; higher bits of the value are dropped. -/
def encode (width : Width) (value : UInt32) : List UInt8 :=
  (bytesOfLong value).drop (4 - width.bytes)

theorem encode_length (width : Width) (value : UInt32) :
    (width.encode value).length = width.bytes := by
  cases width <;> rfl

end Width

namespace Bytes

def slice? (buffer : Bytes) (offset count : Nat) : Option (List UInt8) :=
  if offset + count ≤ buffer.size then some (buffer.extract offset (offset + count)).toList
  else none

/-- Stores bytes from `offset` on; those that fall outside the buffer are dropped. -/
def overwrite (buffer : Bytes) (offset : Nat) : List UInt8 → Bytes
  | [] => buffer
  | byte :: rest => overwrite (buffer.setIfInBounds offset byte) (offset + 1) rest

theorem size_overwrite (buffer : Bytes) (offset : Nat) (data : List UInt8) :
    (overwrite buffer offset data).size = buffer.size := by
  induction data generalizing buffer offset with
  | nil => rfl
  | cons byte rest ih => rw [overwrite, ih, Array.size_setIfInBounds]

def store? (buffer : Bytes) (offset : Nat) (data : List UInt8) : Option Bytes :=
  if offset + data.length ≤ buffer.size then some (overwrite buffer offset data) else none

def word? (buffer : Bytes) (offset : Nat) : Option UInt16 :=
  (slice? buffer offset 2).map wordOfBytes

def long? (buffer : Bytes) (offset : Nat) : Option UInt32 :=
  (slice? buffer offset 4).map longOfBytes

def setWord? (buffer : Bytes) (offset : Nat) (value : UInt16) : Option Bytes :=
  store? buffer offset (bytesOfWord value)

def setLong? (buffer : Bytes) (offset : Nat) (value : UInt32) : Option Bytes :=
  store? buffer offset (bytesOfLong value)

end Bytes

/-- Exchanges guest order and the order of a little-endian host. -/
def swapWord (value : UInt16) : UInt16 :=
  wordOfBytes (bytesOfWord value).reverse

def swapLong (value : UInt32) : UInt32 :=
  longOfBytes (bytesOfLong value).reverse

end AtariTos
