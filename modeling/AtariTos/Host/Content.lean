import AtariTos.Bytes

namespace AtariTos

structure Content where
  size : Nat := 0
  writes : List (Nat × Bytes) := []
deriving DecidableEq, Repr

namespace Content

def empty : Content := {}

def ofBytes (data : Bytes) : Content :=
  ⟨data.size, [(0, data)]⟩

def written? (index : Nat) : Nat × Bytes → Option UInt8
  | (start, data) => if start ≤ index then data[index - start]? else none

def byteAt (content : Content) (index : Nat) : UInt8 :=
  (content.writes.findSome? (written? index)).getD 0

def read (content : Content) (offset count : Nat) : List UInt8 :=
  (List.range (min count (content.size - offset))).map fun i => content.byteAt (offset + i)

/-- Replaces bytes from `offset` on. A gap between the end of the file and `offset` becomes zeros,
and writing nothing leaves the file as it is. -/
def write (content : Content) (offset : Nat) (data : List UInt8) : Content :=
  if data.isEmpty then content
  else ⟨max content.size (offset + data.length), (offset, data.toArray) :: content.writes⟩

def bytes (content : Content) : List UInt8 :=
  content.read 0 content.size

theorem length_read (content : Content) (offset count : Nat) :
    (content.read offset count).length = min count (content.size - offset) := by
  simp only [read, List.length_map, List.length_range]

end Content

end AtariTos
