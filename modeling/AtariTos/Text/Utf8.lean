namespace AtariTos

namespace Utf8

/-- What a leading byte announces: how many bytes follow, the range of the first of them, and the
bits of the code point in the leading byte. -/
structure Lead where
  more : Nat
  low : UInt8 := 0x80
  high : UInt8 := 0xbf
  bits : Nat

/-- The ranges leave out longer spellings than needed, surrogates, and all beyond the last code
point. -/
def lead? (byte : UInt8) : Option Lead :=
  let bits := byte.toNat
  if byte < 0x80 then some { more := 0, bits }
  else if byte < 0xc2 then none
  else if byte < 0xe0 then some { more := 1, bits := bits % 32 }
  else if byte = 0xe0 then some { more := 2, low := 0xa0, bits := 0 }
  else if byte = 0xed then some { more := 2, high := 0x9f, bits := 13 }
  else if byte < 0xf0 then some { more := 2, bits := bits % 16 }
  else if byte = 0xf0 then some { more := 3, low := 0x90, bits := 0 }
  else if byte < 0xf4 then some { more := 3, bits := bits % 8 }
  else if byte = 0xf4 then some { more := 3, high := 0x8f, bits := 4 }
  else none

/-- Takes `more` bytes, the first between `low` and `high`, and appends six bits of each to
`bits`. -/
def finish (low high : UInt8) (bits : Nat) : Nat → List UInt8 → Option Nat × List UInt8
  | 0, rest => (some bits, rest)
  | _ + 1, [] => (none, [])
  | more + 1, byte :: rest =>
    if low ≤ byte && byte ≤ high then
      finish 0x80 0xbf (64 * bits + byte.toNat % 64) more rest
    else (none, byte :: rest)

def next (byte : UInt8) (rest : List UInt8) : Option Char × List UInt8 :=
  match lead? byte with
  | none => (none, rest)
  | some l =>
    let (value, left) := finish l.low l.high l.bits l.more rest
    (value.map Char.ofNat, left)

theorem length_finish (low high : UInt8) (bits more : Nat) (bytes : List UInt8) :
    (finish low high bits more bytes).2.length ≤ bytes.length := by
  induction bytes generalizing low high bits more with
  | nil => cases more <;> simp [finish]
  | cons byte rest ih =>
    cases more with
    | zero => simp [finish]
    | succ more =>
      rw [finish]
      split
      · exact Nat.le_succ_of_le (ih ..)
      · exact Nat.le_refl _

theorem length_next (byte : UInt8) (rest : List UInt8) :
    (next byte rest).2.length ≤ rest.length := by
  unfold next
  split
  · exact Nat.le_refl _
  · exact length_finish ..

def characters : List UInt8 → List (Option Char)
  | [] => []
  | byte :: rest =>
    (next byte rest).1 :: characters (next byte rest).2
termination_by bytes => bytes.length
decreasing_by exact Nat.lt_succ_of_le (length_next byte rest)

/-- The text, with a replacement character for each one that cannot be read. -/
def decodeLossy (bytes : List UInt8) : String :=
  String.ofList ((characters bytes).map (·.getD '\ufffd'))

def decode? (bytes : List UInt8) : Option String :=
  ((characters bytes).mapM id).map String.ofList

end Utf8

end AtariTos
