import AtariTos.Bytes

namespace AtariTos

namespace Fixups

def stride : Nat := 254

def fix (base : UInt32) (image : Bytes) (offset : Nat) : Option Bytes :=
  (Bytes.long? image offset).bind fun value => Bytes.setLong? image offset (value + base)

/-- Follows the step bytes from `cursor`, with `count` longwords fixed so far: 1 moves on by 254 and
fixes nothing, 0 ends the table, and any other step moves on that far and fixes the longword there.
The answer is the number of longwords fixed, or the first offset outside the image, with the image as
it was left. -/
def follow (base : UInt32) (cursor count : Nat) (image : Bytes) :
    List UInt8 → Except Nat Nat × Bytes
  | [] => (.ok count, image)
  | step :: rest =>
    if step = 0 then (.ok count, image)
    else if step = 1 then follow base (cursor + stride) count image rest
    else
      match fix base image (cursor + step.toNat) with
      | some fixed => follow base (cursor + step.toNat) (count + 1) fixed rest
      | none => (.error (cursor + step.toNat), image)

/-- Adds `base` to every longword that the table names. A table too short for its first longword
names none. -/
def apply (image : Bytes) (table : List UInt8) (base : UInt32) : Except Nat Nat × Bytes :=
  let first := longOfBytes (table.take 4)
  if table.length < 4 ∨ first = 0 then (.ok 0, image)
  else
    match fix base image first.toNat with
    | some fixed => follow base first.toNat 1 fixed (table.drop 4)
    | none => (.error first.toNat, image)

end Fixups

end AtariTos
