import AtariTos.Proofs.BigEndian
import AtariTos.Proofs.ProgramLayout
import Mathlib.Data.List.TakeWhile

namespace AtariTos

namespace Fixups

/-- The offsets that step bytes name behind `cursor`. -/
def offsetsFrom (cursor : Nat) : List UInt8 → List Nat
  | [] => []
  | step :: rest =>
    if step = 0 then []
    else if step = 1 then offsetsFrom (cursor + 254) rest
    else (cursor + step.toNat) :: offsetsFrom (cursor + step.toNat) rest

/-- The offsets that a table names, in its order. -/
def offsets (table : List UInt8) : List Nat :=
  let first := bigEndian (table.take 4)
  if table.length < 4 ∨ first = 0 then [] else first :: offsetsFrom first (table.drop 4)

/-- Adds a base to the longword at an offset. -/
def addAt (base : UInt32) (image : Bytes) (offset : Nat) : Bytes :=
  Bytes.overwrite image offset
    (bytesOfLong (longOfBytes (image.extract offset (offset + 4)).toList + base))

def relocated (base : UInt32) (image : Bytes) (offsets : List Nat) : Bytes :=
  offsets.foldl (addAt base) image

/-- What fixing an image of so many bytes answers: the number of offsets, after `count` of them, or
the first one whose longword is not inside. -/
def verdict (size count : Nat) (offsets : List Nat) : Except Nat Nat :=
  match offsets.find? (size < · + 4) with
  | none => .ok (count + offsets.length)
  | some offset => .error offset

def leading (size : Nat) (offsets : List Nat) : List Nat :=
  offsets.takeWhile (· + 4 ≤ size)

variable {base : UInt32} {image : Bytes} {size count offset : Nat} {offsets : List Nat}

theorem size_addAt (base : UInt32) (image : Bytes) (offset : Nat) :
    (addAt base image offset).size = image.size :=
  Bytes.size_overwrite _ _ _

theorem size_relocated (base : UInt32) (image : Bytes) (offsets : List Nat) :
    (relocated base image offsets).size = image.size := by
  induction offsets generalizing image with
  | nil => rfl
  | cons offset rest ih =>
    exact (ih (addAt base image offset)).trans (size_addAt base image offset)

theorem verdict_cons_of_inside (inside : offset + 4 ≤ size) :
    verdict size count (offset :: offsets) = verdict size (count + 1) offsets := by
  rw [verdict, List.find?_cons_of_neg (by simpa using inside), verdict]
  cases offsets.find? (size < · + 4) with
  | none =>
    dsimp only
    rw [List.length_cons, Nat.add_assoc, Nat.add_comm 1]
  | some outside => rfl

theorem verdict_cons_of_outside (outside : size < offset + 4) :
    verdict size count (offset :: offsets) = .error offset := by
  rw [verdict, List.find?_cons_of_pos (by simpa using outside)]

theorem verdict_eq_ok_iff {total : Nat} : verdict size count offsets = .ok total ↔
    (∀ offset ∈ offsets, offset + 4 ≤ size) ∧ total = count + offsets.length := by
  unfold verdict
  cases found : offsets.find? (size < · + 4) with
  | none =>
    have inside : ∀ offset ∈ offsets, offset + 4 ≤ size := by
      simpa using List.find?_eq_none.mp found
    simp only [Except.ok.injEq]
    exact ⟨fun h => ⟨inside, h.symm⟩, fun h => h.2.symm⟩
  | some offset =>
    have outside : size < offset + 4 := by simpa using List.find?_some found
    have member := List.mem_of_find?_eq_some found
    simp only [reduceCtorEq, false_iff]
    rintro ⟨inside, _⟩
    have := inside offset member
    omega

theorem leading_eq_self (inside : ∀ offset ∈ offsets, offset + 4 ≤ size) :
    leading size offsets = offsets :=
  List.takeWhile_eq_self_iff.mpr fun offset member => by simpa using inside offset member

theorem fix_eq (base : UInt32) (image : Bytes) (offset : Nat) :
    fix base image offset =
      if offset + 4 ≤ image.size then some (addAt base image offset) else none := by
  unfold fix Bytes.long? Bytes.slice?
  split
  next inside =>
    rw [Option.map_some, Option.bind_some]
    exact if_pos inside
  · rfl

/-- What fixing the longwords at some offsets in turn answers, and the image that it leaves. -/
def fixed (base : UInt32) (image : Bytes) (count : Nat) (offsets : List Nat) :
    Except Nat Nat × Bytes :=
  (verdict image.size count offsets, relocated base image (leading image.size offsets))

theorem fixed_cons (base : UInt32) (image : Bytes) (count offset : Nat) (offsets : List Nat) :
    fixed base image count (offset :: offsets) =
      match fix base image offset with
      | some next => fixed base next (count + 1) offsets
      | none => (.error offset, image) := by
  rw [fix_eq, fixed, leading]
  by_cases inside : offset + 4 ≤ image.size
  · rw [if_pos inside, verdict_cons_of_inside inside,
      List.takeWhile_cons_of_pos (by simpa using inside)]
    dsimp only
    rw [fixed, size_addAt]
    rfl
  · rw [if_neg inside, verdict_cons_of_outside (Nat.not_le.mp inside),
      List.takeWhile_cons_of_neg (by simpa using inside)]
    rfl

/-- Fixing while moving on is the same as naming the offsets first and fixing them afterwards. -/
theorem follow_eq (cursor count : Nat) (image : Bytes) (steps : List UInt8) :
    follow base cursor count image steps = fixed base image count (offsetsFrom cursor steps) := by
  induction steps generalizing cursor count image with
  | nil => rfl
  | cons step rest ih =>
    rw [follow, offsetsFrom]
    split
    · rfl
    split
    · exact ih _ _ _
    rw [fixed_cons]
    cases fix base image (cursor + step.toNat) with
    | none => rfl
    | some next => exact ih _ _ _

theorem apply_eq (image : Bytes) (table : List UInt8) (base : UInt32) :
    apply image table base = fixed base image 0 (Fixups.offsets table) := by
  have number : (longOfBytes (table.take 4)).toNat = bigEndian (table.take 4) :=
    toNat_longOfBytes (List.length_take_le 4 table)
  have none_iff : table.length < 4 ∨ longOfBytes (table.take 4) = 0 ↔
      table.length < 4 ∨ bigEndian (table.take 4) = 0 := by
    rw [← number, ← UInt32.toNat_inj]
    rfl
  unfold apply Fixups.offsets
  dsimp only
  simp only [none_iff, number]
  split
  · rfl
  rw [fixed_cons]
  cases fix base image (bigEndian (table.take 4)) with
  | none => rfl
  | some next => exact follow_eq _ _ _ _

-- the step byte 1 names no offset, and nothing counts behind the first zero
example : Fixups.offsets [0, 0, 0, 4, 1, 6, 8, 0, 2] = [4, 0x108, 0x110] := by
  decide

end Fixups

end AtariTos
