import AtariTos.Proofs.FixupOffsets

namespace AtariTos

namespace Bytes

/-- The number that some bytes of a buffer spell, as far as it reaches. -/
def number (buffer : Bytes) (offset count : Nat) : Nat :=
  bigEndian (buffer.extract offset (offset + count)).toList

variable {buffer : Bytes} {offset count : Nat}

theorem length_cut (buffer : Bytes) (offset count : Nat) :
    (buffer.extract offset (offset + count)).toList.length ≤ count := by
  rw [Array.length_toList, Array.size_extract]
  omega

theorem number_lt (buffer : Bytes) (offset count : Nat) :
    number buffer offset count < 256 ^ count :=
  Nat.lt_of_lt_of_le (bigEndian_lt _)
    (Nat.pow_le_pow_right (by omega) (length_cut buffer offset count))

theorem long?_eq (fits : offset + 4 ≤ buffer.size) :
    long? buffer offset = some (number buffer offset 4).toUInt32 := by
  rw [long?, slice?, if_pos fits, Option.map_some, number,
    ← toNat_longOfBytes (length_cut buffer offset 4)]
  exact congrArg some UInt32.ofNat_toNat.symm

theorem word?_eq (fits : offset + 2 ≤ buffer.size) :
    word? buffer offset = some (number buffer offset 2).toUInt16 := by
  have short := Nat.le_trans (length_cut buffer offset 2) (by omega : 2 ≤ 4)
  rw [word?, slice?, if_pos fits, Option.map_some, number, ← toNat_longOfBytes short, wordOfBytes]
  rfl

end Bytes

namespace Executable

def header (file : Bytes) : Header :=
  ⟨(Bytes.number file 0 2).toUInt16, (Bytes.number file 2 4).toUInt32,
    (Bytes.number file 6 4).toUInt32, (Bytes.number file 10 4).toUInt32,
    (Bytes.number file 14 4).toUInt32, (Bytes.number file 18 4).toUInt32,
    (Bytes.number file 22 4).toUInt32, (Bytes.number file 26 2).toUInt16⟩

def mark (file : Bytes) : Nat :=
  Bytes.number file 0 2

def text (file : Bytes) : Nat :=
  Bytes.number file 2 4

def data (file : Bytes) : Nat :=
  Bytes.number file 6 4

def bss (file : Bytes) : Nat :=
  Bytes.number file 10 4

def symbols (file : Bytes) : Nat :=
  Bytes.number file 14 4

/-- Zero in a program that has to be relocated. -/
def absolute (file : Bytes) : Nat :=
  Bytes.number file 26 2

def stored (file : Bytes) : Bytes :=
  file.extract 28 (28 + (text file + data file))

/-- Everything behind text, data and symbols. -/
def table (file : Bytes) : List UInt8 :=
  (file.extract (28 + (text file + data file) + symbols file) file.size).toList

/-- The offsets at which text and data are to be fixed. -/
def fixups (file : Bytes) : List Nat :=
  if absolute file = 0 then Fixups.offsets (table file) else []

variable {file : Bytes}

theorem size_stored (complete : text file + data file ≤ file.size - 28) :
    (stored file).size = text file + data file := by
  rw [stored, Array.size_extract]
  omega

theorem toNat_long (file : Bytes) (offset : Nat) :
    (Bytes.number file offset 4).toUInt32.toNat = Bytes.number file offset 4 :=
  UInt32.toNat_ofNat_of_lt' (Bytes.number_lt file offset 4)

theorem toUInt16_eq_iff {word : UInt16} (file : Bytes) (offset : Nat) :
    (Bytes.number file offset 2).toUInt16 = word ↔ Bytes.number file offset 2 = word.toNat := by
  rw [← UInt16.toNat_inj]
  exact iff_of_eq (congrArg (· = word.toNat)
    (UInt16.toNat_ofNat_of_lt' (Bytes.number_lt file offset 2)))

theorem loadLength_header (file : Bytes) :
    (header file).loadLength = text file + data file :=
  congrArg₂ (· + ·) (toNat_long file 2) (toNat_long file 6)

theorem imageLength_header (file : Bytes) :
    (header file).imageLength = text file + data file + bss file :=
  congrArg₂ (· + ·) (loadLength_header file) (toNat_long file 10)

theorem tableStart_header (file : Bytes) :
    (header file).tableStart = 28 + (text file + data file) + symbols file := by
  rw [Header.tableStart, loadLength_header]
  exact congrArg _ (toNat_long file 14)

theorem hasFixups_header (file : Bytes) :
    (header file).hasFixups = decide (absolute file = 0) :=
  decide_eq_decide.mpr (toUInt16_eq_iff file 26)

theorem parse_eq (file : Bytes) : Header.parse file =
    if file.size < 28 then .error (.short file.size)
    else if mark file ≠ 0x601a then .error (.wrongMark (mark file).toUInt16)
    else .ok (header file) := by
  unfold Header.parse
  dsimp only
  by_cases short : file.size < 28
  · rw [if_pos short]
    exact if_pos short
  have reach : 28 ≤ file.size := Nat.not_lt.mp short
  have whole : ¬file.size < headerLen := short
  rw [if_neg short, if_neg whole]
  simp (disch := omega) only [Bytes.word?_eq, Bytes.long?_eq, Option.getD_some]
  by_cases marked : mark file = 0x601a
  · have same : (Bytes.number file 0 2).toUInt16 = executableMagic :=
      (toUInt16_eq_iff file 0).mpr marked
    rw [if_neg (not_not.mpr marked), if_neg (not_not.mpr same)]
    rfl
  · have other : (Bytes.number file 0 2).toUInt16 ≠ executableMagic :=
      fun same => marked ((toUInt16_eq_iff file 0).mp same)
    rw [if_pos marked, if_pos other]
    rfl

theorem segments_eq (complete : text file + data file ≤ file.size - 28) :
    LoadedProgram.segments file (header file) =
      match Fixups.verdict (text file + data file) 0 (fixups file) with
      | .ok count => .ok (Fixups.relocated 0x900 (stored file) (fixups file), count)
      | .error offset => .error (.fixupOutside offset) := by
  have size := size_stored complete
  rw [LoadedProgram.segments, hasFixups_header, loadLength_header, tableStart_header, fixups]
  dsimp only
  by_cases relative : absolute file = 0
  · rw [if_pos relative, if_pos (decide_eq_true relative)]
    have applied : Fixups.apply
        (file.extract headerLen (headerLen + (text file + data file)))
        (file.extract (28 + (text file + data file) + symbols file) file.size).toList
        MemoryMap.userStart = Fixups.fixed 0x900 (stored file) 0 (Fixups.offsets (table file)) :=
      Fixups.apply_eq (stored file) (table file) 0x900
    rw [applied, Fixups.fixed, size]
    cases judged : Fixups.verdict (text file + data file) 0 (Fixups.offsets (table file)) with
    | error offset => rfl
    | ok count => rw [Fixups.leading_eq_self (Fixups.verdict_eq_ok_iff.mp judged).1]
  · rw [if_neg relative, if_neg (by simpa using relative)]
    rfl

end Executable

end AtariTos
