import AtariTos.Proofs.LoadOutcomes

namespace AtariTos

namespace Checked

/-- A sum that fits a number of so many bits. -/
def add? (bits a b : Nat) : Option Nat :=
  if a + b < 2 ^ bits then some (a + b) else none

def sub? (a b : Nat) : Option Nat :=
  if b ≤ a then some (a - b) else none

def cut? (buffer : Bytes) (start stop : Nat) : Option Bytes :=
  if start ≤ stop ∧ stop ≤ buffer.size then some (buffer.extract start stop) else none

def room? (buffer : Bytes) (offset count : Nat) : Option Bytes := do
  let stop ← add? 64 offset count
  cut? buffer offset stop

def follow? (base : UInt32) (cursor count : Nat) (image : Bytes) :
    List UInt8 → Option (Except Nat Nat × Bytes)
  | [] => some (.ok count, image)
  | step :: rest =>
    if step = 0 then some (.ok count, image)
    else if step = 1 then do
      let next ← add? 64 cursor Fixups.stride
      follow? base next count image rest
    else do
      let next ← add? 64 cursor step.toNat
      match Fixups.fix base image next with
      | some fixed =>
        let total ← add? 64 count 1
        follow? base next total fixed rest
      | none => some (.error next, image)

def applied? (image : Bytes) (table : List UInt8) (base : UInt32) :
    Option (Except Nat Nat × Bytes) :=
  let first := longOfBytes (table.take 4)
  if table.length < 4 ∨ first = 0 then some (.ok 0, image)
  else
    match Fixups.fix base image first.toNat with
    | some fixed => do
      let steps ← cut? table.toArray 4 table.length
      follow? base first.toNat 1 fixed steps.toList
    | none => some (.error first.toNat, image)

def segments? (file : Bytes) (header : Header) (loadLength : Nat) (userMemory : Bytes) :
    Option (Except LoadFailure (Bytes × Nat)) := do
  let stored ← room? file headerLen loadLength
  let target ← room? userMemory 0 loadLength
  guard (target.size = stored.size)
  if header.hasFixups then do
    let symbols ← add? 64 headerLen loadLength
    let start ← add? 64 symbols header.symbols.toNat
    let table := (file.extract start file.size).toList
    match ← applied? stored table MemoryMap.userStart with
    | (.ok count, fixed) => some (.ok (fixed, count))
    | (.error offset, _) => some (.error (.fixupOutside offset))
  else some (.ok (stored, 0))

def ofFile? (file : Bytes) (args : List String) (ramTop : UInt32) :
    Option (Except LoadFailure (LoadedProgram × GuestMemory)) :=
  match Header.parse file with
  | .error cause => some (.error (.badHeader cause))
  | .ok header => do
    let loadLength ← add? 64 header.text.toNat header.data.toNat
    let payload ← sub? file.size headerLen
    if payload < loadLength then some (.error (.incomplete loadLength payload))
    else do
      let heapTop := MemoryMap.userLen ramTop
      let available := MemoryMap.userLen heapTop
      let imageLength ← add? 64 loadLength header.bss.toNat
      if available.toNat < imageLength then some (.error (.noRoom imageLength available))
      else do
        match ← segments? file header loadLength (LoadedProgram.zeros heapTop.toNat) with
        | .error failure => some (.error failure)
        | .ok (stored, fixups) => do
          let basepage := LoadedProgram.initialBasepage header args ramTop
          -- the command line starts with a byte for its length
          let tail ← room? (LoadedProgram.zeros 128) 1 (Basepage.commandTail args).length
          guard (tail.size = (Basepage.commandTail args).length)
          match GuestMemory.empty.addAll (LoadedProgram.areas basepage stored ramTop) with
          | .error fault => some (.error (.fault fault))
          | .ok memory => do
            let _ ← add? 32 basepage.bssBase.toNat basepage.bssLen.toNat
            let heap := LoadedProgram.heapSpan basepage heapTop
            some (.ok (⟨header, basepage, heap, ramTop, fixups⟩, memory))

variable {bits a b offset count cursor : Nat} {buffer file image : Bytes} {base ramTop : UInt32}
  {header : Header} {args : List String}

theorem add?_eq (h : a + b < 2 ^ bits) : add? bits a b = some (a + b) :=
  if_pos h

theorem sub?_eq (h : b ≤ a) : sub? a b = some (a - b) :=
  if_pos h

theorem room?_eq (fits : offset + count ≤ buffer.size) (small : offset + count < 2 ^ 64) :
    room? buffer offset count = some (buffer.extract offset (offset + count)) := by
  rw [room?, add?_eq small]
  exact if_pos ⟨Nat.le_add_right _ _, fits⟩

theorem follow?_eq {steps : List UInt8} (reach : cursor + 255 * steps.length < 2 ^ 64)
    (few : count + steps.length < 2 ^ 64) :
    follow? base cursor count image steps =
      some (Fixups.follow base cursor count image steps) := by
  induction steps generalizing cursor count image with
  | nil => rfl
  | cons step rest ih =>
    have small := step.toNat_lt
    have stride : Fixups.stride = 254 := rfl
    rw [List.length_cons] at reach few
    rw [follow?, Fixups.follow]
    split
    · rfl
    split
    · rw [add?_eq (by omega)]
      exact ih (by omega) (by omega)
    · rw [add?_eq (by omega)]
      simp only [Option.bind_eq_bind, Option.bind_some]
      cases Fixups.fix base image (cursor + step.toNat) with
      | none => rfl
      | some fixed =>
        dsimp only
        rw [add?_eq (by omega)]
        exact ih (by omega) (by omega)

theorem applied?_eq {table : List UInt8} (small : table.length ≤ 2 ^ 56) :
    applied? image table base = some (Fixups.apply image table base) := by
  unfold applied? Fixups.apply
  dsimp only
  split
  · rfl
  next some =>
    cases Fixups.fix base image (longOfBytes (table.take 4)).toNat with
    | none => rfl
    | some fixed =>
      have long : 4 ≤ table.length := by omega
      have bound := (longOfBytes (table.take 4)).toNat_lt
      have steps : cut? table.toArray 4 table.length =
          Option.some (table.toArray.extract 4 table.length) := if_pos ⟨long, by simp⟩
      have rest : (table.toArray.extract 4 table.length).toList = table.drop 4 := by
        rw [Array.toList_extract, List.extract_eq_take_drop]
        exact List.take_of_length_le (by simp)
      dsimp only
      rw [steps]
      simp only [Option.bind_eq_bind, Option.bind_some, rest]
      have short : (table.drop 4).length ≤ 2 ^ 56 - 4 := by
        rw [List.length_drop]
        omega
      exact follow?_eq (by omega) (by omega)

theorem sizes_lt (header : Header) :
    header.text.toNat < 2 ^ 32 ∧ header.data.toNat < 2 ^ 32 ∧ header.bss.toNat < 2 ^ 32 ∧
      header.symbols.toNat < 2 ^ 32 :=
  ⟨header.text.toNat_lt, header.data.toNat_lt, header.bss.toNat_lt, header.symbols.toNat_lt⟩

theorem segments?_eq {userMemory : Bytes} (small : file.size ≤ 2 ^ 56)
    (complete : headerLen + header.loadLength ≤ file.size)
    (room : header.loadLength ≤ userMemory.size) :
    segments? file header header.loadLength userMemory =
      some (LoadedProgram.segments file header) := by
  obtain ⟨text, data, _, symbols⟩ := sizes_lt header
  have length : header.loadLength = header.text.toNat + header.data.toNat := rfl
  have start : headerLen = 28 := rfl
  have same : (userMemory.extract 0 (0 + header.loadLength)).size =
      (file.extract headerLen (headerLen + header.loadLength)).size := by
    rw [Array.size_extract, Array.size_extract]
    omega
  unfold segments? LoadedProgram.segments
  rw [room?_eq complete (by omega), room?_eq (by omega) (by omega)]
  simp only [Option.bind_eq_bind, Option.bind_some, guard, if_pos same]
  split
  · rw [add?_eq (by omega)]
    simp only [Option.bind_some]
    rw [add?_eq (by omega)]
    have tail : (file.extract header.tableStart file.size).toList.length ≤ 2 ^ 56 := by
      rw [Array.length_toList, Array.size_extract]
      omega
    have place : headerLen + header.loadLength + header.symbols.toNat = header.tableStart := rfl
    simp only [Option.bind_some, place]
    rw [applied?_eq tail]
    simp only [Option.bind_some]
    rcases Fixups.apply (file.extract headerLen (headerLen + header.loadLength))
      (file.extract header.tableStart file.size).toList MemoryMap.userStart with ⟨_ | _, _⟩
    · rfl
    · rfl
  · rfl

theorem exists_room_commandTail (args : List String) :
    ∃ tail, room? (LoadedProgram.zeros 128) 1 (Basepage.commandTail args).length = some tail ∧
      tail.size = (Basepage.commandTail args).length := by
  have short : (Basepage.commandTail args).length ≤ 125 := List.length_take_le _ _
  refine ⟨_, room?_eq ?_ (by omega), ?_⟩
  · rw [LoadedProgram.size_zeros]
    omega
  · rw [Array.size_extract, LoadedProgram.size_zeros]
    omega

theorem bssStop_lt (args : List String)
    (fits : header.imageLength ≤ (MemoryMap.userLen (MemoryMap.userLen ramTop)).toNat) :
    (LoadedProgram.initialBasepage header args ramTop).bssBase.toNat +
      (LoadedProgram.initialBasepage header args ramTop).bssLen.toNat < 2 ^ 32 := by
  have image : header.imageLength =
    header.text.toNat + header.data.toNat + header.bss.toNat := rfl
  have start : MemoryMap.userStart.toNat = 0x900 := rfl
  have large : UInt32.size = 4294967296 := rfl
  have bound := ramTop.toNat_lt_size
  rw [MemoryMap.toNat_userLen, MemoryMap.toNat_userLen] at fits
  have bases := LoadedProgram.bases_initialBasepage header args ramTop (by omega)
  have bssLen : (LoadedProgram.initialBasepage header args ramTop).bssLen = header.bss := rfl
  rw [bases.2.2.1, bssLen]
  omega

theorem size_of_parse (h : Header.parse file = .ok header) : headerLen ≤ file.size := by
  rw [Executable.parse_eq] at h
  split at h
  · cases h
  next whole => exact Nat.not_lt.mp whole

/-- Nothing that is computed while a file is loaded goes out of range. No address space holds a file
of more bytes than this. -/
theorem ofFile?_eq (args : List String) (ramTop : UInt32) (small : file.size ≤ 2 ^ 56) :
    ofFile? file args ramTop = some (LoadedProgram.ofFile file args ramTop) := by
  unfold ofFile? LoadedProgram.ofFile
  cases parsed : Header.parse file with
  | error cause => rfl
  | ok header =>
    obtain ⟨text, data, bss, _⟩ := sizes_lt header
    have length : header.loadLength = header.text.toNat + header.data.toNat := rfl
    have whole := size_of_parse parsed
    rw [LoadedProgram.mapError_ok_bind]
    dsimp only
    rw [add?_eq (by omega), sub?_eq whole]
    simp only [Option.bind_eq_bind, Option.bind_some, ← length]
    by_cases complete : header.loadLength ≤ file.size - headerLen
    swap
    · rw [if_pos (Nat.not_le.mp complete), if_pos (Nat.not_le.mp complete)]
      rfl
    rw [if_neg (Nat.not_lt.mpr complete), if_neg (Nat.not_lt.mpr complete), add?_eq (by omega)]
    have image : header.loadLength + header.bss.toNat = header.imageLength := rfl
    simp only [Option.bind_some, image]
    by_cases fits : header.imageLength ≤ (MemoryMap.userLen (MemoryMap.userLen ramTop)).toNat
    swap
    · rw [if_pos (Nat.not_le.mp fits), if_pos (Nat.not_le.mp fits)]
      rfl
    rw [if_neg (Nat.not_lt.mpr fits), if_neg (Nat.not_lt.mpr fits)]
    have spare := MemoryMap.toNat_userLen (MemoryMap.userLen ramTop)
    have room : header.loadLength ≤
        (LoadedProgram.zeros (MemoryMap.userLen ramTop).toNat).size := by
      rw [LoadedProgram.size_zeros]
      omega
    rw [segments?_eq small (by omega) room]
    simp only [Option.bind_some]
    cases LoadedProgram.segments file header with
    | error failure => rfl
    | ok segments =>
      obtain ⟨stored, fixups⟩ := segments
      refine Eq.trans ?_ (congrArg some (LoadedProgram.ok_bind (stored, fixups)).symm)
      obtain ⟨tail, taken, whole_tail⟩ := exists_room_commandTail args
      dsimp only
      rw [taken]
      simp only [Option.bind_some, guard, if_pos whole_tail]
      cases GuestMemory.empty.addAll
        (LoadedProgram.areas (LoadedProgram.initialBasepage header args ramTop) stored ramTop) with
      | error fault => rfl
      | ok memory =>
        dsimp only
        rw [add?_eq (bssStop_lt args fits)]
        rfl

end Checked

end AtariTos
