import AtariTos.Proofs.CallFailures
import AtariTos.Proofs.FlatMemory
import AtariTos.Proofs.HeapPlacement
import AtariTos.Proofs.LoadOutcomes

namespace AtariTos

/-- What an area spans, and who may do what there. -/
structure Span where
  start : Nat
  stop : Nat
  rights : Rights

namespace GuestMemory

variable {memory next : GuestMemory} {span : Span} {addr : UInt32} {count : Nat}
  {access : Access} {mode : Privilege}

def spans (memory : GuestMemory) : List Span :=
  memory.areas.map fun a => ⟨a.base.toNat, a.stop, a.rights⟩

theorem spans_of_layout (same : next.layout = memory.layout) : next.spans = memory.spans := by
  have spelled (m : GuestMemory) : m.spans =
      m.layout.map fun o => ⟨o.base.toNat, o.base.toNat + o.len.toNat, o.rights⟩ := by
    rw [spans, layout, List.map_map]
    rfl
  rw [spelled, spelled, same]

theorem Ordered.locate_of_span (ordered : memory.Ordered) (member : span ∈ memory.spans)
    (low : span.start ≤ addr.toNat) (high : addr.toNat + count ≤ span.stop) (positive : 0 < count) :
    ∃ area, memory.locate addr count access mode =
      if span.rights.permits access mode then .ok area
      else .error (.denied addr access mode) := by
  obtain ⟨area, there, rfl⟩ := List.mem_map.mp member
  have fits : addr.toNat + count ≤ area.stop := high
  exact ⟨area, ordered.locate_of_covers there ⟨low, by omega⟩ fits⟩

theorem Ordered.locate_of_unmapped (ordered : memory.Ordered)
    (outside : ∀ span ∈ memory.spans,
      ¬(span.start ≤ addr.toNat ∧ addr.toNat + count ≤ span.stop)) :
    memory.locate addr count access mode = .error (.unmapped addr) :=
  ordered.locate_of_uncovered fun _ there inside fits =>
    outside _ (List.mem_map_of_mem there) ⟨inside.1, fits⟩

variable {width : Width} {value : UInt32} {fault : Fault} {area : Area}

theorem read_of_locate_error
    (refused : memory.locate addr width.bytes .read mode = .error fault) :
    memory.read addr width mode = .error fault := by
  rw [read, load_eq width.bytes_pos, refused]
  rfl

theorem write_of_locate_error
    (refused : memory.locate addr width.bytes .write mode = .error fault) :
    memory.write addr width value mode = .error fault := by
  rw [write, store_eq (encode_ne_nil width value), width.encode_length, refused]
  rfl

theorem Ordered.exists_read_of_locate (ordered : memory.Ordered)
    (silent : memory.Each Area.IsSilent)
    (located : memory.locate addr width.bytes .read mode = .ok area) :
    ∃ value, memory.read addr width mode = .ok (value, memory) := by
  have found : ∃ value left, memory.read addr width mode = .ok (value, left) := by
    rw [read, load_eq width.bytes_pos, located]
    exact ⟨_, _, rfl⟩
  obtain ⟨value, left, found⟩ := found
  obtain rfl := ordered.read_of_isSilent silent found
  exact ⟨value, found⟩

theorem Ordered.exists_write_of_locate (ordered : memory.Ordered)
    (holds : memory.Each Area.HoldsWrites)
    (located : memory.locate addr Width.long.bytes .write mode = .ok area) (value : UInt32) :
    ∃ written, memory.write addr .long value mode = .ok written ∧
      written.peek addr .long mode = .ok value := by
  have stored : ∃ written, memory.store addr (Width.long.encode value) mode = .ok written := by
    rw [store_eq (encode_ne_nil _ value), Width.encode_length, located]
    exact ⟨_, rfl⟩
  obtain ⟨written, stored⟩ := stored
  have seen := ordered.peekBytes_of_store holds (encode_ne_nil _ value) stored
  rw [Width.encode_length] at seen
  refine ⟨written, stored, ?_⟩
  rw [peek, seen]
  exact congrArg Except.ok (longOfBytes_encode value)

end GuestMemory

namespace LoadedProgram

variable {basepage : Basepage} {stored : Bytes} {ramTop : UInt32}

def spans (ramTop : UInt32) : List Span :=
  [⟨0, 0x200, .supervisorReadWrite⟩, ⟨0x200, 0x204, .supervisorReadOnly⟩,
    ⟨0x380, 0x600, .supervisorReadWrite⟩, ⟨0x600, 0x800, .supervisorReadWrite⟩,
    ⟨0x800, 0x900, .readOnly⟩, ⟨0x900, ramTop.toNat, .readWrite⟩]

theorem spans_areas (short : stored.size ≤ (MemoryMap.userLen ramTop).toNat)
    (room : 0x900 < ramTop.toNat) :
    (⟨areas basepage stored ramTop⟩ : GuestMemory).spans = spans ramTop := by
  have low : (systemArea "low page" MemoryMap.vectors).stop = 0x200 := stop_systemArea (by decide)
  have mid : (systemArea "mid page" MemoryMap.saveArea).stop = 0x600 := stop_systemArea (by decide)
  have stack : (systemArea "supervisor stack" MemoryMap.supervisorStack).stop = 0x800 :=
    stop_systemArea (by decide)
  have page := stop_basepageArea basepage
  have user : (userArea stored ramTop).stop = ramTop.toNat := by
    have start : MemoryMap.userStart.toNat = 0x900 := rfl
    rw [stop_userArea short, MemoryMap.toNat_userLen, start]
    omega
  simp only [GuestMemory.spans, areas, List.map_cons, List.map_nil, low, mid, stack, page, user]
  rfl

end LoadedProgram

namespace MemoryMap

def slot (number : UInt16) : UInt32 :=
  4 * number.toUInt32

theorem toNat_slot (number : UInt16) : (slot number).toNat = 4 * number.toNat := by
  have small := number.toNat_lt
  rw [slot, UInt32.toNat_mul, UInt16.toNat_toUInt32]
  change 4 * number.toNat % 2 ^ 32 = _
  omega

/-- Why a vector is not put at the place of some number, by the parts of the memory map: the vectors
themselves, the trampoline, a gap, the save area with the supervisor stack, the basepage, and user
memory. -/
def slotFault? (ramTop : UInt32) (number : UInt16) : Option Fault :=
  let denied := Fault.denied (slot number) .write .supervisor
  let unmapped := Fault.unmapped (slot number)
  if number.toNat < 0x80 then none
  else if number.toNat < 0x81 then some denied
  else if number.toNat < 0xe0 then some unmapped
  else if number.toNat < 0x200 then none
  else if number.toNat < 0x240 then some denied
  else if 4 * number.toNat + 4 ≤ ramTop.toNat then none
  else some unmapped

end MemoryMap

namespace GuestMemory

open MemoryMap

/-- What becomes of a read at the place of a vector and of a write behind it: both are served, or one
of them meets with a fault. -/
def ServesSlot (memory : GuestMemory) (number : UInt16) : Option Fault → Prop
  | none =>
    (∃ area, memory.locate (slot number) Width.long.bytes .read .supervisor = .ok area) ∧
      ∃ area, memory.locate (slot number) Width.long.bytes .write .supervisor = .ok area
  | some fault =>
    memory.locate (slot number) Width.long.bytes .read .supervisor = .error fault ∨
      (∃ area, memory.locate (slot number) Width.long.bytes .read .supervisor = .ok area) ∧
        memory.locate (slot number) Width.long.bytes .write .supervisor = .error fault

variable {memory : GuestMemory} {ramTop : UInt32} {number : UInt16} {span : Span}

theorem Ordered.locate_slot_of_span (ordered : memory.Ordered) (member : span ∈ memory.spans)
    (low : span.start ≤ 4 * number.toNat) (high : 4 * number.toNat + 4 ≤ span.stop)
    (access : Access) :
    ∃ area, memory.locate (slot number) Width.long.bytes access .supervisor =
      if span.rights.permits access .supervisor then .ok area
      else .error (.denied (slot number) access .supervisor) := by
  rw [← toNat_slot number] at low high
  exact ordered.locate_of_span member low high (by decide)

theorem Ordered.servesSlot_of_writable (ordered : memory.Ordered) (member : span ∈ memory.spans)
    (low : span.start ≤ 4 * number.toNat) (high : 4 * number.toNat + 4 ≤ span.stop)
    (allowed : ∀ access, span.rights.permits access .supervisor = true) :
    memory.ServesSlot number none := by
  have located := ordered.locate_slot_of_span member low high
  simp only [allowed, if_true] at located
  exact ⟨located .read, located .write⟩

theorem Ordered.servesSlot_of_readOnly (ordered : memory.Ordered) (member : span ∈ memory.spans)
    (low : span.start ≤ 4 * number.toNat) (high : 4 * number.toNat + 4 ≤ span.stop)
    (reads : span.rights.permits .read .supervisor = true)
    (denies : span.rights.permits .write .supervisor = false) :
    memory.ServesSlot number (some (.denied (slot number) .write .supervisor)) := by
  obtain ⟨area, readable⟩ := ordered.locate_slot_of_span member low high .read
  obtain ⟨_, unwritable⟩ := ordered.locate_slot_of_span member low high .write
  rw [if_pos reads] at readable
  rw [if_neg (Bool.eq_false_iff.mp denies)] at unwritable
  exact .inr ⟨⟨area, readable⟩, unwritable⟩

theorem Ordered.servesSlot_of_gap (ordered : memory.Ordered)
    (spans : memory.spans = LoadedProgram.spans ramTop)
    (gap : 0x204 ≤ 4 * number.toNat ∧ 4 * number.toNat < 0x380 ∨
      0x900 ≤ 4 * number.toNat ∧ ramTop.toNat < 4 * number.toNat + 4) :
    memory.ServesSlot number (some (.unmapped (slot number))) := by
  refine .inl (ordered.locate_of_unmapped ?_)
  have long : Width.long.bytes = 4 := rfl
  rw [spans, toNat_slot number, long]
  simp only [LoadedProgram.spans, List.forall_mem_cons, List.not_mem_nil, false_implies,
    implies_true, and_true]
  omega

/-- Where there is no reason against a vector, the supervisor may read and write; where there is
one, either the read fails for it, or the write behind it does. -/
theorem Ordered.servesSlot (ordered : memory.Ordered)
    (spans : memory.spans = LoadedProgram.spans ramTop) (number : UInt16) :
    memory.ServesSlot number (slotFault? ramTop number) := by
  have bound := number.toNat_lt
  have members : ∀ span ∈ LoadedProgram.spans ramTop, span ∈ memory.spans :=
    fun span member => spans ▸ member
  simp only [LoadedProgram.spans, List.forall_mem_cons] at members
  obtain ⟨vectors, trampoline, saveArea, stack, page, user, _⟩ := members
  have system (access : Access) : Rights.supervisorReadWrite.permits access .supervisor = true := by
    cases access <;> rfl
  have everyone (access : Access) : Rights.readWrite.permits access .supervisor = true := by
    cases access <;> rfl
  unfold slotFault?
  dsimp only
  split_ifs with inVectors inTrampoline inGap inSystem inPage inUser
  · exact ordered.servesSlot_of_writable vectors (by dsimp only; omega) (by dsimp only; omega) system
  · exact ordered.servesSlot_of_readOnly trampoline (by dsimp only; omega) (by dsimp only; omega)
      rfl rfl
  · exact ordered.servesSlot_of_gap spans (by omega)
  · by_cases inSaveArea : number.toNat < 0x180
    · exact ordered.servesSlot_of_writable saveArea (by dsimp only; omega) (by dsimp only; omega)
        system
    · exact ordered.servesSlot_of_writable stack (by dsimp only; omega) (by dsimp only; omega) system
  · exact ordered.servesSlot_of_readOnly page (by dsimp only; omega) (by dsimp only; omega) rfl rfl
  · exact ordered.servesSlot_of_writable user (by dsimp only; omega) inUser
      everyone
  · exact ordered.servesSlot_of_gap spans (by omega)

end GuestMemory

/-- The program calls for a vector to be put in the place of another. -/
structure System.SetsVector (s : System) (vector : UInt8) (number : UInt16) (value : UInt32) :
    Prop where
  asked : Trap.routine s vector = .ok .exceptionVector
  numbered : s.arguments.word 2 = .ok number
  given : s.arguments.long 4 = .ok value
  replaces : value ≠ 0xffffffff

namespace Service

open MemoryMap

variable {s : System} {vector : UInt8} {number : UInt16} {value : UInt32}

theorem run_exceptionVector (sets : s.SetsVector vector number value) :
    exceptionVector.run s =
      match s.memory.read (slot number) .long .supervisor with
      | .error fault => .error (.stop (.fault fault)) s
      | .ok (previous, memory) =>
        match memory.write (slot number) .long value .supervisor with
        | .error fault => .error (.stop (.fault fault)) { s with memory }
        | .ok written => .ok previous { s with memory := written } := by
  have place : 4 * number.toUInt32 = slot number := rfl
  rw [exceptionVector, run_argumentWord_bind, sets.numbered]
  dsimp only
  rw [run_argumentLong_bind, sets.given]
  dsimp only
  rw [place, run_get_bind, run_orStop_bind]
  cases s.memory.read (slot number) .long .supervisor with
  | error fault => rfl
  | ok found =>
    obtain ⟨previous, memory⟩ := found
    dsimp only
    rw [run_modify_bind, if_pos sets.replaces, run_orStop_bind]
    cases memory.write (slot number) .long value .supervisor with
    | error fault => rfl
    | ok written => rfl

end Service

namespace Session

variable {s loaded : Session} {file : Bytes} {args : List String} {program : LoadedProgram}
  {actions : List Action}

open Executable in
theorem spans_of_load (h : s.load file args = (.ok program, loaded))
    (keeps : ∀ action ∈ actions, action.keepsProgram) :
    (loaded.performAll actions).system.memory.spans = LoadedProgram.spans s.ramTop := by
  obtain ⟨_, _, _, layout⟩ := kept_of_load h keeps
  obtain ⟨met, _, start⟩ := met_of_load h
  obtain ⟨_, _, complete, fits, _, room⟩ := firstUnmet?_eq_none_iff.mp met
  have size := size_image complete
  have user := MemoryMap.toNat_userLen s.ramTop
  rw [GuestMemory.spans_of_layout layout, start]
  exact LoadedProgram.spans_areas (by omega) room

open MemoryMap

variable {vector : UInt8} {number : UInt16} {value ramTop : UInt32}

theorem trap_of_value {called : Routine} {result : UInt32} {u : System}
    (asked : Trap.routine s.system vector = .ok called)
    (ran : called.run.run s.system = .ok (.value result) u) :
    s.trap vector = (.ok .proceed, { s with system := Trap.answer u result }) := by
  rw [trap, Trap.serve, asked]
  dsimp only
  rw [Trap.complete, ran]
  rfl

theorem trap_of_stop {called : Routine} {cause : StopCause} {u : System}
    (asked : Trap.routine s.system vector = .ok called)
    (ran : called.run.run s.system = .error (.stop cause) u) :
    s.trap vector = (.error ⟨s.system.registers.pc, cause⟩, { s with system := u }) := by
  rw [trap, Trap.serve, asked]
  dsimp only
  rw [Trap.complete, ran]
  rfl

/-- A vector is put in its place, and the one that was there goes to D0. -/
def Installs (s : Session) (vector : UInt8) (number : UInt16) (value : UInt32) : Prop :=
  ∃ previous written,
    s.system.memory.read (slot number) .long .supervisor = .ok (previous, s.system.memory) ∧
    s.system.memory.write (slot number) .long value .supervisor = .ok written ∧
    written.peek (slot number) .long .supervisor = .ok value ∧
    s.trap vector =
      (.ok .proceed, { s with system := Trap.answer { s.system with memory := written } previous })

theorem trap_setsVector (ordered : s.system.memory.Ordered)
    (silent : s.system.memory.Each Area.IsSilent) (holds : s.system.memory.Each Area.HoldsWrites)
    (spans : s.system.memory.spans = LoadedProgram.spans ramTop)
    (sets : s.system.SetsVector vector number value) :
    match slotFault? ramTop number with
    | none => s.Installs vector number value
    | some fault => s.trap vector = (.error ⟨s.system.registers.pc, .fault fault⟩, s) := by
  have ran : Routine.exceptionVector.run.run s.system = _ := Service.run_map _ _ _
  rw [Service.run_exceptionVector sets] at ran
  have located := ordered.servesSlot spans number
  cases judged : slotFault? ramTop number with
  | none =>
    rw [judged] at located
    obtain ⟨⟨_, readable⟩, _, writable⟩ := located
    obtain ⟨previous, found⟩ := ordered.exists_read_of_locate silent readable
    obtain ⟨written, stored, seen⟩ := ordered.exists_write_of_locate holds writable value
    rw [found] at ran
    dsimp only at ran
    rw [stored] at ran
    exact ⟨previous, written, found, stored, seen, trap_of_value sets.asked ran⟩
  | some fault =>
    rw [judged] at located
    refine trap_of_stop sets.asked (ran.trans ?_)
    rcases located with unreadable | ⟨⟨_, readable⟩, unwritable⟩
    · rw [GuestMemory.read_of_locate_error unreadable]
    · obtain ⟨previous, found⟩ := ordered.exists_read_of_locate silent readable
      rw [found]
      dsimp only
      rw [GuestMemory.write_of_locate_error unwritable]

/-- A trap stops emulation with a fault, and guest memory is as before. -/
def Faults (s : Session) (vector : UInt8) : Prop :=
  ∃ stop fault t, s.trap vector = (.error stop, t) ∧ stop.cause = .fault fault ∧
    t.system.memory = s.system.memory

theorem slotFault?_eq_none_iff (high : 0x80 ≤ number.toNat) :
    slotFault? ramTop number = none ↔ (0xe0 ≤ number.toNat ∧ number.toNat < 0x200) ∨
      (0x240 ≤ number.toNat ∧ 4 * number.toNat + 4 ≤ ramTop.toNat) := by
  unfold slotFault?
  dsimp only
  split_ifs <;> simp <;> omega

theorem trap_setsVector_of_load (h : s.load file args = (.ok program, loaded))
    (keeps : ∀ action ∈ actions, action.keepsProgram)
    (sets : (loaded.performAll actions).system.SetsVector vector number value) :
    match slotFault? s.ramTop number with
    | none => (loaded.performAll actions).Installs vector number value
    | some fault => (loaded.performAll actions).trap vector =
      (.error ⟨(loaded.performAll actions).system.registers.pc, .fault fault⟩,
        loaded.performAll actions) :=
  trap_setsVector (ordered_of_load h keeps) (isSilent_of_load h actions)
    (holdsWrites_of_load h actions) (spans_of_load h keeps) sets

theorem faults_iff_of_load (h : s.load file args = (.ok program, loaded))
    (keeps : ∀ action ∈ actions, action.keepsProgram)
    (sets : (loaded.performAll actions).system.SetsVector vector number value) :
    (loaded.performAll actions).Faults vector ↔ slotFault? s.ramTop number ≠ none := by
  have trapped := trap_setsVector_of_load h keeps sets
  constructor
  · rintro ⟨stop, fault, t, stopped, _⟩ free
    rw [free] at trapped
    obtain ⟨previous, written, _, _, _, served⟩ := trapped
    cases stopped.symm.trans served
  · intro taken
    obtain ⟨fault, judged⟩ := Option.ne_none_iff_exists'.mp taken
    rw [judged] at trapped
    exact ⟨_, fault, _, trapped, rfl, rfl⟩

/-- A program has been loaded, and it calls for a vector to be put somewhere, at any point of its
run. If the memory map has something against it, emulation stops with that fault and nothing else
happens. Otherwise the vector is put in its place, also where no vectors are. So from number `0x80`
on the call faults if and only if it does not meet the save area, the supervisor stack or user
memory. -/
theorem setsVector_performAll (h : s.load file args = (.ok program, loaded))
    (keeps : ∀ action ∈ actions, action.keepsProgram)
    (sets : (loaded.performAll actions).system.SetsVector vector number value) :
    (match slotFault? s.ramTop number with
      | none => (loaded.performAll actions).Installs vector number value
      | some fault => (loaded.performAll actions).trap vector =
        (.error ⟨(loaded.performAll actions).system.registers.pc, .fault fault⟩,
          loaded.performAll actions)) ∧
    (0x80 ≤ number.toNat →
      ((loaded.performAll actions).Faults vector ↔
        ¬(0xe0 ≤ number.toNat ∧ number.toNat < 0x200) ∧
          ¬(0x240 ≤ number.toNat ∧ 4 * number.toNat + 4 ≤ s.ramTop.toNat))) := by
  refine ⟨trap_setsVector_of_load h keeps sets, fun high => ?_⟩
  rw [faults_iff_of_load h keeps sets, ne_eq, slotFault?_eq_none_iff high, not_or]

def settingVector (number : UInt16) : List Action :=
  [.registers { address := #v[0, 0, 0, 0, 0, 0, 0, 0xb20] },
    .write 0xb20 ([0, 5] ++ bytesOfWord number ++ [0, 0, 0x12, 0x34]) .user]

set_option maxRecDepth 10000 in
theorem setsVector_settingVector : ∀ number ∈ [(0x81 : UInt16), 0xe0],
    (withInstruction.performAll (settingVector number)).system.SetsVector Trap.biosVector number
      0x1234 := by
  rw [List.forall_mem_cons, List.forall_mem_singleton, withInstruction, loadedAreas,
    LoadedProgram.areas, LoadedProgram.userArea_eq]
  exact ⟨⟨by decide +kernel, by decide +kernel, by decide +kernel, by decide⟩,
    ⟨by decide +kernel, by decide +kernel, by decide +kernel, by decide⟩⟩

set_option maxRecDepth 10000 in
theorem peek_settingVector :
    (withInstruction.performAll (settingVector 0xe0)).system.memory.peek 0x380 .long .supervisor =
      .ok 0 := by
  rw [withInstruction, loadedAreas, LoadedProgram.areas, LoadedProgram.userArea_eq]
  decide +kernel

/-- Behind the trampoline there is nothing that a vector could be put into. -/
theorem setsVector_performAll_gap :
    littleMemory.load oneInstruction [] = (.ok loadedInstruction, withInstruction) ∧
      (∀ action ∈ settingVector 0x81, action.keepsProgram) ∧
      (withInstruction.performAll (settingVector 0x81)).system.SetsVector Trap.biosVector 0x81
        0x1234 ∧
      (withInstruction.performAll (settingVector 0x81)).Faults Trap.biosVector := by
  have keeps : ∀ action ∈ settingVector 0x81, action.keepsProgram := by decide
  have sets := setsVector_settingVector 0x81 (by decide)
  obtain ⟨_, faults⟩ := setsVector_performAll load_oneInstruction keeps sets
  exact ⟨load_oneInstruction, keeps, sets, (faults (by decide)).mpr (by decide)⟩

/-- The save area takes a vector, and it shows there. -/
theorem not_faults_settingVector :
    littleMemory.load oneInstruction [] = (.ok loadedInstruction, withInstruction) ∧
      (withInstruction.performAll (settingVector 0xe0)).system.SetsVector Trap.biosVector 0xe0
        0x1234 ∧
      ¬(withInstruction.performAll (settingVector 0xe0)).Faults Trap.biosVector ∧
      ((withInstruction.performAll (settingVector 0xe0)).trap Trap.biosVector).2.system.memory ≠
        (withInstruction.performAll (settingVector 0xe0)).system.memory := by
  have keeps : ∀ action ∈ settingVector 0xe0, action.keepsProgram := by decide
  have sets := setsVector_settingVector 0xe0 (by decide)
  have free : slotFault? littleMemory.ramTop 0xe0 = none := by decide
  have trapped := trap_setsVector_of_load load_oneInstruction keeps sets
  rw [free] at trapped
  obtain ⟨previous, written, _, _, seen, served⟩ := trapped
  refine ⟨load_oneInstruction, sets, ?_, ?_⟩
  · rw [faults_iff_of_load load_oneInstruction keeps sets]
    exact not_not.mpr free
  · rw [served]
    intro same
    change written = _ at same
    rw [same] at seen
    cases seen.symm.trans peek_settingVector

end Session

end AtariTos
