import AtariTos.Proofs.HostTransfers
import AtariTos.Proofs.MemoryWrites

namespace AtariTos

namespace Privilege

theorem ofStatus_or_statusBit (sr : UInt32) :
    ofStatus ((sr ||| statusBit) &&& 0xffff) = .supervisor := by
  have absorbed : (sr ||| statusBit) &&& statusBit = statusBit := by
    rw [← UInt32.toBitVec_inj, UInt32.toBitVec_and, UInt32.toBitVec_or]
    ext i hi
    rw [BitVec.getElem_and, BitVec.getElem_or]
    cases sr.toBitVec[i] <;> cases statusBit.toBitVec[i] <;> rfl
  have kept : (sr ||| statusBit) &&& 0xffff &&& statusBit = statusBit := by
    rw [UInt32.and_assoc, show (0xffff : UInt32) &&& statusBit = statusBit by decide, absorbed]
  rw [ofStatus, kept, if_pos (by decide)]

end Privilege

namespace Registers

theorem sp_enterMode_supervisor (r : Registers) :
    (r.enterMode .supervisor).sp = r.stackPointer .supervisor := by
  simp only [enterMode, setStatus, Privilege.ofStatus_or_statusBit]
  by_cases active : r.privilege = .supervisor
  · simp [active, stackPointer, isActive, sp]
  · simp [active, Ne.symm active, stackPointer, isActive, sp]

end Registers

namespace Service

variable {α : Type} {start : GuestMemory} {within : α → Set Nat} {s : System}
  {fault? : Option HostFault}

/-- The addresses of a buffer, none when the argument that says where it lies cannot be fetched. -/
def extent (base : Except Fault UInt32) (len : Nat) : Set Nat :=
  match base with
  | .ok addr => Set.Ico addr.toNat (addr.toNat + len)
  | .error _ => ∅

/-- How much of a line the caller takes, as the first byte of the line buffer says. -/
def lineCapacity (s : System) : Nat :=
  match s.arguments.long 2 with
  | .error _ => 0
  | .ok addr =>
    match s.memory.load addr 1 s.registers.privilege with
    | .error _ => 0
    | .ok (data, _) => (data.headD 0).toNat

theorem writes_storeBuffer_pure {addr : UInt32} {data : List UInt8} {value : α}
    (ordered : start.Ordered) (so_far : start.ChangedIn ∅ s.memory)
    (sub : Set.Ico addr.toNat (addr.toNat + data.length) ∩
      start.writable s.registers.privilege ⊆ within value) :
    Writes start within (storeBuffer addr data >>= fun _ => pure value) s := by
  refine Writes.storeBuffer so_far fun memory stored => ?_
  have changed := (ordered.of_layout so_far.layout).changedIn_store stored
  rw [GuestMemory.writable_of_layout so_far.layout] at changed
  exact (so_far.mono (Set.empty_subset _)).trans (changed.mono sub)

theorem length_trimLine (line : List UInt8) : (trimLine line).length ≤ line.length := by
  have := (List.dropWhile_suffix (l := line.reverse) fun byte =>
    byte = Console.newline || byte = Console.carriageReturn).length_le
  simpa [trimLine] using this

theorem writes_readString (ordered : s.memory.Ordered) :
    Writes s.memory (fun _ => extent ((s.arguments.long 2).map (· + 1)) (1 + lineCapacity s) ∩
      s.callerWritable) (readString fault?) s := by
  refine Writes.argumentLong (.refl _) fun addr fetched => ?_
  refine Writes.loadBuffer (.refl _) fun data memory loaded => ?_
  have capacity : lineCapacity s = (data.headD 0).toNat := by simp [lineCapacity, fetched, loaded]
  have so_far : s.memory.ChangedIn ∅ memory := ordered.changedIn_load loaded
  refine Writes.bind [] (.requireWritable _ _) (by decide) so_far fun _ t _ agree => ?_
  have memory_eq : t.memory = memory := agree .memory (by decide)
  have registers_eq : t.registers = s.registers := agree .registers (by decide)
  refine Writes.get ?_
  have so_far' : s.memory.ChangedIn ∅ t.memory := memory_eq ▸ so_far
  refine Writes.bind [.console] (.exchange (by decide) _) (by decide) so_far'
    fun line u ran agree' => ?_
  have memory_eq' : u.memory = t.memory := agree' .memory (by decide)
  have registers_eq' : u.registers = t.registers := agree' .registers (by decide)
  refine writes_storeBuffer_pure ordered (memory_eq' ▸ so_far') ?_
  have short := Console.length_of_takeLine (eq_of_exchange ran).1
  have trimmed := length_trimLine line
  rw [fetched, capacity]
  refine Set.inter_subset_inter (fun n hn => ⟨hn.1, ?_⟩)
    (registers_eq'.trans registers_eq ▸ subset_rfl)
  have := hn.2
  simp only [List.length_cons] at this
  change n < (addr + 1).toNat + ((trimLine line).length + 1) at this
  change n < (addr + 1).toNat + (1 + (data.headD 0).toNat)
  omega

theorem writes_currentDirectory (ordered : s.memory.Ordered) :
    Writes s.memory (fun _ => extent (s.arguments.long 2)
      (s.kernel.drive.directoryText.toUTF8.toList.length + 1) ∩ s.callerWritable)
      currentDirectory s := by
  refine Writes.argumentLong (.refl _) fun buffer fetched => ?_
  refine Writes.argumentWord (.refl _) fun drive _ => ?_
  have stored : Writes s.memory (fun _ => extent (s.arguments.long 2)
      (s.kernel.drive.directoryText.toUTF8.toList.length + 1) ∩ s.callerWritable)
      (do
        Service.storeBuffer buffer (s.kernel.drive.directoryText.toUTF8.toList ++ [0])
        return (0 : UInt32)) s := by
    refine writes_storeBuffer_pure ordered (.refl _) ?_
    rw [fetched, List.length_append, List.length_singleton]
    exact subset_rfl
  have refused : ∀ status, Writes s.memory (fun _ => extent (s.arguments.long 2)
      (s.kernel.drive.directoryText.toUTF8.toList.length + 1) ∩ s.callerWritable)
      (Service.reject status : Service UInt32) s :=
    fun _ => .refl _
  refine Writes.ite (fun _ => refused _) fun _ => Writes.get ?_
  exact Writes.ite (fun _ => refused _) fun _ => stored

theorem length_fetch {handle : Int16} {count : Nat} {data : List UInt8} {t : System}
    (h : (fetch handle count fault?).run s = .ok data t) : data.length ≤ count := by
  rw [fetch, run_get_bind] at h
  cases target : s.kernel.handles.get? handle with
  | none =>
    rw [target] at h
    cases h
  | some target' =>
    rw [target] at h
    cases target' with
    | reserved | consoleOutput => cases h
    | consoleInput => exact Console.length_of_takeLine (eq_of_exchange h).1
    | file f =>
      dsimp only at h
      rcases transferred : s.host.readFrom f count fault? with ⟨transfer, moved⟩
      rw [transferred] at h
      cases transfer with
      | error cause => cases h
      | ok result =>
        cases h
        exact HostTree.length_of_read (HostTree.read_of_readFrom transferred)

theorem writes_readFile (ordered : s.memory.Ordered) :
    Writes s.memory (fun len => extent (s.arguments.long 8) len.toNat ∩ s.callerWritable)
      (readFile fault?) s := by
  refine Writes.argumentHandle (.refl _) fun handle _ => ?_
  refine Writes.argumentLong (.refl _) fun count _ => ?_
  refine Writes.argumentLong (.refl _) fun buffer fetched => ?_
  refine Writes.bind [] (.requireWritable _ _) (by decide) (.refl _)
    fun _ t _ agree => ?_
  obtain rfl : t = s := System.eq_of_sameIn fun part => agree part (by simp)
  refine Writes.bind [.console, .handles] (.fetch (by decide) (by decide) _ _)
    (by decide) (.refl _) fun data u ran agree => ?_
  have memory_eq : u.memory = t.memory := agree .memory (by decide)
  have registers_eq : u.registers = t.registers := agree .registers (by decide)
  have short := length_fetch ran
  refine writes_storeBuffer_pure ordered (memory_eq ▸ .refl _) ?_
  have whole : data.length.toUInt32.toNat = data.length := by
    have := count.toNat_lt_size
    exact UInt32.toNat_ofNat_of_lt' (by omega)
  rw [fetched, whole]
  exact Set.inter_subset_inter_right _ (registers_eq ▸ subset_rfl)

theorem writes_fileTime (ordered : s.memory.Ordered) :
    Writes s.memory (fun _ => extent (s.arguments.long 2) 4 ∩ s.callerWritable) (fileTime fault?) s := by
  refine Writes.argumentLong (.refl _) fun buffer fetched => ?_
  refine Writes.argumentHandle (.refl _) fun handle _ => ?_
  refine Writes.argumentWord (.refl _) fun word _ => Writes.ite (fun _ => .refl _) fun _ => ?_
  refine Writes.bind [] (.requireWritable _ _) (by decide) (.refl _)
    fun _ t _ agree => ?_
  obtain rfl : t = s := System.eq_of_sameIn fun part => agree part (by simp)
  refine Writes.bind [] (.timeOf _) (by decide) (.refl _) fun time u _ agree => ?_
  obtain rfl : u = t := System.eq_of_sameIn fun part => agree part (by simp)
  refine writes_storeBuffer_pure ordered (.refl _) ?_
  rw [fetched]
  exact subset_rfl

theorem writes_writeFile (ordered : s.memory.Ordered) :
    Writes s.memory (fun _ => ∅) (writeFile fault?) s := by
  refine Writes.argumentHandle (.refl _) fun handle _ => ?_
  refine Writes.argumentLong (.refl _) fun count _ => ?_
  refine Writes.argumentLong (.refl _) fun buffer _ => Writes.get ?_
  refine Writes.ite (fun _ => .refl _) fun _ => ?_
  refine Writes.loadBuffer (.refl _) fun data memory loaded => ?_
  have so_far : s.memory.ChangedIn ∅ memory := ordered.changedIn_load loaded
  refine Writes.bind [.console, .handles, .host]
    (.send (by decide) (by decide) (by decide) _ _) (by decide) so_far fun _ t _ agree => ?_
  have memory_eq : t.memory = memory := agree .memory (by decide)
  have kept : s.memory.ChangedIn ∅ t.memory := memory_eq ▸ so_far
  exact kept

theorem writes_exceptionVector (ordered : s.memory.Ordered) :
    Writes s.memory (fun _ => extent ((s.arguments.word 2).map fun number => 4 * number.toUInt32) 4)
      exceptionVector s := by
  refine Writes.argumentWord (.refl _) fun number fetched => ?_
  refine Writes.argumentLong (.refl _) fun vector _ => ?_
  refine Writes.get (Writes.orStop (.refl _) fun ⟨previous, memory⟩ read => Writes.modify ?_)
  have so_far : s.memory.ChangedIn ∅ memory := ordered.changedIn_read read
  refine Writes.ite (fun _ => ?_) fun _ => so_far.mono (Set.empty_subset _)
  refine Writes.orStop (so_far.mono (Set.empty_subset _)) fun next written => Writes.modify ?_
  have changed := (ordered.of_layout so_far.layout).changedIn_write written
  rw [fetched]
  exact (so_far.mono (Set.empty_subset _)).trans changed

theorem writes_callSupervisor (ordered : s.memory.Ordered) :
    Writes s.memory (fun _ => extent (.ok (s.registers.stackPointer .supervisor - 4)) 4 ∪
      extent (.ok (s.registers.stackPointer .supervisor - 8)) 4) callSupervisor s := by
  refine Writes.argumentLong (.refl _) fun routine _ => Writes.get (Writes.modify (Writes.get ?_))
  refine Writes.get (Writes.orStop (.refl _) fun memory stored => Writes.modify ?_)
  have first := ordered.changedIn_write stored
  refine Writes.orStop (first.mono (Set.subset_univ _)) fun next stored' => Writes.modify ?_
  have second := (ordered.of_layout first.layout).changedIn_write stored'
  refine Writes.modify (Writes.modify ?_)
  have both := (first.mono Set.subset_union_left).trans (second.mono Set.subset_union_right)
  rw [Registers.sp_enterMode_supervisor] at both
  have upper : s.registers.stackPointer .supervisor - 8 + 4 =
      s.registers.stackPointer .supervisor - 4 := by
    grind
  rw [upper] at both
  exact both

end Service

namespace Routine

open Service (extent lineCapacity)

/-- The addresses at which a routine that answers may have changed guest memory. Two routines write
with the rights of a supervisor, the others with those of the caller. -/
def footprint (s : System) (result : UInt32) : Routine → Set Nat
  | .readString =>
    extent ((s.arguments.long 2).map (· + 1)) (1 + lineCapacity s) ∩ s.callerWritable
  | .currentDirectory =>
    extent (s.arguments.long 2) (s.kernel.drive.directoryText.toUTF8.toList.length + 1) ∩
      s.callerWritable
  | .readFile => extent (s.arguments.long 8) result.toNat ∩ s.callerWritable
  | .fileTime => extent (s.arguments.long 2) 4 ∩ s.callerWritable
  | .exceptionVector =>
    extent ((s.arguments.word 2).map fun number => 4 * number.toUInt32) 4
  | .callSupervisor =>
    extent (.ok (s.registers.stackPointer .supervisor - 4)) 4 ∪
      extent (.ok (s.registers.stackPointer .supervisor - 8)) 4
  | _ => ∅

theorem run_writes {s : System} (ordered : s.memory.Ordered) (called : Routine)
    (fault? : Option HostFault) :
    Service.Writes s.memory (fun answer => called.footprint s answer.register)
      (called.run fault?) s := by
  cases called with
  | readString => exact .map (Service.writes_readString ordered)
  | currentDirectory => exact .map (Service.writes_currentDirectory ordered)
  | readFile => exact .map (Service.writes_readFile ordered)
  | writeFile => exact .map (Service.writes_writeFile ordered)
  | fileTime => exact .map (Service.writes_fileTime ordered)
  | exceptionVector => exact .map (Service.writes_exceptionVector ordered)
  | callSupervisor => exact .map (Service.writes_callSupervisor ordered)
  | _ => exact .of_touches (touches_run _ fault?) (by decide)

theorem footprint_subset_callerWritable {s : System} {result : UInt32} {called : Routine}
    (user : called ≠ .exceptionVector) (user' : called ≠ .callSupervisor) :
    called.footprint s result ⊆ s.callerWritable := by
  cases called with
  | readString | currentDirectory | readFile | fileTime => exact Set.inter_subset_right
  | exceptionVector => exact absurd rfl user
  | callSupervisor => exact absurd rfl user'
  | _ => exact Set.empty_subset _

end Routine

end AtariTos
