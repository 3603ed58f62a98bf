import AtariTos.Proofs.MemoryWrites
import AtariTos.Proofs.TrapEffects

namespace AtariTos

namespace GuestMemory

/-- Guest memory before and after any number of reads and writes, in either privilege. -/
inductive Accessed (memory : GuestMemory) : GuestMemory → Prop where
  | refl : memory.Accessed memory
  | load {next last : GuestMemory} {addr : UInt32} {count : Nat} {mode : Privilege}
      {values : List UInt8} (before : memory.Accessed next)
      (loaded : next.load addr count mode = .ok (values, last)) : memory.Accessed last
  | store {next last : GuestMemory} {addr : UInt32} {data : List UInt8} {mode : Privilege}
      (before : memory.Accessed next) (stored : next.store addr data mode = .ok last) :
      memory.Accessed last

namespace Accessed

variable {memory next last : GuestMemory} {addr : UInt32} {mode : Privilege} {width : Width}
  {value : UInt32}

theorem trans (h : memory.Accessed next) (h' : next.Accessed last) : memory.Accessed last := by
  induction h' with
  | refl => exact h
  | load _ loaded ih => exact .load ih loaded
  | store _ stored ih => exact .store ih stored

theorem of_load {count : Nat} {values : List UInt8}
    (h : memory.load addr count mode = .ok (values, next)) : memory.Accessed next :=
  .load .refl h

theorem of_store {data : List UInt8} (h : memory.store addr data mode = .ok next) :
    memory.Accessed next :=
  .store .refl h

theorem of_write (h : memory.write addr width value mode = .ok next) : memory.Accessed next :=
  of_store h

theorem of_read (h : memory.read addr width mode = .ok (value, next)) : memory.Accessed next := by
  unfold read at h
  cases loaded : memory.load addr width.bytes mode with
  | error fault =>
    rw [loaded] at h
    cases h
  | ok result =>
    rw [loaded] at h
    cases h
    exact of_load loaded

theorem changedIn (ordered : memory.Ordered) (h : memory.Accessed next) :
    memory.ChangedIn Set.univ next := by
  induction h with
  | refl => exact .refl _
  | load _ loaded ih => exact ih.trans ((ordered.of_layout ih.layout).changedIn_load loaded)
  | store _ stored ih =>
    have changed := (ordered.of_layout ih.layout).changedIn_store stored
    exact ih.trans (changed.mono (Set.subset_univ _))

end Accessed

end GuestMemory

namespace Service

variable {α β : Type} {m : Service α} {f : α → Service β} {s : System}

/-- A service does nothing to guest memory but read and write it, also when it fails. -/
def Accesses (m : Service α) : Prop :=
  Always (fun s t => s.memory.Accessed t.memory) m

namespace Accesses

theorem bind (first : Accesses m) (second : ∀ value, Accesses (f value)) : Accesses (m >>= f) :=
  Always.bind (fun _ _ _ => .trans) first second

theorem map (g : α → β) (h : Accesses m) : Accesses (g <$> m) := by
  intro s
  rw [after_map]
  exact h s

theorem of_touches (parts : List Part) (h : Touches parts m) (outside : .memory ∉ parts) :
    Accesses m := by
  intro s
  have same : (m.after s).memory = s.memory := h s .memory outside
  rw [same]
  exact .refl

theorem reads (h : Touches [] m) (rest : ∀ value, Accesses (f value)) : Accesses (m >>= f) :=
  bind (of_touches [] h (by decide)) rest

theorem ite {c : Prop} [Decidable c] {m m' : Service α} (yes : c → Accesses m)
    (no : ¬c → Accesses m') : Accesses (if c then m else m') := by
  split
  · exact yes ‹c›
  · exact no ‹¬c›

variable {start : GuestMemory}

theorem from_orStop {outcome : Except Fault α} (so_far : start.Accessed s.memory)
    (rest : ∀ value, outcome = .ok value → start.Accessed ((f value).after s).memory) :
    start.Accessed ((Service.orStop outcome >>= f).after s).memory := by
  cases outcome with
  | ok value => exact rest value rfl
  | error fault => exact so_far

theorem from_get {f : System → Service β} (rest : start.Accessed ((f s).after s).memory) :
    start.Accessed ((MonadState.get >>= f).after s).memory :=
  rest

theorem from_modify {change : System → System} {f : Unit → Service β}
    (rest : start.Accessed ((f ()).after (change s)).memory) :
    start.Accessed (((modify change : Service Unit) >>= f).after s).memory :=
  rest

theorem from_ite {c : Prop} [Decidable c] {m' : Service α}
    (yes : start.Accessed (m.after s).memory) (no : start.Accessed (m'.after s).memory) :
    start.Accessed ((if c then m else m').after s).memory := by
  split
  · exact yes
  · exact no

theorem loadBuffer (addr : UInt32) (len : Nat) : Accesses (Service.loadBuffer addr len) := by
  intro s
  have ran := run_loadBuffer addr len s
  cases loaded : s.memory.load addr len s.registers.privilege with
  | error fault =>
    rw [loaded] at ran
    rw [after_of_error ran]
    exact .refl
  | ok result =>
    rw [loaded] at ran
    rw [after_of_ok ran]
    exact .of_load loaded

theorem storeBuffer (addr : UInt32) (data : List UInt8) :
    Accesses (Service.storeBuffer addr data) := by
  intro s
  have ran := run_storeBuffer addr data s
  cases stored : s.memory.store addr data s.registers.privilege with
  | error fault =>
    rw [stored] at ran
    rw [after_of_error ran]
    exact .refl
  | ok memory =>
    rw [stored] at ran
    rw [after_of_ok ran]
    exact .of_store stored

variable {fault? : Option HostFault}

theorem readString : Accesses (Service.readString fault?) := by
  refine reads (.argumentLong 2) fun addr => bind (loadBuffer addr 1) fun capacity => ?_
  refine reads (.requireWritable _ _) fun _ => reads .get fun s => ?_
  refine bind (of_touches [.console] (.exchange (by decide) _) (by decide)) fun _ => ?_
  exact bind (storeBuffer _ _) fun _ => of_touches [] (.pure _) (by decide)

theorem currentDirectory : Accesses Service.currentDirectory := by
  refine reads (.argumentLong 2) fun buffer => reads (.argumentWord 6) fun drive => ?_
  have refused : ∀ status, Accesses (Service.reject status : Service UInt32) :=
    fun status => of_touches [] (.reject status) (by decide)
  refine ite (fun _ => refused _) fun _ => reads .get fun s => ite (fun _ => refused _) fun _ => ?_
  exact bind (storeBuffer _ _) fun _ => of_touches [] (.pure _) (by decide)

theorem readFile : Accesses (Service.readFile fault?) := by
  refine reads (.argumentHandle 2) fun handle => reads (.argumentLong 4) fun count => ?_
  refine reads (.argumentLong 8) fun buffer => reads (.requireWritable _ _) fun _ => ?_
  refine bind (of_touches [.console, .handles] (.fetch (by decide) (by decide) _ _) (by decide))
    fun data => ?_
  exact bind (storeBuffer _ _) fun _ => of_touches [] (.pure _) (by decide)

theorem writeFile : Accesses (Service.writeFile fault?) := by
  refine reads (.argumentHandle 2) fun handle => reads (.argumentLong 4) fun count => ?_
  refine reads (.argumentLong 8) fun buffer => reads .get fun s => ite (fun _ => ?_) fun _ => ?_
  · exact of_touches [] (.reject _) (by decide)
  · refine bind (loadBuffer _ _) fun data => ?_
    refine bind (of_touches [.console, .handles, .host]
      (.send (by decide) (by decide) (by decide) _ _) (by decide)) fun _ => ?_
    exact of_touches [] (.pure _) (by decide)

theorem fileTime : Accesses (Service.fileTime fault?) := by
  refine reads (.argumentLong 2) fun buffer => reads (.argumentHandle 6) fun handle => ?_
  refine reads (.argumentWord 8) fun word => ite (fun _ => ?_) fun _ => ?_
  · exact of_touches [] (.reject _) (by decide)
  · refine reads (.requireWritable _ _) fun _ => reads (.timeOf handle) fun time => ?_
    exact bind (storeBuffer _ _) fun _ => of_touches [] (.pure _) (by decide)

theorem exceptionVector : Accesses Service.exceptionVector := by
  refine reads (.argumentWord 2) fun number => reads (.argumentLong 4) fun vector => ?_
  intro s
  refine from_get (from_orStop .refl fun ⟨previous, memory⟩ read => from_modify ?_)
  have so_far : s.memory.Accessed memory := .of_read read
  refine from_ite ?_ so_far
  exact from_orStop so_far fun next written => from_modify (so_far.trans (.of_write written))

theorem callSupervisor : Accesses Service.callSupervisor := by
  refine reads (.argumentLong 2) fun routine => ?_
  intro s
  refine from_get (from_modify (from_get (from_get (from_orStop .refl fun memory stored => ?_))))
  have first : s.memory.Accessed memory := .of_write stored
  refine from_modify (from_orStop first fun next stored' => ?_)
  have second : s.memory.Accessed next := first.trans (.of_write stored')
  exact from_modify (from_modify (from_modify second))

end Accesses

end Service

/-- No call adds areas, removes them or gets past their rights. -/
theorem Routine.accesses_run (called : Routine) : Service.Accesses called.run := by
  cases called with
  | readString => exact .map _ .readString
  | currentDirectory => exact .map _ .currentDirectory
  | readFile => exact .map _ .readFile
  | writeFile => exact .map _ .writeFile
  | fileTime => exact .map _ .fileTime
  | exceptionVector => exact .map _ .exceptionVector
  | callSupervisor => exact .map _ .callSupervisor
  | _ => exact .of_touches _ (run_touches _) (by decide)

theorem Trap.accessed_serve (vector : UInt8) (s : System) :
    s.memory.Accessed (serve vector s).2.memory := by
  rcases exists_after_serve vector s with same | ⟨called, registers, _, same⟩
  · rw [same]
    exact .refl
  · rw [same]
    exact called.accesses_run s

end AtariTos
