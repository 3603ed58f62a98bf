import AtariTos.Proofs.ConsoleAccounts
import AtariTos.Proofs.ExceptionVectors

namespace AtariTos

namespace GuestMemory

variable {memory next : GuestMemory} {addr start : UInt32} {count n : Nat} {mode : Privilege}
  {right other : Rights → Bool} {first rest : List UInt8} {byte : UInt8}

theorem Grants.mono (granted : memory.Grants addr count right)
    (weaker : ∀ rights, right rights = true → other rights = true) :
    memory.Grants addr count other := by
  obtain ⟨area, member, within, allowed⟩ := granted
  exact ⟨area, member, within, weaker _ allowed⟩

theorem Grants.part (granted : memory.Grants addr count right) (low : addr.toNat ≤ start.toNat)
    (high : start.toNat + n ≤ addr.toNat + count) : memory.Grants start n right := by
  obtain ⟨area, member, within, allowed⟩ := granted
  exact ⟨area, member, (Set.Ico_subset_Ico low high).trans within, allowed⟩

theorem Grants.of_layout (granted : memory.Grants addr count right)
    (same : next.layout = memory.layout) : next.Grants addr count right := by
  obtain ⟨area, member, within, allowed⟩ := granted
  obtain ⟨b, there, outline⟩ := exists_of_layout same member
  exact ⟨b, there, Area.addresses_eq_of_outline outline ▸ within,
    Area.rights_eq_of_outline outline ▸ allowed⟩

theorem grants_of_span {span : Span} (member : span ∈ memory.spans)
    (low : span.start ≤ addr.toNat) (high : addr.toNat + count ≤ span.stop)
    (allowed : right span.rights = true) : memory.Grants addr count right := by
  obtain ⟨area, there, rfl⟩ := List.mem_map.mp member
  exact ⟨area, there, Set.Ico_subset_Ico low high, allowed⟩

/-- No area reaches the end of the address space. -/
def Below (memory : GuestMemory) : Prop :=
  ∀ a ∈ memory.areas, a.stop < UInt32.size

theorem Below.of_layout (below : memory.Below) (same : next.layout = memory.layout) :
    next.Below := by
  intro b there
  obtain ⟨a, member, outline⟩ := exists_of_layout same.symm there
  rw [← Area.stop_eq_of_outline outline]
  exact below a member

theorem Below.add_lt_size (below : memory.Below) (positive : 0 < count)
    (granted : memory.Grants addr count right) : addr.toNat + count < UInt32.size := by
  obtain ⟨area, member, within, _⟩ := granted
  exact Nat.lt_of_le_of_lt (fits_of_subset positive within).2 (below area member)

theorem Ordered.peekBytes_of_append (ordered : memory.Ordered) (filled : rest ≠ [])
    (reached : addr.toNat + first.length < UInt32.size)
    (seen : memory.peekBytes addr (first.length + rest.length) mode = .ok (first ++ rest)) :
    memory.peekBytes addr first.length mode = .ok first ∧
      memory.peekBytes (addr + first.length.toUInt32) rest.length mode = .ok rest := by
  obtain ⟨area, located⟩ := exists_peekBytes_iff.mp ⟨_, seen⟩
  obtain ⟨member, inside, fits, allowed⟩ := ordered.locate_eq_ok_iff.mp located
  rw [peekBytes_of_locate located, Area.peek_add inside reached] at seen
  have length : (area.peek addr first.length).length = first.length :=
    Area.length_peek inside (by omega)
  obtain ⟨here, behind⟩ := List.append_inj (Except.ok.inj seen) length
  have place := Area.toNat_add_toUInt32 reached
  have positive := List.length_pos_iff.mpr filled
  have low := inside.1
  have located' : memory.locate addr first.length .peek mode = .ok area :=
    ordered.locate_eq_ok_iff.mpr ⟨member, inside, by omega, allowed⟩
  have located'' : memory.locate (addr + first.length.toUInt32) rest.length .peek mode =
      .ok area :=
    ordered.locate_eq_ok_iff.mpr ⟨member, ⟨by omega, by omega⟩, by omega, allowed⟩
  rw [peekBytes_of_locate located', here, peekBytes_of_locate located'', behind]
  exact ⟨rfl, rfl⟩

theorem Ordered.load_of_byteAt? (ordered : memory.Ordered) (holds : memory.Each Area.HoldsWrites)
    (granted : memory.Grants addr 1 fun rights => rights.mayRead mode && rights.mayWrite mode)
    (shows : memory.byteAt? addr = some byte) : memory.load addr 1 mode = .ok ([byte], memory) := by
  obtain ⟨area, member, within, allowed⟩ := granted
  obtain ⟨readable, writable⟩ := Bool.and_eq_true_iff.mp allowed
  obtain ⟨inside, fits⟩ := fits_of_subset Nat.one_pos within
  have located : memory.locate addr 1 .read mode = .ok area :=
    ordered.locate_eq_ok_iff.mpr ⟨member, inside, fits, readable⟩
  have located' : memory.locate addr 1 .write mode = .ok area :=
    ordered.locate_eq_ok_iff.mpr ⟨member, inside, fits, writable⟩
  obtain ⟨buffer, _, _⟩ := ordered.of_locate_write holds located'
  rw [ordered.byteAt?_of_mem member inside] at shows
  rw [load_eq Nat.one_pos, located, Except.map, if_pos buffer, Area.load_of_isBuffer buffer,
    (Area.shown?_eq_some_iff inside).mp shows]

end GuestMemory

namespace Session

/-- The byte at an address is left alone, and so is the console: the program changes its registers,
reads, or writes somewhere else. -/
def Action.Spares (addr : UInt32) : Action → Prop
  | .registers _ | .read _ _ _ => True
  | .write start data _ => addr.toNat ∉ Set.Ico start.toNat (start.toNat + data.length)
  | _ => False

end Session

open Session (Action)

/-- A call that reads a line: what the program does before, and the registers it calls with. -/
structure LineCall where
  before : List Action := []
  registers : Registers

namespace LineCall

def code : UInt16 := 0x0a

def frame (addr : UInt32) : CallFrame :=
  ⟨code, [.long addr]⟩

/-- What leads to the trap. The frame comes last. -/
def setup (call : LineCall) (addr : UInt32) : List Action :=
  call.before ++ [.registers call.registers,
    .write call.registers.sp (frame addr).encode call.registers.privilege]

def actions (call : LineCall) (addr : UInt32) : List Action :=
  call.setup addr ++ [.trap Trap.gemdosVector]

/-- The caller may use the whole buffer, and put the frame where it is; neither the frame nor what
he does before touches the first byte of the buffer, which tells the capacity. -/
structure Fits (call : LineCall) (memory : GuestMemory) (addr : UInt32) (capacity : UInt8) :
    Prop where
  buffer : memory.Grants addr (capacity.toNat + 2) fun rights =>
    rights.mayRead call.registers.privilege && rights.mayWrite call.registers.privilege
  frame : memory.Grants call.registers.sp (frame addr).encode.length
    (·.mayWrite call.registers.privilege)
  apart : addr.toNat ∉
    Set.Ico call.registers.sp.toNat (call.registers.sp.toNat + (LineCall.frame addr).encode.length)
  spares : ∀ action ∈ call.before, action.Spares addr

theorem Fits.of_layout {call : LineCall} {memory next : GuestMemory} {addr : UInt32}
    {capacity : UInt8} (fits : call.Fits memory addr capacity)
    (same : next.layout = memory.layout) : call.Fits next addr capacity :=
  ⟨fits.buffer.of_layout same, fits.frame.of_layout same, fits.apart, fits.spares⟩

end LineCall

theorem Trap.routine_of_frame {s : System} {addr : UInt32} (ordered : s.memory.Ordered)
    (reached : s.registers.sp.toNat + (LineCall.frame addr).encode.length < UInt32.size)
    (seen : s.memory.peekBytes s.registers.sp (LineCall.frame addr).encode.length
      s.registers.privilege = .ok (LineCall.frame addr).encode) :
    Trap.routine s Trap.gemdosVector = .ok .readString ∧ s.arguments.long 2 = .ok addr := by
  have seen' : s.memory.peekBytes s.registers.sp
      ((bytesOfWord LineCall.code).length + (bytesOfLong addr).length) s.registers.privilege =
        .ok (bytesOfWord LineCall.code ++ bytesOfLong addr) := seen
  have reached' : s.registers.sp.toNat + (bytesOfWord LineCall.code).length < UInt32.size :=
    Nat.lt_of_le_of_lt (Nat.add_le_add_left (by decide : 2 ≤ 6) _) reached
  obtain ⟨first, second⟩ :=
    ordered.peekBytes_of_append (List.cons_ne_nil _ _) reached' seen'
  constructor
  · have found : s.memory.peek s.registers.sp .word s.registers.privilege =
        .ok (longOfBytes (bytesOfWord LineCall.code)) := congrArg (Except.map longOfBytes) first
    have selector : (Arguments.ofRegisters s.memory s.registers).selector = .ok LineCall.code := by
      rw [Arguments.selector, Arguments.word, Arguments.fetch, UInt32.add_zero]
      exact congrArg (Except.map UInt32.toUInt16) found
    rw [routine, selector]
    rfl
  · have found : s.memory.peek (s.registers.sp + 2) .long s.registers.privilege =
        .ok (longOfBytes (bytesOfLong addr)) := congrArg (Except.map longOfBytes) second
    rw [longOfBytes_bytesOfLong] at found
    exact found

namespace Session

variable {s t : Session} {addr : UInt32} {capacity : UInt8} {call : LineCall}
  {action : Action} {actions : List Action} {calls : List LineCall} {piece rest : List UInt8}

/-- A machine with a buffer for lines in its memory. -/
structure HasBuffer (s : Session) (addr : UInt32) (capacity : UInt8) : Prop where
  sound : s.system.memory.Sound
  silent : s.system.memory.Each Area.IsSilent
  holds : s.system.memory.Each Area.HoldsWrites
  below : s.system.memory.Below
  shows : s.system.memory.byteAt? addr = some capacity

theorem HasBuffer.of_changedIn (has : s.HasBuffer addr capacity) {within : Set Nat}
    (changed : s.system.memory.ChangedIn within (s.perform action).system.memory)
    (outside : addr.toNat ∉ within) : (s.perform action).HasBuffer addr capacity where
  sound := sound_perform has.sound action
  silent := isSilent_performAll has.silent [action]
  holds := holdsWrites_performAll has.holds [action]
  below := has.below.of_layout changed.layout
  shows := by
    have steady : s.system.memory.SteadyAt addr := fun a member _ => has.sound.steady a member
    rw [changed.byteAt?_eq has.sound.ordered steady outside, has.shows]

theorem HasBuffer.perform (has : s.HasBuffer addr capacity) (spares : action.Spares addr) :
    (s.perform action).HasBuffer addr capacity ∧
      (s.perform action).system.memory.layout = s.system.memory.layout ∧
      (s.perform action).system.console = s.system.console := by
  have changed : ∃ within, s.system.memory.ChangedIn within (s.perform action).system.memory ∧
      addr.toNat ∉ within := by
    cases action with
    | registers registers => exact ⟨∅, .refl _, Set.notMem_empty _⟩
    | read start count mode =>
      refine ⟨∅, ?_, Set.notMem_empty _⟩
      rw [Session.perform]
      split
      next loaded => exact has.sound.ordered.changedIn_load loaded
      · exact .refl _
    | write start data mode =>
      refine ⟨_, ?_, spares⟩
      rw [Session.perform]
      split
      next stored => exact (has.sound.ordered.changedIn_store stored).mono Set.inter_subset_left
      · exact .refl _
    | _ => exact spares.elim
  obtain ⟨within, changed, outside⟩ := changed
  refine ⟨has.of_changedIn changed outside, changed.layout, ?_⟩
  have typed : action.typed = [] := by
    cases action <;> first | rfl | exact spares.elim
  have noTrap (vector : UInt8) : action ≠ .trap vector := by
    rintro rfl
    exact spares
  rw [console_perform noTrap, typed, Console.push, List.append_nil]

theorem HasBuffer.performAll (has : s.HasBuffer addr capacity)
    (spares : ∀ action ∈ actions, action.Spares addr) :
    (s.performAll actions).HasBuffer addr capacity ∧
      (s.performAll actions).system.memory.layout = s.system.memory.layout ∧
      (s.performAll actions).system.console = s.system.console :=
  performAll_induction
    (fun t => t.HasBuffer addr capacity ∧ t.system.memory.layout = s.system.memory.layout ∧
      t.system.console = s.system.console)
    (fun action => action.Spares addr)
    (fun _ _ spares ⟨has, layout, console⟩ =>
      have ⟨has', layout', console'⟩ := has.perform spares
      ⟨has', layout'.trans layout, console'.trans console⟩)
    spares ⟨has, rfl, rfl⟩

theorem spares_setup {memory : GuestMemory} (fits : call.Fits memory addr capacity) :
    ∀ action ∈ call.setup addr, action.Spares addr := by
  rw [LineCall.setup, List.forall_mem_append, List.forall_mem_cons, List.forall_mem_singleton]
  exact ⟨fits.spares, trivial, fits.apart⟩

theorem HasBuffer.frame_setup (has : s.HasBuffer addr capacity)
    (fits : call.Fits s.system.memory addr capacity) :
    (s.performAll (call.setup addr)).system.registers = call.registers ∧
      (s.performAll (call.setup addr)).system.memory.peekBytes call.registers.sp
        (LineCall.frame addr).encode.length call.registers.privilege =
          .ok (LineCall.frame addr).encode := by
  obtain ⟨has', layout, _⟩ := has.performAll fits.spares
  have filled : (LineCall.frame addr).encode ≠ [] := List.cons_ne_nil _ _
  have granted := fits.frame.of_layout layout
  obtain ⟨memory, stored⟩ := (GuestMemory.exists_store_iff filled).mpr
    ((has'.sound.ordered.exists_locate_iff (List.length_pos_iff.mpr filled)).mpr granted)
  have after : s.performAll (call.setup addr) =
      { s.performAll call.before with
        system :=
          { (s.performAll call.before).system with memory, registers := call.registers } } := by
    have opened : s.performAll (call.setup addr) =
        ((s.performAll call.before).perform (.registers call.registers)).perform
          (.write call.registers.sp (LineCall.frame addr).encode call.registers.privilege) :=
      List.foldl_append
    rw [opened, Session.perform]
    dsimp only [Session.perform]
    rw [stored]
  rw [after]
  exact ⟨rfl, has'.sound.ordered.peekBytes_of_store has'.holds filled stored⟩

/-- The trap of a call succeeds, and a text shows in the buffer behind its length. The rest of
memory is as the call has found it. -/
structure StoresLine (s : Session) (addr : UInt32) (call : LineCall) (text : List UInt8) :
    Prop where
  asked : Trap.routine (s.performAll (call.setup addr)).system Trap.gemdosVector = .ok .readString
  proceeds : ((s.performAll (call.setup addr)).trap Trap.gemdosVector).1 = .ok .proceed
  answer : (s.performAll (call.actions addr)).system.registers.get .answer = 0
  stored : ∃ length : UInt8, length.toNat = text.length ∧
    (s.performAll (call.setup addr)).system.Receives (addr + 1) (length :: text)
      (s.performAll (call.actions addr)).system.memory

theorem performAll_actions (s : Session) (call : LineCall) (addr : UInt32) :
    s.performAll (call.actions addr) =
      (s.performAll (call.setup addr)).perform (.trap Trap.gemdosVector) :=
  List.foldl_append

theorem HasBuffer.trap_readString (has : s.HasBuffer addr capacity)
    (granted : s.system.memory.Grants addr (capacity.toNat + 2) fun rights =>
      rights.mayRead s.system.registers.privilege && rights.mayWrite s.system.registers.privilege)
    (asked : Trap.routine s.system Trap.gemdosVector = .ok .readString)
    (fetched : s.system.arguments.long 2 = .ok addr)
    (split : Console.splitLine capacity.toNat s.input = (piece, rest)) :
    ∃ memory, (addr + 1).toNat = addr.toNat + 1 ∧
      s.system.memory.store (addr + 1)
        ((Service.trimLine piece).length.toUInt8 :: Service.trimLine piece)
        s.system.registers.privilege = .ok memory ∧
      s.trap Trap.gemdosVector = (.ok .proceed,
        { s with system := Trap.answer { s.system with memory, console.input := rest } 0 }) := by
  have stop : addr.toNat + (capacity.toNat + 2) < UInt32.size :=
    has.below.add_lt_size (Nat.succ_pos _) granted
  have next : (addr + 1).toNat = addr.toNat + 1 :=
    Area.toNat_succ_of_ne_last (Area.ne_last_of_lt (by omega))
  have loaded := has.sound.ordered.load_of_byteAt? has.holds
    (granted.part (Nat.le_refl _) (by omega)) has.shows
  have behind : s.system.memory.Grants (addr + 1) (capacity.toNat + 1)
      (·.mayWrite s.system.registers.privilege) :=
    (granted.part (by omega) (by omega)).mono fun _ both => (Bool.and_eq_true_iff.mp both).2
  have writable := Service.isWritable_of_grants has.sound.ordered behind
  obtain ⟨memory, stored, ran⟩ := Service.run_readString fetched loaded writable split
  refine ⟨memory, next, stored, trap_of_value asked ?_⟩
  rw [Routine.run, Service.run_map, ran]

theorem HasBuffer.storesLine (has : s.HasBuffer addr capacity)
    (fits : call.Fits s.system.memory addr capacity)
    (split : Console.splitLine capacity.toNat s.input = (piece, rest)) :
    s.StoresLine addr call (Service.trimLine piece) ∧
      (s.performAll (call.actions addr)).HasBuffer addr capacity ∧
      (s.performAll (call.actions addr)).system.memory.layout = s.system.memory.layout ∧
      (s.performAll (call.actions addr)).input = rest := by
  obtain ⟨registers, seen⟩ := has.frame_setup fits
  obtain ⟨has', layout, console⟩ := has.performAll (spares_setup fits)
  have fits' := fits.of_layout layout
  rw [input, ← console] at split
  have reached := has'.below.add_lt_size (Nat.succ_pos 5) fits'.frame
  rw [← registers] at seen reached
  obtain ⟨asked, fetched⟩ := Trap.routine_of_frame has'.sound.ordered reached seen
  have granted := fits'.buffer
  rw [← registers] at granted
  obtain ⟨memory, next, stored, trapped⟩ := has'.trap_readString granted asked fetched split
  have after : (s.performAll (call.actions addr)).system = Trap.answer
      { (s.performAll (call.setup addr)).system with memory, console.input := rest } 0 := by
    rw [performAll_actions, Session.perform, trapped]
  have same : (s.performAll (call.actions addr)).system.memory = memory :=
    congrArg System.memory after
  have changed := has'.sound.ordered.changedIn_store stored
  have counted := Service.toNat_length_trimLine capacity
    (s.performAll (call.setup addr)).system.console.input
  rw [split] at counted
  refine ⟨⟨asked, congrArg Prod.fst trapped, ?_, _, counted, ?_⟩, ?_, ?_, ?_⟩
  · rw [after, Trap.answer, Registers.get_set_answer]
  · rw [same]
    exact System.receives_of_store has'.sound has'.holds stored
  · rw [performAll_actions] at same ⊢
    rw [← same] at changed
    refine has'.of_changedIn changed fun inside => ?_
    have low := inside.1.1
    rw [next] at low
    omega
  · rw [same, changed.layout, layout]
  · rw [input, after]
    rfl

/-- One call after the other stores one text after the other. -/
def StoresInTurn (addr : UInt32) : Session → List LineCall → List (List UInt8) → Prop
  | _, [], [] => True
  | s, call :: calls, text :: texts =>
    s.StoresLine addr call text ∧ StoresInTurn addr (s.performAll (call.actions addr)) calls texts
  | _, _, _ => False

def performCalls (s : Session) (addr : UInt32) (calls : List LineCall) : Session :=
  s.performAll (calls.flatMap (·.actions addr))

theorem performCalls_cons (s : Session) (addr : UInt32) (call : LineCall)
    (calls : List LineCall) :
    s.performCalls addr (call :: calls) =
      (s.performAll (call.actions addr)).performCalls addr calls := by
  rw [performCalls, List.flatMap_cons, performAll, List.foldl_append]
  rfl

theorem HasBuffer.storesInTurn_pieces (has : s.HasBuffer addr capacity)
    (fits : ∀ call ∈ calls, call.Fits s.system.memory addr capacity) {pieces : List (List UInt8)}
    (enough : calls.length ≤ pieces.length) (queued : s.input = pieces.flatten)
    (whole : ∀ piece ∈ pieces, ∀ rest,
      Console.splitLine capacity.toNat (piece ++ rest) = (piece, rest)) :
    s.StoresInTurn addr calls ((pieces.map Service.trimLine).take calls.length) ∧
      (s.performCalls addr calls).input = (pieces.drop calls.length).flatten := by
  induction calls generalizing s pieces with
  | nil => exact ⟨trivial, queued⟩
  | cons call calls ih =>
    cases pieces with
    | nil => exact absurd enough (Nat.not_succ_le_zero _)
    | cons piece pieces =>
      rw [List.forall_mem_cons] at fits whole
      rw [List.flatten_cons] at queued
      have split := whole.1 pieces.flatten
      rw [← queued] at split
      obtain ⟨stores, has', layout, left⟩ := has.storesLine fits.1 split
      obtain ⟨inTurn, remains⟩ := ih has' (fun call member => (fits.2 call member).of_layout layout)
        (Nat.le_of_succ_le_succ enough) left whole.2
      rw [performCalls_cons]
      exact ⟨⟨stores, inTurn⟩, remains⟩

/-- Lines that can wait in the input of a machine and be read into a buffer. -/
structure Readable (capacity : UInt8) (lines : List (List UInt8)) : Prop where
  positive : 0 < capacity.toNat
  newline : ∀ line ∈ lines, Console.newline ∉ line
  carriageReturn : ∀ line ∈ lines, Console.carriageReturn ∉ line
  short : ∀ line ∈ lines, line.length ≤ capacity.toNat

/-- Calls store the lines that wait, one after the other, each line that fills the buffer followed
by an empty one. -/
theorem HasBuffer.storesInTurn_lines (has : s.HasBuffer addr capacity)
    (fits : ∀ call ∈ calls, call.Fits s.system.memory addr capacity) {lines : List (List UInt8)}
    (readable : Readable capacity lines) (queued : s.input = lines.flatMap (· ++ [Console.newline]))
    (enough : calls.length ≤ (lines.flatMap (Console.texts capacity.toNat)).length) :
    s.StoresInTurn addr calls
        ((lines.flatMap (Console.texts capacity.toNat)).take calls.length) ∧
      (s.performCalls addr calls).input =
        ((lines.flatMap (Console.pieces capacity.toNat)).drop calls.length).flatten := by
  have trimmed : (lines.flatMap (Console.pieces capacity.toNat)).map Service.trimLine =
      lines.flatMap (Console.texts capacity.toNat) := by
    rw [List.map_flatMap]
    refine List.flatMap_congr fun line member => ?_
    exact Service.trimLine_pieces (readable.newline line member)
      (readable.carriageReturn line member) _
  have many : calls.length ≤ (lines.flatMap (Console.pieces capacity.toNat)).length := by
    rwa [← trimmed, List.length_map] at enough
  rw [← Console.flatten_flatMap_pieces capacity.toNat] at queued
  have stored := has.storesInTurn_pieces fits many queued fun piece member rest => by
    obtain ⟨line, there, inside⟩ := List.mem_flatMap.mp member
    exact Console.splitLine_of_mem_pieces readable.positive (readable.newline line there)
      (readable.short line there) inside rest
  rwa [trimmed] at stored

theorem below_of_load {file : Bytes} {args : List String} {program : LoadedProgram}
    (h : s.load file args = (.ok program, t)) (keeps : ∀ action ∈ actions, action.keepsProgram) :
    (t.performAll actions).system.memory.Below := by
  intro a member
  have there : (⟨a.base.toNat, a.stop, a.rights⟩ : Span) ∈
      (t.performAll actions).system.memory.spans := List.mem_map_of_mem member
  rw [spans_of_load h keeps] at there
  have top := s.ramTop.toNat_lt_size
  have size : UInt32.size = 4294967296 := rfl
  simp only [LoadedProgram.spans, List.mem_cons, List.not_mem_nil, or_false, Span.mk.injEq] at there
  omega

theorem hasBuffer_of_load {file : Bytes} {args : List String} {program : LoadedProgram}
    (h : s.load file args = (.ok program, t)) (keeps : ∀ action ∈ actions, action.keepsProgram)
    (shows : (t.performAll actions).system.memory.byteAt? addr = some capacity) :
    (t.performAll actions).HasBuffer addr capacity := by
  have sound := sound_load s file args
  rw [h] at sound
  exact ⟨sound_performAll sound actions, isSilent_of_load h actions, holdsWrites_of_load h actions,
    below_of_load h keeps, shows⟩

/-- A program has been loaded, and lines wait, each followed by a newline, that a buffer is long
enough for. As many calls as there are texts, where a line that fills the buffer counts as itself
and an empty text behind it, store these texts in turn and leave no input. So as many calls as there
are lines store the lines in turn and leave no input if and only if no line fills the buffer. -/
theorem storesInTurn_iff {file : Bytes} {args : List String} {program : LoadedProgram}
    (h : s.load file args = (.ok program, t)) (keeps : ∀ action ∈ actions, action.keepsProgram)
    (shows : (t.performAll actions).system.memory.byteAt? addr = some capacity)
    (fits : ∀ call ∈ calls, call.Fits (t.performAll actions).system.memory addr capacity)
    {lines : List (List UInt8)} (readable : Readable capacity lines)
    (queued : (t.performAll actions).input = lines.flatMap (· ++ [Console.newline])) :
    let start := t.performAll actions
    let texts := lines.flatMap (Console.texts capacity.toNat)
    (calls.length = texts.length →
      start.StoresInTurn addr calls texts ∧ (start.performCalls addr calls).input = []) ∧
    (calls.length = lines.length →
      (start.StoresInTurn addr calls lines ∧ (start.performCalls addr calls).input = [] ↔
        ∀ line ∈ lines, line.length < capacity.toNat)) := by
  intro start texts
  have has : start.HasBuffer addr capacity := hasBuffer_of_load h keeps shows
  have left : ((lines.flatMap (Console.pieces capacity.toNat)).drop calls.length).flatten = [] ↔
      texts.length ≤ calls.length := Console.flatten_drop_pieces_eq_nil_iff readable.positive
  have each (same : calls.length = texts.length) :
      start.StoresInTurn addr calls texts ∧ (start.performCalls addr calls).input = [] := by
    obtain ⟨inTurn, remains⟩ := has.storesInTurn_lines fits readable queued (Nat.le_of_eq same)
    rw [same, List.take_length] at inTurn
    exact ⟨inTurn, remains.trans (left.mpr (Nat.le_of_eq same.symm))⟩
  refine ⟨each, fun same => ⟨fun ⟨_, ended⟩ => ?_, fun short => ?_⟩⟩
  · have more := Console.length_le_flatMap_texts capacity.toNat lines
    obtain ⟨_, remains⟩ := has.storesInTurn_lines fits readable queued (same ▸ more)
    have few := left.mp (remains.symm.trans ended)
    rw [same] at few
    exact Console.length_flatMap_texts_le_iff.mp few
  · have texts_eq : texts = lines := Console.flatMap_texts_of_short short
    rw [← texts_eq]
    exact each (by rw [texts_eq, same])

/-- A buffer with room for some number of bytes, and two lines of two bytes that wait. -/
def offeringLines (capacity : UInt8) : List Action :=
  [.type [0x61, 0x62, 0x0a, 0x63, 0x64, 0x0a], .write 0xa00 [capacity] .user]

def callingAt (sp : UInt32) : LineCall where
  registers := ({} : Registers).set .sp sp

def twoLines : List (List UInt8) :=
  [[0x61, 0x62], [0x63, 0x64]]

set_option maxRecDepth 10000 in
theorem offers_offeringLines : ∀ capacity ∈ [(2 : UInt8), 3],
    (withInstruction.performAll (offeringLines capacity)).system.memory.byteAt? 0xa00 =
        some capacity ∧
      (withInstruction.performAll (offeringLines capacity)).input =
        twoLines.flatMap (· ++ [Console.newline]) := by
  rw [List.forall_mem_cons, List.forall_mem_singleton, withInstruction, loadedAreas,
    LoadedProgram.areas, LoadedProgram.userArea_eq]
  exact ⟨⟨by decide +kernel, by decide +kernel⟩, ⟨by decide +kernel, by decide +kernel⟩⟩

theorem keepsProgram_offeringLines (capacity : UInt8) :
    ∀ action ∈ offeringLines capacity, action.keepsProgram := by
  rw [offeringLines, List.forall_mem_cons, List.forall_mem_singleton]
  exact ⟨rfl, rfl⟩

theorem fits_offeringLines (capacity : UInt8) : ∀ call ∈ [callingAt 0xb20, callingAt 0xb1a],
    call.Fits (withInstruction.performAll (offeringLines capacity)).system.memory 0xa00
      capacity := by
  have bound := capacity.toNat_lt
  have spans := spans_of_load load_oneInstruction (keepsProgram_offeringLines capacity)
  have user : (⟨0x900, 0x1300, .readWrite⟩ : Span) ∈
      (withInstruction.performAll (offeringLines capacity)).system.memory.spans := by
    rw [spans]
    exact List.mem_of_getLast? rfl
  have granted (mode : Privilege) :
      Rights.readWrite.mayRead mode = true ∧ Rights.readWrite.mayWrite mode = true := by
    cases mode <;> exact ⟨rfl, rfl⟩
  have buffer : 0xa00 + (capacity.toNat + 2) ≤ 0x1300 := by omega
  have fits (sp : UInt32) (behind : 0xb02 ≤ sp.toNat) (below : sp.toNat + 6 ≤ 0x1300) :
      (callingAt sp).Fits (withInstruction.performAll (offeringLines capacity)).system.memory
        0xa00 capacity := by
    refine ⟨?_, ?_, fun inside => ?_, List.forall_mem_nil _⟩
    · exact GuestMemory.grants_of_span user (by decide) buffer
        (Bool.and_eq_true_iff.mpr (granted _))
    · exact GuestMemory.grants_of_span user (Nat.le_trans (by decide) behind) below (granted _).2
    · exact absurd (Nat.le_trans behind inside.1) (by decide)
  rw [List.forall_mem_cons, List.forall_mem_singleton]
  exact ⟨fits 0xb20 (by decide) (by decide), fits 0xb1a (by decide) (by decide)⟩

/-- With room for the newlines each call stores a line. -/
theorem storesInTurn_iff_offeringLines :
    littleMemory.load oneInstruction [] = (.ok loadedInstruction, withInstruction) ∧
      (withInstruction.performAll (offeringLines 3)).StoresInTurn 0xa00
        [callingAt 0xb20, callingAt 0xb1a] twoLines ∧
      ((withInstruction.performAll (offeringLines 3)).performCalls 0xa00
        [callingAt 0xb20, callingAt 0xb1a]).input = [] := by
  obtain ⟨shows, queued⟩ := offers_offeringLines 3 (by decide)
  have readable : Readable 3 twoLines := ⟨by decide, by decide, by decide, by decide⟩
  have stores := storesInTurn_iff load_oneInstruction (keepsProgram_offeringLines 3) shows
    (fits_offeringLines 3) readable queued
  exact ⟨load_oneInstruction, (stores.2 rfl).mpr (by decide)⟩

/-- Lines that fill the buffer are no longer than it allows, but behind the first one the second
call stores an empty text, and the second line is left. -/
theorem not_storesInTurn_offeringLines :
    littleMemory.load oneInstruction [] = (.ok loadedInstruction, withInstruction) ∧
      (withInstruction.performAll (offeringLines 2)).system.memory.byteAt? 0xa00 = some 2 ∧
      Readable 2 twoLines ∧
      (withInstruction.performAll (offeringLines 2)).input =
        twoLines.flatMap (· ++ [Console.newline]) ∧
      (∀ call ∈ [callingAt 0xb20, callingAt 0xb1a],
        call.Fits (withInstruction.performAll (offeringLines 2)).system.memory 0xa00 2) ∧
      (withInstruction.performAll (offeringLines 2)).StoresInTurn 0xa00
        [callingAt 0xb20, callingAt 0xb1a] [[0x61, 0x62], []] ∧
      ((withInstruction.performAll (offeringLines 2)).performCalls 0xa00
        [callingAt 0xb20, callingAt 0xb1a]).input = [0x63, 0x64, 0x0a] ∧
      ¬((withInstruction.performAll (offeringLines 2)).StoresInTurn 0xa00
          [callingAt 0xb20, callingAt 0xb1a] twoLines ∧
        ((withInstruction.performAll (offeringLines 2)).performCalls 0xa00
          [callingAt 0xb20, callingAt 0xb1a]).input = []) := by
  obtain ⟨shows, queued⟩ := offers_offeringLines 2 (by decide)
  have readable : Readable 2 twoLines := ⟨by decide, by decide, by decide, by decide⟩
  have has := hasBuffer_of_load load_oneInstruction (keepsProgram_offeringLines 2) shows
  have fits := fits_offeringLines 2
  obtain ⟨inTurn, left⟩ := has.storesInTurn_lines fits readable queued (by decide)
  refine ⟨load_oneInstruction, shows, readable, queued, fits, inTurn, left, fun ⟨_, ended⟩ => ?_⟩
  cases ended.symm.trans left

end Session

end AtariTos
