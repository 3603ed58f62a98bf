import AtariTos.Proofs.ConsoleLines
import AtariTos.Proofs.FileRefinement
import AtariTos.Proofs.GuestStrings

namespace AtariTos

namespace Handles

variable {handles : Handles} {handle : Int16}

theorem exists_slot_of_get? {target : HandleTarget} (h : handles.get? handle = some target)
    (other : ∀ f, target ≠ .file f) :
    ∃ i, handle.toInt = i.val ∧ HandleTable.initialSlot i = some target := by
  obtain ⟨i, place, held⟩ := HandleTable.exists_index?_of_get? h
  refine ⟨i, HandleTable.index?_eq_some_iff.mp place, ?_⟩
  have standard : i.val < HandleTable.firstFile := Nat.not_le.mp fun file =>
    absurd (handles.proper.files i file target held) fun ⟨f, same⟩ => other f same
  rw [← handles.proper.standard i standard, held]

theorem get?_eq_consoleInput_iff : handles.get? handle = some .consoleInput ↔ handle = 0 := by
  constructor
  · intro h
    obtain ⟨i, value, slot⟩ := exists_slot_of_get? h nofun
    have here : ∀ i, HandleTable.initialSlot i = some .consoleInput → i.val = 0 := by decide
    exact Int16.toInt_inj.mp (value.trans (congrArg Nat.cast (here i slot)))
  · rintro rfl
    exact handles.proper.get?_eq (by decide)

theorem get?_eq_consoleOutput_iff :
    handles.get? handle = some .consoleOutput ↔ handle = 1 ∨ handle = 2 := by
  constructor
  · intro h
    obtain ⟨i, value, slot⟩ := exists_slot_of_get? h nofun
    have here : ∀ i, HandleTable.initialSlot i = some .consoleOutput → i.val = 1 ∨ i.val = 2 := by
      decide
    exact (here i slot).imp (fun one => Int16.toInt_inj.mp (value.trans (congrArg Nat.cast one)))
      fun two => Int16.toInt_inj.mp (value.trans (congrArg Nat.cast two))
  · rintro (rfl | rfl) <;> exact handles.proper.get?_eq (by decide)

end Handles

/-- Bytes get into memory at an address, and all the rest stays as it was. -/
structure System.Receives (s : System) (addr : UInt32) (data : List UInt8) (memory : GuestMemory) :
    Prop where
  stored : data ≠ [] → memory.peekBytes addr data.length s.registers.privilege = .ok data
  elsewhere : ∀ other, other.toNat ∉ Set.Ico addr.toNat (addr.toNat + data.length) →
    memory.byteAt? other = s.memory.byteAt? other

theorem System.receives_of_store {s : System} (sound : s.memory.Sound)
    (holds : s.memory.Each Area.HoldsWrites) {addr : UInt32} {data : List UInt8}
    {memory : GuestMemory} (stored : s.memory.store addr data s.registers.privilege = .ok memory) :
    s.Receives addr data memory := by
  refine ⟨fun filled => sound.ordered.peekBytes_of_store holds filled stored,
    fun other outside => ?_⟩
  have changed := sound.ordered.changedIn_store stored
  exact changed.byteAt?_eq sound.ordered (fun a member _ => sound.steady a member)
    fun inside => outside inside.1

namespace Routine

/-- The call reads one character, with the arguments it has. -/
def ReadsCharacter (s : System) : Routine → Prop
  | readCharacter => True
  | rawInputOutput => s.arguments.word 2 = .ok 0xff
  | deviceRead => s.arguments.word 2 = .ok 2
  | _ => False

/-- The call prints one character, the low byte of a word. -/
def PrintsCharacter (s : System) (byte : UInt8) : Routine → Prop
  | writeCharacter => ∃ word, s.arguments.word 2 = .ok word ∧ byte = word.toUInt8
  | rawInputOutput =>
    ∃ word, s.arguments.word 2 = .ok word ∧ word ≠ 0xff ∧ byte = word.toUInt8
  | deviceWrite =>
    s.arguments.word 2 = .ok 2 ∧ ∃ word, s.arguments.word 4 = .ok word ∧ byte = word.toUInt8
  | _ => False

/-- The call neither reads from the console nor prints. It is not meant to, or it is for another
device or another handle. -/
def IsApart (s : System) : Routine → Prop
  | readCharacter | writeCharacter | rawInputOutput | printString | readString => False
  | deviceRead | deviceWrite =>
    ∃ device, s.arguments.word 2 = .ok device ∧ device ≠ 2
  | readFile => ∃ handle, s.arguments.signedWord 2 = .ok handle ∧ handle ≠ 0
  | writeFile => ∃ handle, s.arguments.signedWord 2 = .ok handle ∧ handle ≠ 1 ∧ handle ≠ 2
  | _ => True

/-- A call that succeeds with an answer, and leaves some memory, takes bytes from the input of the
console and prints bytes. -/
inductive Exchanges (s : System) (answer : UInt32) (memory : GuestMemory) :
    Routine → List UInt8 → List UInt8 → Prop
  | character {called : Routine} {byte : UInt8} {rest : List UInt8}
      (reads : called.ReadsCharacter s) (waiting : s.console.input = byte :: rest)
      (told : answer = byte.toUInt32) : Exchanges s answer memory called [byte] []
  | endOfInput {called : Routine} (reads : called.ReadsCharacter s)
      (ended : s.console.input = []) : Exchanges s answer memory called [] []
  | fileLine {count buffer : UInt32} {line : List UInt8} (asked : s.Transfers 0 count buffer)
      (isLine : Console.IsLine count.toNat s.console.input line)
      (told : answer.toNat = line.length) (received : s.Receives buffer line memory) :
      Exchanges s answer memory .readFile line []
  | line {addr : UInt32} {capacity length : UInt8} {line text : List UInt8}
      (asked : s.arguments.long 2 = .ok addr)
      (holds : s.memory.load addr 1 s.registers.privilege = .ok ([capacity], s.memory))
      (isLine : Console.IsLine capacity.toNat s.console.input line)
      (trims : Service.Trims line text) (counted : length.toNat = text.length)
      (received : s.Receives (addr + 1) (length :: text) memory) :
      Exchanges s answer memory .readString line []
  | printed {called : Routine} {byte : UInt8} (prints : called.PrintsCharacter s byte) :
      Exchanges s answer memory called [] [byte]
  | string {addr : UInt32} {text : List UInt8} (asked : s.arguments.long 2 = .ok addr)
      (held : s.memory.HoldsString addr text s.registers.privilege) :
      Exchanges s answer memory .printString [] text
  | buffer {handle : Int16} {count buffer : UInt32} {data : List UInt8}
      (asked : s.Transfers handle count buffer) (output : handle = 1 ∨ handle = 2)
      (holds : s.memory.load buffer count.toNat s.registers.privilege = .ok (data, s.memory)) :
      Exchanges s answer memory .writeFile [] data
  | apart {called : Routine} (apart : called.IsApart s) : Exchanges s answer memory called [] []

end Routine

namespace Service

variable {s t : System} {handle : Int16} {count : Nat} {data : List UInt8}

theorem console_of_fetch (ran : (fetch handle count).run s = .ok data t) :
    (handle = 0 ∧ data = (Console.splitLine count s.console.input).1 ∧
        t = { s with console.input := (Console.splitLine count s.console.input).2 }) ∨
      (handle ≠ 0 ∧ t.console = s.console) := by
  unfold fetch at ran
  rw [run_get_bind] at ran
  dsimp only at ran
  split at ran
  · cases ran
  · cases ran
  · cases ran
  next input =>
    cases ran
    exact .inl ⟨Handles.get?_eq_consoleInput_iff.mp input, rfl, rfl⟩
  next f opened =>
    have other : handle ≠ 0 := fun same => by
      cases (Handles.get?_eq_consoleInput_iff.mpr same).symm.trans opened
    split at ran
    · cases ran
      exact .inr ⟨other, rfl⟩
    · cases ran

theorem console_of_send {result : Unit} (ran : (send handle data).run s = .ok result t) :
    ((handle = 1 ∨ handle = 2) ∧ t.console = s.console.write data) ∨
      (handle ≠ 1 ∧ handle ≠ 2 ∧ t.console = s.console) := by
  unfold send at ran
  rw [run_get_bind] at ran
  split at ran
  · cases ran
  · cases ran
  · cases ran
  next output =>
    cases ran
    exact .inl ⟨Handles.get?_eq_consoleOutput_iff.mp output, rfl⟩
  next f opened =>
    have other : ¬(handle = 1 ∨ handle = 2) := fun same => by
      cases (Handles.get?_eq_consoleOutput_iff.mpr same).symm.trans opened
    obtain ⟨first, second⟩ := not_or.mp other
    dsimp only at ran
    split at ran
    · cases ran
      exact .inr ⟨first, second, rfl⟩
    · cases ran

theorem exists_load_of_run {α : Type} (ordered : s.memory.Ordered)
    (silent : s.memory.Each Area.IsSilent) {addr : UInt32} {len : Nat} {f : List UInt8 → Service α}
    {result : α} (h : (loadBuffer addr len >>= f).run s = .ok result t) :
    ∃ data, s.memory.load addr len s.registers.privilege = .ok (data, s.memory) ∧
      (f data).run s = .ok result t := by
  obtain ⟨_, u, loads, rest⟩ := ok_of_bind h
  rw [run_loadBuffer] at loads
  split at loads
  next loaded =>
    cases loads
    obtain rfl := ordered.load_of_isSilent silent loaded
    exact ⟨_, loaded, rest⟩
  · cases loads

theorem exists_store_of_run {α : Type} {addr : UInt32} {f : Unit → Service α} {result : α}
    (h : (storeBuffer addr data >>= f).run s = .ok result t) :
    ∃ memory, s.memory.store addr data s.registers.privilege = .ok memory ∧
      (f ()).run { s with memory } = .ok result t := by
  obtain ⟨_, u, stores, rest⟩ := ok_of_bind h
  rw [run_storeBuffer] at stores
  split at stores
  next memory stored =>
    cases stores
    exact ⟨memory, stored, rest⟩
  · cases stores

theorem toNat_length_trimLine (capacity : UInt8) (input : List UInt8) :
    (trimLine (Console.splitLine capacity.toNat input).1).length.toUInt8.toNat =
      (trimLine (Console.splitLine capacity.toNat input).1).length := by
  have short := Console.length_splitLine capacity.toNat input
  have shorter := length_trimLine (Console.splitLine capacity.toNat input).1
  exact UInt8.toNat_ofNat_of_lt' ((shorter.trans short).trans_lt capacity.toNat_lt)

end Service

namespace Routine

variable {s u : System} {called : Routine} {answer : UInt32}

/-- What a call has taken from the console and printed accounts for the console that it leaves. -/
def Settles (called : Routine) (s : System) (answer : UInt32) (u : System) : Prop :=
  ∃ taken printed, Exchanges s answer u.memory called taken printed ∧
    s.console.input = taken ++ u.console.input ∧ u.console.output = s.console.output ++ printed

theorem settles_of_isApart (apart : called.IsApart s) (same : u.console = s.console) :
    called.Settles s answer u := by
  refine ⟨[], [], .apart apart, ?_, ?_⟩
  · rw [same, List.nil_append]
  · rw [same, List.append_nil]

theorem settles_of_prints {byte : UInt8} (prints : called.PrintsCharacter s byte)
    (console : u.console = s.console.write [byte]) : called.Settles s answer u := by
  refine ⟨[], [byte], .printed prints, ?_, ?_⟩
  · rw [console]
    rfl
  · rw [console]
    rfl

theorem settles_of_reads (reads : called.ReadsCharacter s)
    (told : ∀ byte rest, s.console.input = byte :: rest → answer = byte.toUInt32)
    (console : u.console = s.console.nextByte.2) : called.Settles s answer u := by
  rw [Console.nextByte] at console
  cases waiting : s.console.input with
  | nil =>
    rw [waiting] at console
    refine ⟨[], [], .endOfInput reads waiting, ?_, ?_⟩
    · rw [console, List.nil_append]
    · rw [console, List.append_nil]
  | cons byte rest =>
    rw [waiting] at console
    refine ⟨[byte], [], .character reads waiting (told byte rest waiting), ?_, ?_⟩
    · rw [console, waiting]
      rfl
    · rw [console, List.append_nil]

theorem run_of_readsCharacter (reads : called.ReadsCharacter s) :
    ∃ value, called.run.run s = .ok (.value value) { s with console := s.console.nextByte.2 } ∧
      ∀ byte rest, s.console.input = byte :: rest → value = byte.toUInt32 := by
  have read : Service.readCharacter.run s =
      .ok ((s.console.nextByte.1.map (·.toUInt32)).getD Service.endOfInput)
        { s with console := s.console.nextByte.2 } := rfl
  have told (byte : UInt8) (rest : List UInt8) (waiting : s.console.input = byte :: rest) :
      (s.console.nextByte.1.map (·.toUInt32)).getD Service.endOfInput = byte.toUInt32 := by
    rw [Console.nextByte, waiting]
    rfl
  cases called with
  | readCharacter => exact ⟨_, rfl, told⟩
  | deviceRead =>
    have reads : s.arguments.word 2 = .ok 2 := reads
    refine ⟨_, ?_, told⟩
    rw [run, Service.run_map, Service.deviceRead, Service.run_argumentWord_bind, reads]
    dsimp only
    have console : (2 : UInt16) = Service.consoleDevice := rfl
    rw [if_pos console, read]
  | rawInputOutput =>
    have reads : s.arguments.word 2 = .ok 0xff := reads
    have ran : Service.rawInputOutput.run s =
        (if s.console.isReady then Service.readCharacter else pure 0).run s := by
      rw [Service.rawInputOutput, Service.run_argumentWord_bind, reads]
      rfl
    cases waiting : s.console.input with
    | nil =>
      have idle : s.console.isReady = false := by
        rw [Console.isReady, waiting]
        rfl
      have same : s.console.nextByte.2 = s.console := by rw [Console.nextByte, waiting]
      refine ⟨0, ?_, fun byte rest h => by cases h⟩
      rw [run, Service.run_map, ran, idle, same]
      rfl
    | cons byte rest =>
      have ready : s.console.isReady = true := by
        rw [Console.isReady, waiting]
        rfl
      refine ⟨_, ?_, waiting ▸ told⟩
      rw [run, Service.run_map, ran, ready, if_pos rfl, read]
  | _ => exact reads.elim

theorem run_of_printsCharacter {byte : UInt8} (prints : called.PrintsCharacter s byte) :
    called.run.run s = .ok (.value 0) { s with console := s.console.write [byte] } := by
  cases called with
  | writeCharacter =>
    obtain ⟨word, fetched, rfl⟩ := prints
    rw [run, Service.run_map, Service.writeCharacter, Service.run_argumentWord_bind, fetched]
    rfl
  | rawInputOutput =>
    obtain ⟨word, fetched, other, rfl⟩ := prints
    rw [run, Service.run_map, Service.rawInputOutput, Service.run_argumentWord_bind, fetched]
    dsimp only
    rw [if_pos other]
    rfl
  | deviceWrite =>
    obtain ⟨device, word, fetched, rfl⟩ := prints
    rw [run, Service.run_map, Service.deviceWrite, Service.run_argumentWord_bind, device]
    dsimp only
    rw [Service.run_argumentWord_bind, fetched]
    rfl
  | _ => exact prints.elim

theorem settles_readsCharacter (reads : called.ReadsCharacter s)
    (ran : called.run.run s = .ok (.value answer) u) : called.Settles s answer u := by
  obtain ⟨value, ran', told⟩ := run_of_readsCharacter reads
  cases ran'.symm.trans ran
  exact settles_of_reads reads told rfl

theorem settles_printsCharacter {byte : UInt8} (prints : called.PrintsCharacter s byte)
    (ran : called.run.run s = .ok (.value answer) u) : called.Settles s answer u := by
  cases (run_of_printsCharacter prints).symm.trans ran
  exact settles_of_prints prints rfl

theorem settles_rawInputOutput (ran : rawInputOutput.run.run s = .ok (.value answer) u) :
    rawInputOutput.Settles s answer u := by
  obtain ⟨value, ran', told⟩ := Service.ok_of_map ran
  obtain ⟨word, fetched, _⟩ := Service.exists_word_of_run ran'
  by_cases asks : word = 0xff
  · subst asks
    have reads : rawInputOutput.ReadsCharacter s := fetched
    exact settles_readsCharacter reads ran
  · have prints : rawInputOutput.PrintsCharacter s word.toUInt8 := ⟨word, fetched, asks, rfl⟩
    exact settles_printsCharacter prints ran

theorem settles_deviceRead (ran : deviceRead.run.run s = .ok (.value answer) u) :
    deviceRead.Settles s answer u := by
  obtain ⟨value, ran', told⟩ := Service.ok_of_map ran
  obtain ⟨device, fetched, ran'⟩ := Service.exists_word_of_run ran'
  by_cases console : device = Service.consoleDevice
  · subst console
    have reads : deviceRead.ReadsCharacter s := fetched
    exact settles_readsCharacter reads ran
  · rw [if_neg console] at ran'
    cases ran'
    exact settles_of_isApart ⟨device, fetched, console⟩ rfl

theorem settles_deviceWrite (ran : deviceWrite.run.run s = .ok (.value answer) u) :
    deviceWrite.Settles s answer u := by
  obtain ⟨value, ran', told⟩ := Service.ok_of_map ran
  obtain ⟨device, fetched, ran'⟩ := Service.exists_word_of_run ran'
  obtain ⟨word, fetched', ran'⟩ := Service.exists_word_of_run ran'
  by_cases console : device = Service.consoleDevice
  · subst console
    have prints : deviceWrite.PrintsCharacter s word.toUInt8 := ⟨fetched, word, fetched', rfl⟩
    exact settles_printsCharacter prints ran
  · dsimp only at ran'
    rw [if_neg console] at ran'
    cases ran'
    exact settles_of_isApart ⟨device, fetched, console⟩ rfl

theorem settles_printString (ran : printString.run.run s = .ok (.value answer) u) :
    printString.Settles s answer u := by
  obtain ⟨value, ran', told⟩ := Service.ok_of_map ran
  obtain ⟨addr, fetched, ran'⟩ := Service.exists_long_of_run ran'
  obtain ⟨found, read, ran'⟩ := Service.Touches.exists_run (.stringAt addr _) ran'
  cases found with
  | none => cases ran'
  | some text =>
    cases ran'
    have held := Service.holdsString_of_stringAt read
    exact ⟨[], text, .string fetched held, rfl, rfl⟩

theorem settles_readFile (sound : s.memory.Sound) (holds : s.memory.Each Area.HoldsWrites)
    (ran : readFile.run.run s = .ok (.value answer) u) : readFile.Settles s answer u := by
  obtain ⟨value, ran', told⟩ := Service.ok_of_map ran
  cases told
  obtain ⟨handle, count, buffer, asked, ran'⟩ := System.exists_transfers_of_run ran'
  obtain ⟨_, _, ran'⟩ := Service.Touches.exists_run (.requireWritable buffer _) ran'
  obtain ⟨data, t, fetched, ran'⟩ := Service.ok_of_bind ran'
  obtain ⟨memory, stored, ran'⟩ := Service.exists_store_of_run ran'
  cases ran'
  rcases Service.console_of_fetch fetched with ⟨rfl, rfl, rfl⟩ | ⟨other, same⟩
  · have line := Console.isLine_splitLine count.toNat s.console.input
    have short : (Console.splitLine count.toNat s.console.input).1.length < UInt32.size :=
      Nat.lt_of_le_of_lt (Console.length_splitLine _ _) count.toNat_lt_size
    refine ⟨_, [], .fileLine asked line ?_
      (System.receives_of_store sound holds stored), ?_, ?_⟩
    · rw [Nat.toUInt32_eq, UInt32.toNat_ofNat_of_lt' short]
    · exact (Console.splitLine_append _ _).symm
    · exact (List.append_nil _).symm
  · exact settles_of_isApart ⟨handle, asked.handle, other⟩ same

theorem settles_writeFile (ordered : s.memory.Ordered) (silent : s.memory.Each Area.IsSilent)
    (ran : writeFile.run.run s = .ok (.value answer) u) : writeFile.Settles s answer u := by
  obtain ⟨value, ran', told⟩ := Service.ok_of_map ran
  cases told
  obtain ⟨handle, count, buffer, asked, ran'⟩ := System.exists_transfers_of_run ran'
  rw [Service.run_get_bind] at ran'
  dsimp only at ran'
  split at ran'
  · cases ran'
  obtain ⟨data, loaded, ran'⟩ := Service.exists_load_of_run ordered silent ran'
  obtain ⟨_, v, sent, ran'⟩ := Service.ok_of_bind ran'
  cases ran'
  rcases Service.console_of_send sent with ⟨output, console⟩ | ⟨first, second, same⟩
  · refine ⟨[], data, .buffer asked output loaded, ?_, ?_⟩
    · rw [console]
      rfl
    · rw [console]
      rfl
  · exact settles_of_isApart ⟨handle, asked.handle, first, second⟩ same

theorem settles_readString (sound : s.memory.Sound) (silent : s.memory.Each Area.IsSilent)
    (holds : s.memory.Each Area.HoldsWrites)
    (ran : readString.run.run s = .ok (.value answer) u) : readString.Settles s answer u := by
  obtain ⟨value, ran', told⟩ := Service.ok_of_map ran
  obtain ⟨addr, addr_eq, ran'⟩ := Service.exists_long_of_run ran'
  obtain ⟨data, loaded, ran'⟩ := Service.exists_load_of_run sound.ordered silent ran'
  obtain ⟨capacity, rfl⟩ := List.length_eq_one_iff.mp (sound.ordered.length_load loaded)
  have line := Console.isLine_splitLine capacity.toNat s.console.input
  obtain ⟨_, _, ran'⟩ := Service.Touches.exists_run (.requireWritable _ _) ran'
  rw [Service.run_get_bind] at ran'
  obtain ⟨memory, stored, ran'⟩ := Service.exists_store_of_run
    (s := { s with console.input := (Console.splitLine capacity.toNat s.console.input).2 }) ran'
  cases ran'
  have trims := Service.trims_trimLine (Console.splitLine capacity.toNat s.console.input).1
  have counted := Service.toNat_length_trimLine capacity s.console.input
  refine ⟨_, [], .line addr_eq loaded line trims counted
    (System.receives_of_store sound holds stored), ?_, ?_⟩
  · exact (Console.splitLine_append _ _).symm
  · exact (List.append_nil _).symm

theorem settles_of_run (sound : s.memory.Sound) (silent : s.memory.Each Area.IsSilent)
    (holds : s.memory.Each Area.HoldsWrites) (ran : called.run.run s = .ok (.value answer) u) :
    called.Settles s answer u := by
  by_cases console : .console ∈ called.parts
  · cases called with
    | readCharacter =>
      have reads : readCharacter.ReadsCharacter s := trivial
      exact settles_readsCharacter reads ran
    | writeCharacter =>
      obtain ⟨value, ran', told⟩ := Service.ok_of_map ran
      obtain ⟨word, fetched, _⟩ := Service.exists_word_of_run ran'
      have prints : writeCharacter.PrintsCharacter s word.toUInt8 := ⟨word, fetched, rfl⟩
      exact settles_printsCharacter prints ran
    | rawInputOutput => exact settles_rawInputOutput ran
    | printString => exact settles_printString ran
    | readString => exact settles_readString sound silent holds ran
    | deviceRead => exact settles_deviceRead ran
    | deviceWrite => exact settles_deviceWrite ran
    | readFile => exact settles_readFile sound holds ran
    | writeFile => exact settles_writeFile sound.ordered silent ran
    | _ => exact absurd console (by decide)
  · have same := called.run_touches s .console console
    rw [Service.after_of_ok ran] at same
    have apart : called.IsApart s := by
      cases called <;> trivial
    exact settles_of_isApart apart same

theorem console_of_run (ordered : s.memory.Ordered) (silent : s.memory.Each Area.IsSilent)
    (refuses : ∀ value u, called.run.run s ≠ .ok (.value value) u) :
    (called.run.after s).console = s.console := by
  by_cases console : .console ∈ called.parts
  -- Whoever has to do with the console comes to a value or changes nothing.
  · have clean : called.leavesTraces = false := by
      cases called <;> first | rfl | exact absurd console (by decide)
    have valued : ∃ m, called.run = .value <$> m := by
      cases called <;> first | exact ⟨_, rfl⟩ | exact absurd console (by decide)
    obtain ⟨m, same⟩ := valued
    cases ran : called.run.run s with
    | ok result u =>
      rw [same] at ran
      obtain ⟨value, _, rfl⟩ := Service.ok_of_map ran
      rw [← same] at ran
      exact absurd ran (refuses value u)
    | error failure u =>
      have left := failsClean_run ordered silent none clean failure u ran
      rw [Service.after_of_error ran, left.resolve_right fun broken => by cases broken.2.choose_spec.1]
  · exact called.run_touches s .console console

end Routine

end AtariTos
