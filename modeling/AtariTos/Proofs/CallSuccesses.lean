import AtariTos.Proofs.ConsoleExchanges
import AtariTos.Proofs.FlatMemory
import AtariTos.Proofs.StringLimits

namespace AtariTos

namespace Service

variable {s : System} {handle : Int16} {addr buffer count : UInt32} {capacity : UInt8}
  {line rest text : List UInt8}

theorem isWritable_of_grants (ordered : s.memory.Ordered) {count : Nat}
    (granted : s.memory.Grants addr count (·.mayWrite s.registers.privilege)) :
    isWritable s addr count = true := by
  obtain ⟨area, member, within, allowed⟩ := granted
  cases count with
  | zero => rfl
  | succ count =>
    obtain ⟨inside, fits⟩ := GuestMemory.fits_of_subset (Nat.succ_pos count) within
    rw [isWritable, ordered.find?_eq_some_iff.mpr ⟨member, inside⟩]
    simp only [Area.covers_iff.mpr ⟨inside, fits⟩, allowed, Bool.and_self, Bool.or_true]

theorem run_readString (asked : s.arguments.long 2 = .ok addr)
    (holds : s.memory.load addr 1 s.registers.privilege = .ok ([capacity], s.memory))
    (writable : isWritable s (addr + 1) (capacity.toNat + 1) = true)
    (split : Console.splitLine capacity.toNat s.console.input = (line, rest)) :
    ∃ memory, s.memory.store (addr + 1) ((trimLine line).length.toUInt8 :: trimLine line)
        s.registers.privilege = .ok memory ∧
      readString.run s = .ok 0 { s with memory, console.input := rest } := by
  have length : (trimLine line).length ≤ capacity.toNat := by
    have short := Console.length_splitLine capacity.toNat s.console.input
    rw [split] at short
    exact (length_trimLine line).trans short
  have stores : ∃ memory, s.memory.store (addr + 1)
      ((trimLine line).length.toUInt8 :: trimLine line) s.registers.privilege = .ok memory :=
    exists_store_of_isWritable writable (Nat.succ_le_succ length)
  obtain ⟨memory, stored⟩ := stores
  refine ⟨memory, stored, ?_⟩
  have loaded : (loadBuffer addr 1).run s = .ok [capacity] s := by
    rw [run_loadBuffer, holds]
  have checked : (requireWritable (addr + 1) (capacity.toNat + 1)).run s = .ok () s := by
    rw [run_requireWritable, if_pos writable]
  have taken : (exchange (s.console.takeLine capacity.toNat none)).run s =
      .ok line { s with console.input := rest } := by
    rw [run_exchange, Console.takeLine]
    dsimp only
    rw [Console.nextLine, split]
  rw [readString, run_argumentLong_bind, asked]
  dsimp only
  rw [run_bind_of_ok loaded]
  dsimp only [List.headD_cons]
  rw [run_bind_of_ok checked, run_get_bind, run_bind_of_ok taken]
  have written : (storeBuffer (addr + 1) ((trimLine line).length.toUInt8 :: trimLine line)).run
      { s with console.input := rest } = .ok () { s with memory, console.input := rest } := by
    rw [run_storeBuffer, stored]
  exact run_bind_of_ok written

theorem succeeds_printString (asked : s.arguments.long 2 = .ok addr)
    (held : s.memory.HoldsString addr text s.registers.privilege)
    (short : text.length < printMax) : Succeeds printString s := by
  have ran := run_printString asked held
  rw [if_pos short] at ran
  exact ⟨_, _, ran⟩

theorem succeeds_readFile (asked : s.Transfers 0 count buffer)
    (writable : isWritable s buffer count.toNat = true) : Succeeds readFile s := by
  have target : s.kernel.handles.get? 0 = some .consoleInput :=
    Handles.get?_eq_consoleInput_iff.mpr rfl
  have checked : (requireWritable buffer count.toNat).run s = .ok () s := by
    rw [run_requireWritable, if_pos writable]
  have fetched : (fetch 0 count.toNat).run s =
      .ok (s.console.nextLine count.toNat).1
        { s with console := (s.console.nextLine count.toNat).2 } := by
    rw [fetch, run_get_bind, target]
    rfl
  have short := Console.length_splitLine count.toNat s.console.input
  rw [← isWritable_of_same rfl rfl] at writable
  rw [Succeeds, readFile, asked.run_bind, run_bind_of_ok checked, run_bind_of_ok fetched]
  exact succeeds_storeBuffer_pure writable short

theorem succeeds_writeFile (asked : s.Transfers handle count buffer)
    (output : handle = 1 ∨ handle = 2)
    (holds : s.memory.load buffer count.toNat s.registers.privilege = .ok (text, s.memory)) :
    Succeeds writeFile s := by
  have target : s.kernel.handles.get? handle = some .consoleOutput :=
    Handles.get?_eq_consoleOutput_iff.mpr output
  have known : ¬(s.kernel.handles.get? handle).isNone = true := by
    rw [target]
    exact Bool.false_ne_true
  have loaded : (loadBuffer buffer count.toNat).run s = .ok text s := by
    rw [run_loadBuffer, holds]
  have sent : (send handle text).run s = .ok () { s with console := s.console.write text } := by
    rw [send, run_get_bind, target]
    rfl
  rw [Succeeds, writeFile, asked.run_bind, run_get_bind, if_neg known, run_bind_of_ok loaded,
    run_bind_of_ok sent]
  exact ⟨_, _, rfl⟩

end Service

namespace Routine

/-- The call finds what its arguments name: a character, a string that is short enough, or a buffer
that it may read or fill. -/
def IsServed (s : System) : Routine → Prop
  | printString =>
    ∃ addr text, s.arguments.long 2 = .ok addr ∧
      s.memory.HoldsString addr text s.registers.privilege ∧ text.length < 0x8000
  | readString =>
    ∃ addr capacity, s.arguments.long 2 = .ok addr ∧
      s.memory.load addr 1 s.registers.privilege = .ok ([capacity], s.memory) ∧
      s.memory.Grants (addr + 1) (capacity.toNat + 1) (·.mayWrite s.registers.privilege)
  | readFile =>
    ∃ count buffer, s.Transfers 0 count buffer ∧
      s.memory.Grants buffer count.toNat (·.mayWrite s.registers.privilege)
  | writeFile =>
    ∃ handle count buffer data, s.Transfers handle count buffer ∧ (handle = 1 ∨ handle = 2) ∧
      s.memory.load buffer count.toNat s.registers.privilege = .ok (data, s.memory)
  | called => called.ReadsCharacter s ∨ ∃ byte, called.PrintsCharacter s byte

theorem exists_value_of_isServed {s : System} {called : Routine} (ordered : s.memory.Ordered)
    (served : called.IsServed s) : ∃ value u, called.run.run s = .ok (.value value) u := by
  have value {m : Service UInt32} (ran : Service.Succeeds m s) :
      ∃ value u, (Answer.value <$> m).run s = .ok (.value value) u := by
    obtain ⟨value, u, ran⟩ := ran
    exact ⟨value, u, by rw [Service.run_map, ran]⟩
  have character (served : called.ReadsCharacter s ∨ ∃ byte, called.PrintsCharacter s byte) :
      ∃ value u, called.run.run s = .ok (.value value) u := by
    rcases served with reads | ⟨byte, prints⟩
    · obtain ⟨value, ran, _⟩ := run_of_readsCharacter reads
      exact ⟨value, _, ran⟩
    · exact ⟨0, _, run_of_printsCharacter prints⟩
  cases called with
  | printString =>
    obtain ⟨addr, text, asked, held, short⟩ := served
    exact value (Service.succeeds_printString asked held short)
  | readString =>
    obtain ⟨addr, capacity, asked, holds, granted⟩ := served
    have writable := Service.isWritable_of_grants ordered granted
    obtain ⟨memory, _, ran⟩ := Service.run_readString asked holds writable rfl
    exact value ⟨0, _, ran⟩
  | readFile =>
    obtain ⟨count, buffer, asked, granted⟩ := served
    exact value (Service.succeeds_readFile asked (Service.isWritable_of_grants ordered granted))
  | writeFile =>
    obtain ⟨handle, count, buffer, data, asked, output, holds⟩ := served
    exact value (Service.succeeds_writeFile asked output holds)
  | _ => exact character served

end Routine

end AtariTos
