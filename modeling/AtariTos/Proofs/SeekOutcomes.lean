import AtariTos.Proofs.FileRefinement
import AtariTos.Proofs.SuccessivePrograms
import Mathlib.Algebra.Group.Int.Defs
import Mathlib.Algebra.Group.Nat.Defs

namespace AtariTos

theorem toInt_toInt32 (value : UInt32) :
    value.toInt32.toInt =
      if value.toNat < 2 ^ 31 then (value.toNat : Int) else value.toNat - 2 ^ 32 := by
  have signed : value.toInt32.toInt = value.toBitVec.toInt := rfl
  have same : value.toBitVec.toNat = value.toNat := rfl
  rw [signed, BitVec.toInt_eq_toNat_cond, same]
  split <;> split <;> omega

theorem toNat?_of_neg {n : Int} (h : n < 0) : n.toNat? = none := by
  cases place : n.toNat? with
  | none => rfl
  | some k =>
    have same := Int.mem_toNat?.mp place
    omega

theorem Status.register_negative {status : Status} (failed : status ≠ .success) :
    status.register.toInt32 < 0 := by
  revert failed
  cases status <;> decide

namespace HostTree

theorem seek_eq (tree : HostTree) (f : OpenFile) (origin : SeekOrigin) (offset : Int) :
    tree.seek f origin offset =
      match (seekBase (tree.bytes f.file).length f origin + offset).toNat? with
      | none => .error .negativeOffset
      | some position => .ok { f with position } := by
  have from_ : ∀ base : Nat,
      (if (base : Int) + offset < 0 then .error .negativeOffset
        else .ok { f with position := ((base : Int) + offset).toNat }) =
        match ((base : Int) + offset).toNat? with
        | none => (.error .negativeOffset : Except HostError OpenFile)
        | some position => .ok { f with position } := by
    intro base
    split
    next negative => rw [toNat?_of_neg negative]
    next reached => rw [Int.mem_toNat?.mpr (Int.toNat_of_nonneg (Int.not_lt.mp reached)).symm]
  have length : (tree.bytes f.file).length = (tree.file f.file).content.size :=
    Content.length_bytes _
  rw [length]
  cases origin with
  | start => exact from_ 0
  | current => exact from_ f.position
  | finish => exact from_ (tree.file f.file).content.size

end HostTree

namespace System

variable {s : System} {offset : UInt32} {handle : Int16} {word : UInt16} {f : OpenFile}

/-- The arguments of a call name a distance, a handle and how to count. -/
structure Displaces (s : System) (offset : UInt32) (handle : Int16) (word : UInt16) : Prop where
  offset : s.arguments.long 2 = .ok offset
  handle : s.arguments.signedWord 6 = .ok handle
  word : s.arguments.word 8 = .ok word

/-- Where a mode word counts from in a file of a length. -/
def seekStart? (length : Nat) (f : OpenFile) (word : UInt16) : Option Nat :=
  match word with
  | 0 => some 0
  | 1 => some f.position
  | 2 => some length
  | _ => none

/-- The position that a seek asks for, if there can be one. -/
def seekGoal? (s : System) (f : OpenFile) (word : UInt16) (offset : UInt32) : Option Nat :=
  (seekStart? (s.fileView.bytes f.file).length f word).bind fun start =>
    (start + offset.toInt32.toInt).toNat?

/-- A handle stands for the same file at another position. -/
def moveTo (s : System) (handle : Int16) (f : OpenFile) (position : Nat) : System :=
  { s with
    kernel :=
      { s.kernel with handles := s.kernel.handles.replace handle { f with position } } }

theorem seekStart?_eq_none {length : Nat} (zero : word ≠ 0) (one : word ≠ 1) (two : word ≠ 2) :
    seekStart? length f word = none := by
  unfold seekStart?
  split
  · exact absurd rfl zero
  · exact absurd rfl one
  · exact absurd rfl two
  · rfl

theorem seekStart?_cases (length : Nat) (f : OpenFile) (word : UInt16) (offset : Int32) :
    (∃ origin, Service.seekOrigin? word offset = some origin ∧
      seekStart? length f word = some (HostTree.seekBase length f origin)) ∨
    (Service.seekOrigin? word offset = none ∧
      ∀ start, seekStart? length f word = some start → (start : Int) + offset.toInt < 0) := by
  unfold Service.seekOrigin?
  split
  · split
    next negative =>
      refine .inr ⟨rfl, fun start same => ?_⟩
      cases same
      rw [Int32.lt_iff_toInt_lt] at negative
      simpa using negative
    · exact .inl ⟨.start, rfl, rfl⟩
  · exact .inl ⟨.current, rfl, rfl⟩
  · exact .inl ⟨.finish, rfl, rfl⟩
  next zero one two =>
    refine .inr ⟨rfl, fun start same => ?_⟩
    rw [seekStart?_eq_none zero one two] at same
    cases same

end System

namespace Service

variable {s : System} {offset : UInt32} {handle : Int16} {word : UInt16} {f : OpenFile}

theorem run_seekFile (asked : s.Displaces offset handle word)
    (given : s.kernel.handles.opened handle = some f) :
    seekFile.run s =
      match s.seekGoal? f word offset with
      | none => .error (.status .invalidArgument) s
      | some position =>
        if position < UInt32.size then .ok position.toUInt32 (s.moveTo handle f position)
        else .error (.status .rangeError) (s.moveTo handle f position) := by
  unfold seekFile
  rw [run_argumentLong_bind, asked.offset]
  dsimp only
  rw [run_argumentHandle_bind, asked.handle]
  dsimp only
  rw [run_argumentWord_bind, asked.word]
  dsimp only
  rw [System.seekGoal?]
  rcases System.seekStart?_cases (s.host.bytes f.file).length f word offset.toInt32 with
    ⟨origin, named, start⟩ | ⟨named, nowhere⟩
  · have start' : System.seekStart? (s.fileView.bytes f.file).length f word =
        some (HostTree.seekBase (s.host.bytes f.file).length f origin) := start
    rw [named, start', Option.bind_some]
    dsimp only
    rw [run_get_bind, Handles.get?_of_opened given]
    dsimp only
    rw [HostTree.seek_eq]
    cases (HostTree.seekBase (s.host.bytes f.file).length f origin +
      offset.toInt32.toInt).toNat? with
    | none => rfl
    | some position =>
      dsimp only
      unfold replaceFile setKernel
      rw [run_modify_bind]
      split <;> rfl
  · rw [named]
    cases start : System.seekStart? (s.fileView.bytes f.file).length f word with
    | none => rfl
    | some base =>
      rw [Option.bind_some, toNat?_of_neg (nowhere base start)]
      rfl

theorem eq_or_stop_of_bind {α β : Type} {m : Service α} {next : α → Service β} {t : System}
    {cause : StopCause} (reads : Touches [] m)
    (ran : (m >>= next).run s = .error (.stop cause) t) :
    t = s ∨ ∃ value, (next value).run s = .error (.stop cause) t := by
  have same := reads.after_eq s
  rcases error_of_bind ran with here | ⟨value, u, first, there⟩
  · rw [after_of_error here] at same
    exact .inl same
  · rw [after_of_ok first] at same
    exact .inr ⟨value, same ▸ there⟩

theorem eq_of_seekFile_stop {t : System} {cause : StopCause}
    (ran : seekFile.run s = .error (.stop cause) t) : t = s := by
  rcases eq_or_stop_of_bind (.argumentLong 2) ran with same | ⟨offset, ran⟩
  · exact same
  rcases eq_or_stop_of_bind (.argumentHandle 6) ran with same | ⟨handle, ran⟩
  · exact same
  rcases eq_or_stop_of_bind (.argumentWord 8) ran with same | ⟨word, ran⟩
  · exact same
  split at ran
  · cases ran
  rw [run_get_bind] at ran
  split at ran
  · cases ran
  · cases ran
  · cases ran
  · cases ran
  split at ran
  · cases ran
  · unfold replaceFile setKernel at ran
    rw [run_modify_bind] at ran
    split at ran <;> cases ran

end Service

def seekAnswer (position : Nat) : UInt32 :=
  if position < UInt32.size then position.toUInt32 else Status.rangeError.register

/-- A program takes a position for one exactly in the lower half of the longwords. -/
theorem toInt_seekAnswer_of_lt {position : Nat} (low : position < 2 ^ 31) :
    (seekAnswer position).toInt32.toInt = position := by
  have size : UInt32.size = 2 ^ 32 := rfl
  have fits : position < UInt32.size := by omega
  have same : position.toUInt32.toNat = position := UInt32.toNat_ofNat_of_lt' fits
  rw [seekAnswer, if_pos fits, toInt_toInt32, same, if_pos low]

theorem seekAnswer_negative {position : Nat} (high : 2 ^ 31 ≤ position) :
    (seekAnswer position).toInt32 < 0 := by
  rw [seekAnswer]
  split
  next fits =>
    have same : position.toUInt32.toNat = position := UInt32.toNat_ofNat_of_lt' fits
    have size : UInt32.size = 2 ^ 32 := rfl
    have zero : (0 : Int32).toInt = 0 := rfl
    rw [Int32.lt_iff_toInt_lt, toInt_toInt32, same, if_neg (Nat.not_lt.mpr high), zero]
    omega
  · exact Status.register_negative (by decide)

namespace System

variable {s : System} {handle : Int16} {f : OpenFile}

/-- The position has moved, and the program has been told what it can be told. -/
def sought (s : System) (handle : Int16) (f : OpenFile) (position : Nat) : System :=
  Trap.answer (s.moveTo handle f position) (seekAnswer position)

theorem answer_sought (s : System) (handle : Int16) (f : OpenFile) (position : Nat) :
    (s.sought handle f position).registers.get .answer = seekAnswer position :=
  Registers.get_set_answer _ _

theorem opened_sought (given : s.fileView.opened handle = some f) (position : Nat) :
    (s.sought handle f position).fileView.opened handle = some { f with position } := by
  change (s.moveTo handle f position).fileView.opened handle = _
  rw [moveTo, fileView_replace given]
  exact Function.update_self ..

end System

namespace Session

variable {s t : Session} {vector : UInt8} {offset : UInt32} {handle : Int16} {word : UInt16}
  {f : OpenFile}

theorem trap_seekFile (asked : Trap.routine s.system vector = .ok .seekFile)
    (displaces : s.system.Displaces offset handle word)
    (given : s.system.fileView.opened handle = some f) :
    s.trap vector = (.ok .proceed,
      { s with
        system :=
          match s.system.seekGoal? f word offset with
          | none => Trap.answer s.system Status.invalidArgument.register
          | some position => s.system.sought handle f position }) := by
  have ran := Service.run_seekFile displaces given
  rw [trap_of_map asked rfl, ran]
  cases s.system.seekGoal? f word offset with
  | none => rfl
  | some position =>
    dsimp only
    by_cases fits : position < UInt32.size
    · rw [System.sought, seekAnswer, if_pos fits, if_pos fits]
    · rw [System.sought, seekAnswer, if_neg fits, if_neg fits]

theorem eq_of_seekFile_stopped {stop : Stop}
    (asked : Trap.routine s.system vector = .ok .seekFile)
    (stopped : s.trap vector = (.error stop, t)) : t = s := by
  rw [trap_of_map asked rfl] at stopped
  split at stopped
  · cases stopped
  · cases stopped
  next cause u ran =>
    cases stopped
    rw [Service.eq_of_seekFile_stop ran]

/-- What a program may rely on after a seek: an answer that is not negative is the new position, and
it is the one that was asked for; an answer that is negative means that the seek has failed and the
position has not moved. -/
structure SeeksOrStays (s : Session) (offset : UInt32) (handle : Int16) (word : UInt16)
    (f : OpenFile) (t : Session) : Prop where
  seeks : 0 ≤ (t.system.registers.get .answer).toInt32 →
    ∃ position, s.system.seekGoal? f word offset = some position ∧
      (t.system.registers.get .answer).toInt32.toInt = position ∧
      t.system.fileView.opened handle = some { f with position }
  stays : (t.system.registers.get .answer).toInt32 < 0 →
    (∃ status u, Service.seekFile.run s.system = .error (.status status) u) ∧
      t.system.fileView.opened handle = some f

theorem SeeksOrStays.of_status {status : Status} {u : System} (failed : status ≠ .success)
    (ran : Service.seekFile.run s.system = .error (.status status) u)
    (told : t.system.registers.get .answer = status.register)
    (stays : t.system.fileView.opened handle = some f) : s.SeeksOrStays offset handle word f t := by
  refine ⟨fun high => ?_, fun _ => ⟨⟨status, u, ran⟩, stays⟩⟩
  have low := status.register_negative failed
  rw [told] at high
  exact absurd low (Int32.not_lt.mpr high)

/-- A position that has moved can be told to the program in the lower half of the longwords, and is
no more than a failure that leaves it where it was beyond all of them. -/
theorem seeksOrStays_of_goal {position : Nat} (displaces : s.system.Displaces offset handle word)
    (given : s.system.fileView.opened handle = some f)
    (goal : s.system.seekGoal? f word offset = some position) :
    s.SeeksOrStays offset handle word f
        { s with system := s.system.sought handle f position } ↔
      position < 2 ^ 31 ∨ 2 ^ 32 ≤ position ∧ position = f.position := by
  have told := s.system.answer_sought handle f position
  have moved := System.opened_sought given position
  have ran := Service.run_seekFile displaces given
  rw [goal] at ran
  dsimp only at ran
  rcases Nat.lt_or_ge position (2 ^ 31) with low | high
  · have here := toInt_seekAnswer_of_lt low
    rw [← told] at here
    refine iff_of_true ⟨fun _ => ⟨position, goal, here, moved⟩, fun negative => ?_⟩ (.inl low)
    rw [Int32.lt_iff_toInt_lt, here] at negative
    exact absurd negative (Int.not_lt.mpr (Int.natCast_nonneg position))
  have negative := seekAnswer_negative high
  rw [← told] at negative
  rcases Nat.lt_or_ge position UInt32.size with fits | beyond
  · rw [if_pos fits] at ran
    have size : UInt32.size = 2 ^ 32 := rfl
    refine iff_of_false (fun law => ?_) (by omega)
    obtain ⟨⟨status, u, failed⟩, _⟩ := law.stays negative
    rw [ran] at failed
    cases failed
  · rw [if_neg (Nat.not_lt.mpr beyond)] at ran
    have range : seekAnswer position = Status.rangeError.register :=
      if_neg (Nat.not_lt.mpr beyond)
    constructor
    · intro law
      have same := moved.symm.trans (law.stays negative).2
      exact .inr ⟨beyond, congrArg OpenFile.position (Option.some.inj same)⟩
    · rintro (low | ⟨_, rfl⟩)
      · omega
      · exact .of_status (by decide) ran (told.trans range) moved

/-- Every seek on a handle that is open comes to an answer and leaves everything else alone. It asks
for a position that is a sum of whole numbers; where there is none the position stays, and otherwise
it moves. A program may rely on the answer exactly if the position lies in the lower half of the
longwords, or beyond all of them but where it was. A seek whose arguments cannot be fetched leaves
no trace. -/
theorem seeksOrStays_iff (asked : Trap.routine s.system vector = .ok .seekFile) :
    (∀ stop t, s.trap vector = (.error stop, t) → t = s) ∧
    ∀ offset handle word f, s.system.Displaces offset handle word →
      s.system.fileView.opened handle = some f → ∃ t, s.trap vector = (.ok .proceed, t) ∧
        (s.system.seekGoal? f word offset = none →
          t = { s with system := Trap.answer s.system Status.invalidArgument.register }) ∧
        (∀ position, s.system.seekGoal? f word offset = some position →
          t = { s with system := s.system.sought handle f position }) ∧
        (s.SeeksOrStays offset handle word f t ↔
          ∀ position, s.system.seekGoal? f word offset = some position →
            position < 2 ^ 31 ∨ 2 ^ 32 ≤ position ∧ position = f.position) := by
  refine ⟨fun stop t stopped => eq_of_seekFile_stopped asked stopped, ?_⟩
  intro offset handle word f displaces given
  have trapped := trap_seekFile asked displaces given
  refine ⟨_, trapped, fun none => by rw [none], fun position goal => by rw [goal], ?_⟩
  cases goal : s.system.seekGoal? f word offset with
  | none =>
    have ran := Service.run_seekFile displaces given
    rw [goal] at ran
    exact iff_of_true (.of_status (by decide) ran (Registers.get_set_answer _ _) given)
      fun _ same => by cases same
  | some position =>
    refine (seeksOrStays_of_goal displaces given goal).trans
      ⟨fun reliable other same => ?_, fun all => all position rfl⟩
    rwa [← Option.some.inj same]

/-- The program creates a file and moves its handle on as far as it can with one call, some times
over. The arguments for one more such call are on its stack. -/
def movingOn (times : Nat) : List Action :=
  [.registers { address := #v[0, 0, 0, 0, 0, 0, 0, 0xa80] },
    .write 0xa80 [0, 0x3c, 0, 0, 0x0a, 0x88, 0, 0, 0x46, 0] .user, .trap Trap.gemdosVector,
    .write 0xa80 [0, 0x42, 0x7f, 0xff, 0xff, 0xff, 0, 6, 0, 1] .user] ++
    List.replicate times (.trap Trap.gemdosVector)

/-- The state of the program when it asks for the position to be moved once more. -/
def afterMovingOn (times : Nat) : Session :=
  withInstruction.performAll (movingOn times)

def movedOn (times : Nat) : OpenFile where
  file := 0
  path := ["F"]
  position := 0x7fffffff * times
  readable := false
  writable := true

set_option maxRecDepth 10000 in
theorem asks_afterMovingOn : ∀ times ∈ [0, 1, 2],
    Trap.routine (afterMovingOn times).system Trap.gemdosVector = .ok .seekFile ∧
      (afterMovingOn times).system.arguments.long 2 = .ok 0x7fffffff ∧
      (afterMovingOn times).system.arguments.signedWord 6 = .ok 6 ∧
      (afterMovingOn times).system.arguments.word 8 = .ok 1 ∧
      (afterMovingOn times).system.fileView.opened 6 = some (movedOn times) := by
  simp only [afterMovingOn]
  rw [withInstruction, loadedAreas, LoadedProgram.areas, LoadedProgram.userArea_eq]
  decide +kernel

theorem displaces_afterMovingOn {times : Nat} (few : times ∈ [0, 1, 2]) :
    (afterMovingOn times).system.Displaces 0x7fffffff 6 1 := by
  obtain ⟨_, distance, named, word, _⟩ := asks_afterMovingOn times few
  exact ⟨distance, named, word⟩

theorem seekGoal?_movedOn (s : System) (times : Nat) :
    s.seekGoal? (movedOn times) 1 0x7fffffff = some (movedOn (times + 1)).position := by
  change ((0x7fffffff * times : Nat) + 0x7fffffff : Int).toNat? = some (0x7fffffff * (times + 1))
  rw [Int.mem_toNat?]
  omega

theorem seeksOrStays_iff_movedOn :
    ∃ t, (afterMovingOn 0).trap Trap.gemdosVector = (.ok .proceed, t) ∧
      (t.system.registers.get .answer).toInt32.toInt = 0x7fffffff ∧
      t.system.fileView.opened 6 = some (movedOn 1) := by
  have few : 0 ∈ [0, 1, 2] := by decide
  obtain ⟨asked, _, _, _, given⟩ := asks_afterMovingOn 0 few
  have goal := seekGoal?_movedOn (afterMovingOn 0).system 0
  have low : (movedOn 1).position < 2 ^ 31 := by decide
  obtain ⟨t, trapped, _, moves, law⟩ :=
    (seeksOrStays_iff asked).2 0x7fffffff 6 1 (movedOn 0) (displaces_afterMovingOn few) given
  have told : (t.system.registers.get .answer).toInt32.toInt = (movedOn 1).position := by
    rw [moves _ goal, System.answer_sought, toInt_seekAnswer_of_lt low]
  have reliable := law.mpr fun position same => by
    rw [goal] at same
    exact .inl (Option.some.inj same ▸ low)
  have high : 0 ≤ (t.system.registers.get .answer).toInt32 := by
    rw [Int32.le_iff_toInt_le, told]
    exact Int.natCast_nonneg _
  obtain ⟨position, goal', _, moved⟩ := reliable.seeks high
  obtain rfl := Option.some.inj (goal.symm.trans goal')
  exact ⟨t, trapped, told, moved⟩

theorem exists_trap_movedOn {times : Nat} (few : times ∈ [1, 2]) :
    ∃ t, (afterMovingOn times).trap Trap.gemdosVector = (.ok .proceed, t) ∧
      t.system.registers.get .answer = seekAnswer (movedOn (times + 1)).position ∧
      t.system.fileView.opened 6 = some (movedOn (times + 1)) ∧
      ¬(afterMovingOn times).SeeksOrStays 0x7fffffff 6 1 (movedOn times) t := by
  have beyond : 2 ^ 31 ≤ (movedOn (times + 1)).position ∧
      (movedOn (times + 1)).position ≠ (movedOn times).position := by
    revert times
    decide
  have few' : times ∈ [0, 1, 2] := List.mem_cons_of_mem _ few
  obtain ⟨asked, _, _, _, given⟩ := asks_afterMovingOn times few'
  have displaces := displaces_afterMovingOn few'
  have goal := seekGoal?_movedOn (afterMovingOn times).system times
  have trapped := trap_seekFile asked displaces given
  rw [goal] at trapped
  have told := (afterMovingOn times).system.answer_sought 6 (movedOn times)
    (movedOn (times + 1)).position
  have moved : ((afterMovingOn times).system.sought 6 (movedOn times)
      (movedOn (times + 1)).position).fileView.opened 6 = some (movedOn (times + 1)) :=
    System.opened_sought given _
  refine ⟨_, trapped, told, moved, fun reliable => ?_⟩
  rcases (seeksOrStays_of_goal displaces given goal).mp reliable with low | ⟨_, same⟩
  · exact absurd low (Nat.not_lt.mpr beyond.1)
  · exact beyond.2 same

/-- The second call answers a number that is negative although it has not failed, and the third one
moves the position although it has. -/
theorem not_seeksOrStays_movedOn :
    (∃ t, (littleMemory.performAll (.load oneInstruction [] :: movingOn 1)).trap
        Trap.gemdosVector = (.ok .proceed, t) ∧
      t.system.registers.get .answer = 0xfffffffe ∧
      t.system.fileView.opened 6 = some (movedOn 2) ∧
      ¬(littleMemory.performAll (.load oneInstruction [] :: movingOn 1)).SeeksOrStays
        0x7fffffff 6 1 (movedOn 1) t) ∧
    ∃ t, (littleMemory.performAll (.load oneInstruction [] :: movingOn 2)).trap
        Trap.gemdosVector = (.ok .proceed, t) ∧
      t.system.registers.get .answer = Status.rangeError.register ∧
      t.system.fileView.opened 6 = some (movedOn 3) ∧
      ¬(littleMemory.performAll (.load oneInstruction [] :: movingOn 2)).SeeksOrStays
        0x7fffffff 6 1 (movedOn 2) t := by
  have second : seekAnswer (movedOn 2).position = 0xfffffffe := by decide +kernel
  have third : seekAnswer (movedOn 3).position = Status.rangeError.register := by decide +kernel
  rw [performAll_oneInstruction, performAll_oneInstruction, ← second, ← third]
  exact ⟨exists_trap_movedOn (by decide), exists_trap_movedOn (by decide)⟩

end Session

end AtariTos
