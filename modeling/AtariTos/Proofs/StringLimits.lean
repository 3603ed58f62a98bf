import AtariTos.Proofs.CallFailures
import AtariTos.Proofs.GuestStrings

namespace AtariTos

namespace Service

variable {α β : Type} {value : α → Prop} {result : β → Prop} {status : Status → Prop}

/-- What a service ends with: a value or a status of some kind, unless emulation stops. -/
def Ends (value : α → Prop) (status : Status → Prop) (m : Service α) : Prop :=
  ∀ s,
    match m.run s with
    | .ok got _ => value got
    | .error (.status told) _ => status told
    | .error (.stop _) _ => True

namespace Ends

theorem pure {got : α} (h : value got) : Ends value status (Pure.pure got : Service α) :=
  fun _ => h

theorem reject {told : Status} (h : status told) :
    Ends value status (Service.reject told : Service α) :=
  fun _ => h

theorem bind {m : Service α} {f : α → Service β} (first : Ends value status m)
    (rest : ∀ got, value got → Ends result status (f got)) : Ends result status (m >>= f) := by
  intro s
  have here := first s
  cases ran : m.run s with
  | ok got t =>
    rw [ran] at here
    rw [run_bind_of_ok ran]
    exact rest got here t
  | error failure t =>
    rw [ran] at here
    rw [run_bind_of_error ran]
    cases failure <;> exact here

theorem map {m : Service α} {f : α → β} (h : Ends (fun got => result (f got)) status m) :
    Ends result status (f <$> m) := by
  intro s
  have here := h s
  rw [run_map]
  cases ran : m.run s with
  | ok got t =>
    rw [ran] at here
    exact here
  | error failure t =>
    rw [ran] at here
    cases failure <;> exact here

theorem get {f : System → Service β} (rest : ∀ s, Ends result status (f s)) :
    Ends result status (MonadState.get >>= f) :=
  fun s => rest s s

theorem changing {change : System → System} {f : Unit → Service β}
    (rest : Ends result status (f ())) :
    Ends result status ((modify change : Service Unit) >>= f) :=
  fun s => rest (change s)

theorem argumentWord {offset : UInt32} {f : UInt16 → Service β}
    (rest : ∀ word, Ends result status (f word)) :
    Ends result status (Service.argumentWord offset >>= f) := by
  intro s
  rw [run_argumentWord_bind]
  cases s.arguments.word offset with
  | error fault => trivial
  | ok word => exact rest word s

theorem ite {c : Prop} [Decidable c] {m m' : Service α} (yes : Ends value status m)
    (no : Ends value status m') : Ends value status (if c then m else m') := by
  split
  · exact yes
  · exact no

end Ends

variable {s : System} {addr : UInt32} {text : List UInt8}

/-- What the host calls the file or directory that a guest path names. -/
def translated (guest : List UInt8) : Service HostPath := do
  let s ← get
  match s.kernel.drive.translate s.host guest with
  | .ok path => return path
  | .error cause => reject cause.status

theorem argumentPath_eq (offset : UInt32) :
    argumentPath offset = argumentLong offset >>= pathAt >>= translated :=
  (bind_assoc _ _ _).symm

/-- What is done with the path of a directory. -/
def enter (guest : List UInt8) : Service UInt32 := do
  let s ← get
  match s.kernel.drive.changeDirectory s.host guest with
  | .error cause => reject cause.status
  | .ok drive =>
    setKernel fun kernel => { kernel with drive }
    return 0

theorem setDirectory_eq : setDirectory = argumentLong 2 >>= pathAt >>= enter := by
  rw [bind_assoc]
  rfl

theorem run_argumentLong_pathAt (fetched : s.arguments.long 2 = .ok addr)
    (held : s.memory.HoldsString addr text s.registers.privilege) :
    (argumentLong 2 >>= pathAt).run s =
      if text.length < pathMax then .ok text s else .error (.status .pathOverflow) s := by
  rw [run_argumentLong_bind, fetched]
  exact run_pathAt held

theorem run_printString (fetched : s.arguments.long 2 = .ok addr)
    (held : s.memory.HoldsString addr text s.registers.privilege) :
    printString.run s =
      if text.length < printMax then
        .ok text.length.toUInt32 { s with console := s.console.write text }
      else .error (.status .rangeError) s := by
  rw [printString, run_argumentLong_bind, fetched]
  dsimp only
  rw [run_bind_of_ok (run_stringAt held printMax)]
  by_cases short : text.length < printMax
  · rw [if_pos short, if_pos short]
    rfl
  · rw [if_neg short, if_neg short]
    rfl

end Service

namespace Drive

variable {drive : Drive} {tree : HostTree} {guest : List UInt8}

theorem names_eq_overlong_iff :
    drive.names guest = .error .overlong ↔ pathMax < guest.length := by
  unfold names
  split
  next long => exact ⟨fun _ => long, fun _ => rfl⟩
  next short =>
    refine ⟨fun h => ?_, fun long => absurd long short⟩
    dsimp only at h
    split at h <;> cases h

theorem translate_eq_overlong_iff :
    drive.translate tree guest = .error .overlong ↔ pathMax < guest.length := by
  refine Iff.trans ?_ (@names_eq_overlong_iff drive guest)
  unfold translate
  cases drive.names guest with
  | error cause => simp
  | ok names =>
    dsimp only
    split <;> simp

theorem changeDirectory_eq_overlong_iff :
    drive.changeDirectory tree guest = .error .overlong ↔ pathMax < guest.length := by
  refine Iff.trans ?_ (@names_eq_overlong_iff drive guest)
  unfold changeDirectory
  cases drive.names guest with
  | error cause => simp
  | ok names =>
    dsimp only
    split
    · simp
    split <;> simp

end Drive

theorem Status.register_inj {status other : Status} :
    status.register = other.register ↔ status = other := by
  refine ⟨fun h => ?_, fun h => congrArg register h⟩
  have codes : status.code = other.code := congrArg Int32.ofUInt32 h
  exact Option.some.inj ((ofCode?_code status).symm.trans (codes ▸ ofCode?_code other))

theorem PathRefusal.status_eq_pathOverflow_iff {cause : PathRefusal} :
    cause.status = .pathOverflow ↔ cause = .overlong := by
  cases cause <;> simp [status]

namespace Service

variable {guest : List UInt8}

/-- The program is not told that a path is too long. -/
def Spared (m : Service UInt32) : Prop :=
  Ends (· ≠ Status.pathOverflow.register) (· ≠ .pathOverflow) m

theorem ends_translated (short : guest.length ≤ pathMax) :
    Ends (fun _ => True) (· ≠ .pathOverflow) (translated guest) := by
  refine .get fun s => ?_
  cases found : s.kernel.drive.translate s.host guest with
  | ok path => exact .pure trivial
  | error cause =>
    refine .reject fun told => Nat.not_lt.mpr short ?_
    rw [PathRefusal.status_eq_pathOverflow_iff.mp told] at found
    exact Drive.translate_eq_overlong_iff.mp found

theorem spared_giveHandle (f : OpenFile) : Spared (giveHandle f) := by
  refine .get fun s => ?_
  cases s.kernel.handles.insert f with
  | none => exact .reject (by decide)
  | some given =>
    refine fun t same => ?_
    have handle := congrArg UInt32.toNat same
    have small := given.1.toUInt16.toNat_lt
    rw [UInt16.toNat_toUInt32] at handle
    have large : Status.pathOverflow.register.toNat = 4294967226 := by decide
    omega

theorem ends_requireFreeHandle :
    Ends (fun _ => True) (· ≠ .pathOverflow) requireFreeHandle :=
  .get fun _ => .ite (.reject (by decide)) (.pure trivial)

end Service

namespace Routine

open Service

/-- The calls whose first argument is a path. -/
def takesPath : Routine → Bool
  | createDirectory | setDirectory | createFile | openFile | deleteFile | fileAttributes
  | searchFirst => true
  | _ => false

theorem exists_rest_of_path (f : HostPath → Service UInt32) (spared : ∀ path, Spared (f path)) :
    ∃ rest : List UInt8 → Service Answer,
      .value <$> (argumentPath 2 >>= f) = argumentLong 2 >>= pathAt >>= rest ∧
      ∀ guest, guest.length ≤ pathMax →
        Ends (·.register ≠ Status.pathOverflow.register) (· ≠ .pathOverflow) (rest guest) := by
  refine ⟨fun guest => .value <$> (translated guest >>= f), ?_, fun guest short => ?_⟩
  · rw [argumentPath_eq, bind_assoc, map_bind]
  · exact .map (.bind (ends_translated short) fun path _ => spared path)

theorem exists_rest {called : Routine} (takes : called.takesPath = true) :
    ∃ rest : List UInt8 → Service Answer, called.run = argumentLong 2 >>= pathAt >>= rest ∧
      ∀ guest, guest.length ≤ pathMax →
        Ends (·.register ≠ Status.pathOverflow.register) (· ≠ .pathOverflow) (rest guest) := by
  cases called with
  | createDirectory =>
    refine exists_rest_of_path _ fun path => .get fun s => ?_
    cases s.host.makeDirectory path with
    | error cause => exact .reject (by decide)
    | ok host => exact .changing (.pure (by decide))
  | deleteFile =>
    refine exists_rest_of_path _ fun path => .get fun s => ?_
    cases s.host.removeName path with
    | error cause => exact .reject (by decide)
    | ok host => exact .changing (.pure (by decide))
  | createFile =>
    refine exists_rest_of_path _ fun path => .bind ends_requireFreeHandle fun _ _ => ?_
    refine .get fun s => ?_
    rcases s.host.makeDirectories path.dropLast with ⟨made, host⟩
    refine .changing (.ite ?_ (.reject (by decide)))
    cases host.createFile path with
    | error cause => exact .reject (by decide)
    | ok made => exact .changing (spared_giveHandle _)
  | openFile =>
    refine exists_rest_of_path _ fun path => .argumentWord fun word => ?_
    cases openMode? word with
    | none => exact .reject (by decide)
    | some mode =>
      refine .bind ends_requireFreeHandle fun _ _ => .get fun s => ?_
      cases s.host.fileAt path with
      | error cause => exact .reject (by decide)
      | ok file => exact spared_giveHandle _
  | fileAttributes =>
    refine exists_rest_of_path _ fun path => .argumentWord fun word => ?_
    refine .ite (.reject (by decide)) (.get fun s => ?_)
    dsimp only
    cases HostTree.status (s.host.locate path true) with
    | error cause => exact .reject (by decide)
    | ok place =>
      obtain ⟨_, entry⟩ := place
      refine .pure ?_
      cases s.host.isReadOnly entry <;> cases entry <;> (dsimp only; decide)
  | searchFirst => exact exists_rest_of_path _ fun _ => .reject (by decide)
  | setDirectory =>
    refine ⟨fun guest => .value <$> enter guest, ?_, fun guest short => .map (.get fun s => ?_)⟩
    · rw [Routine.run, setDirectory_eq, map_bind, bind_assoc]
    · cases found : s.kernel.drive.changeDirectory s.host guest with
      | ok drive => exact .changing (.pure (by decide))
      | error cause =>
        refine .reject fun told => Nat.not_lt.mpr short ?_
        rw [PathRefusal.status_eq_pathOverflow_iff.mp told] at found
        exact Drive.changeDirectory_eq_overlong_iff.mp found
  | _ => cases takes

end Routine

namespace Trap

variable {s : System} {vector : UInt8} {called : Routine} {addr : UInt32} {text : List UInt8}

/-- The program finds a status in D0, and emulation goes on. -/
def Tells (vector : UInt8) (s : System) (status : Status) : Prop :=
  ∃ t, serve vector s = (.ok .proceed, t) ∧ t.registers.get .answer = status.register

theorem tells_of_serve {value : UInt32} {t : System} {status : Status}
    (served : serve vector s = (.ok .proceed, answer t value)) :
    Tells vector s status ↔ value = status.register := by
  constructor
  · rintro ⟨u, served', told⟩
    cases served.symm.trans served'
    exact (Registers.get_set_answer _ _).symm.trans told
  · rintro rfl
    exact ⟨_, served, Registers.get_set_answer _ _⟩

theorem not_tells_of_rest {rest : Service Answer} (asked : routine s vector = .ok called)
    (goesOn : called.run.run s = rest.run s)
    (spared : Service.Ends (·.register ≠ Status.pathOverflow.register) (· ≠ .pathOverflow) rest) :
    ¬Tells vector s .pathOverflow := by
  rintro ⟨t, served, told⟩
  have here := spared s
  rw [← goesOn] at here
  obtain ⟨called', asked', ⟨result, u, ran, rfl⟩ | ⟨status, u, ran, rfl⟩⟩ := exists_of_serve served
  · cases asked.symm.trans asked'
    rw [ran] at here
    exact here ((Registers.get_set_answer _ _).symm.trans told)
  · cases asked.symm.trans asked'
    rw [ran] at here
    have same := (Registers.get_set_answer _ _).symm.trans told
    exact here (Status.register_inj.mp same)

theorem serve_of_overlong (asked : routine s vector = .ok called) (takes : called.takesPath = true)
    (fetched : s.arguments.long 2 = .ok addr)
    (held : s.memory.HoldsString addr text s.registers.privilege)
    (long : pathMax ≤ text.length) :
    serve vector s = (.ok .proceed, answer s Status.pathOverflow.register) := by
  obtain ⟨rest, split, _⟩ := Routine.exists_rest takes
  have failed := Service.run_argumentLong_pathAt fetched held
  rw [if_neg (Nat.not_lt.mpr long)] at failed
  refine serve_of_status asked ?_
  rw [split]
  exact Service.run_bind_of_error failed

theorem tells_pathOverflow_iff (asked : routine s vector = .ok called)
    (takes : called.takesPath = true) (fetched : s.arguments.long 2 = .ok addr)
    (held : s.memory.HoldsString addr text s.registers.privilege) :
    Tells vector s .pathOverflow ↔ pathMax ≤ text.length := by
  constructor
  · intro told
    by_contra short
    obtain ⟨rest, split, spared⟩ := Routine.exists_rest takes
    have found := Service.run_argumentLong_pathAt fetched held
    rw [if_pos (Nat.lt_of_not_le short)] at found
    refine not_tells_of_rest asked ?_ (spared text (Nat.le_of_not_le short)) told
    rw [split]
    exact Service.run_bind_of_ok found
  · intro long
    have served := serve_of_overlong asked takes fetched held long
    exact (tells_of_serve served).mpr rfl

/-- A string is printed, and its length goes to D0. -/
def Prints (vector : UInt8) (s : System) (text : List UInt8) : Prop :=
  serve vector s = (.ok .proceed,
    answer { s with console := s.console.write text } text.length.toUInt32)

theorem serve_printString (asked : routine s vector = .ok .printString)
    (fetched : s.arguments.long 2 = .ok addr)
    (held : s.memory.HoldsString addr text s.registers.privilege) :
    serve vector s = (.ok .proceed,
      if text.length < Service.printMax then
        answer { s with console := s.console.write text } text.length.toUInt32
      else answer s Status.rangeError.register) := by
  have ran : Routine.printString.run.run s = _ := Service.run_map _ _ _
  rw [Service.run_printString fetched held] at ran
  rw [serve, asked]
  dsimp only
  by_cases short : text.length < Service.printMax
  · rw [if_pos short] at ran ⊢
    rw [complete, ran]
  · rw [if_neg short] at ran ⊢
    rw [complete, ran]

theorem prints_iff (asked : routine s vector = .ok .printString)
    (fetched : s.arguments.long 2 = .ok addr)
    (held : s.memory.HoldsString addr text s.registers.privilege) :
    Prints vector s text ↔ text.length < Service.printMax := by
  have served := serve_printString asked fetched held
  constructor
  · intro printed
    by_contra long
    rw [if_neg long] at served
    have same : s.console.output ++ text = s.console.output :=
      congrArg (fun outcome => outcome.2.console.output) (printed.symm.trans served)
    obtain rfl : text = [] := by simpa using same
    exact long (by decide)
  · intro short
    rw [if_pos short] at served
    exact served

/-- The limits of strings in calls. A path is told to be too long from `pathMax` bytes on, though
the drive itself takes a path of exactly that many; a string is printed if it has fewer than
`printMax` bytes, and not if it has exactly that many. So a string may be as long as its limit
says if and only if it does not reach it. -/
theorem limits_of_held_string (asked : routine s vector = .ok called)
    (fetched : s.arguments.long 2 = .ok addr)
    (held : s.memory.HoldsString addr text s.registers.privilege) :
    (called.takesPath = true →
      (Tells vector s .pathOverflow ↔ pathMax ≤ text.length) ∧
      (s.kernel.drive.translate s.host text = .error .overlong ↔ pathMax < text.length) ∧
      ((Tells vector s .pathOverflow ↔ pathMax < text.length) ↔ text.length ≠ pathMax)) ∧
    (called = .printString →
      (Prints vector s text ↔ text.length < Service.printMax) ∧
      ((Prints vector s text ↔ text.length ≤ Service.printMax) ↔
        text.length ≠ Service.printMax)) := by
  constructor
  · intro takes
    have told := tells_pathOverflow_iff asked takes fetched held
    refine ⟨told, Drive.translate_eq_overlong_iff, ?_⟩
    rw [told]
    omega
  · rintro rfl
    have printed := prints_iff asked fetched held
    refine ⟨printed, ?_⟩
    rw [printed]
    omega

/-- As many letters as one likes, with the end of the string. -/
def lettersArea (len : Nat) : Area :=
  .ofBuffer "letters" 0x100 (List.replicate len (0x41 : UInt8) ++ [0]).toArray .readWrite

/-- A call with one argument, which points to letters. -/
def spelling (code : UInt8) (len : Nat) : System where
  memory := ⟨[.ofBuffer "stack" 0 #[0, code, 0, 0, 1, 0, 0, 0] .readWrite, lettersArea len]⟩
  kernel := { drive := { root := [] } }

theorem privilege_spelling (code : UInt8) (len : Nat) :
    (spelling code len).registers.privilege = .user := by
  change Registers.privilege {} = .user
  decide

theorem stop_lettersArea {len : Nat} (small : len ≤ 0x8000) :
    (lettersArea len).stop = 0x100 + (len + 1) := by
  have size : (List.replicate len (0x41 : UInt8) ++ [0]).toArray.size = len + 1 := by simp
  have large : UInt32.size = 4294967296 := rfl
  rw [lettersArea, Area.stop_ofBuffer (by omega), size]
  rfl

theorem ordered_spelling (code : UInt8) {len : Nat} (small : len ≤ 0x8000) :
    (spelling code len).memory.Ordered := by
  refine ⟨List.pairwise_pair.mpr (Nat.le_of_ble_eq_true rfl), ?_⟩
  refine List.forall_mem_cons.mpr ⟨rfl, List.forall_mem_singleton.mpr ?_⟩
  have stop := stop_lettersArea small
  rw [Area.isEmpty_eq_false_iff]
  change 0x100 + (lettersArea len).len.toNat = _ at stop
  omega

theorem holdsString_spelling (code : UInt8) {len : Nat} (small : len ≤ 0x8000) :
    (spelling code len).memory.HoldsString 0x100 (List.replicate len 0x41)
      (spelling code len).registers.privilege := by
  rw [privilege_spelling]
  have stop := stop_lettersArea small
  have low : (lettersArea len).base.toNat = 0x100 := rfl
  have inside : (0x100 : UInt32).toNat ∈ (lettersArea len).addresses := by
    constructor
    · exact Nat.le_refl _
    · rw [stop]
      change 0x100 < _
      omega
  refine ⟨lettersArea len, ?_, inside, ?_, ?_, ?_, ?_⟩
  · refine (ordered_spelling code small).locate_eq_ok_iff.mpr ⟨?_, inside, inside.2, rfl⟩
    exact List.mem_cons_of_mem _ List.mem_cons_self
  · rw [stop, List.length_replicate]
    exact Nat.le_refl _
  · rw [List.length_replicate]
    change 0x100 + len < 4294967296
    omega
  · have size : (List.replicate len (0x41 : UInt8) ++ [0]).toArray.size = len + 1 := by simp
    have start : (lettersArea len).offset 0x100 = 0 := Nat.sub_self _
    rw [List.length_replicate, Area.peek, start, lettersArea, Area.ofBuffer, Storage.peek,
      Nat.zero_add, ← size, Array.extract_size]
  · simp

theorem limits_of_held_string_spelling :
    routine (spelling 0x3d 3) gemdosVector = .ok .openFile ∧
      (spelling 0x3d 3).arguments.long 2 = .ok 0x100 ∧
      (spelling 0x3d 3).memory.HoldsString 0x100 (List.replicate 3 0x41)
        (spelling 0x3d 3).registers.privilege ∧
      ¬Tells gemdosVector (spelling 0x3d 3) .pathOverflow := by
  have asked : routine (spelling 0x3d 3) gemdosVector = .ok .openFile := by decide
  have fetched : (spelling 0x3d 3).arguments.long 2 = .ok 0x100 := by decide
  have held := holdsString_spelling 0x3d (show 3 ≤ 0x8000 by decide)
  have limits := (limits_of_held_string asked fetched held).1 rfl
  exact ⟨asked, fetched, held, mt limits.1.mp (by decide)⟩

/-- At the limit itself a path is told to be too long, which the drive would take, and a string is
not printed. -/
theorem limits_at_maximum :
    routine (spelling 0x3d pathMax) gemdosVector = .ok .openFile ∧
      (spelling 0x3d pathMax).arguments.long 2 = .ok 0x100 ∧
      (spelling 0x3d pathMax).memory.HoldsString 0x100 (List.replicate pathMax 0x41)
        (spelling 0x3d pathMax).registers.privilege ∧
      Tells gemdosVector (spelling 0x3d pathMax) .pathOverflow ∧
      (spelling 0x3d pathMax).kernel.drive.translate (spelling 0x3d pathMax).host
        (List.replicate pathMax 0x41) ≠ .error .overlong ∧
      routine (spelling 0x09 Service.printMax) gemdosVector = .ok .printString ∧
      (spelling 0x09 Service.printMax).arguments.long 2 = .ok 0x100 ∧
      (spelling 0x09 Service.printMax).memory.HoldsString 0x100
        (List.replicate Service.printMax 0x41)
        (spelling 0x09 Service.printMax).registers.privilege ∧
      ¬Prints gemdosVector (spelling 0x09 Service.printMax)
        (List.replicate Service.printMax 0x41) := by
  have asked : routine (spelling 0x3d pathMax) gemdosVector = .ok .openFile := by decide +kernel
  have fetched : (spelling 0x3d pathMax).arguments.long 2 = .ok 0x100 := by decide +kernel
  have held := holdsString_spelling 0x3d (show pathMax ≤ 0x8000 by decide)
  have asked' : routine (spelling 0x09 Service.printMax) gemdosVector = .ok .printString := by
    decide +kernel
  have fetched' : (spelling 0x09 Service.printMax).arguments.long 2 = .ok 0x100 := by
    decide +kernel
  have held' := holdsString_spelling 0x09 (show Service.printMax ≤ 0x8000 by decide)
  refine ⟨asked, fetched, held, ?_, ?_, asked', fetched', held', ?_⟩
  · rw [tells_pathOverflow_iff asked rfl fetched held, List.length_replicate]
  · rw [ne_eq, Drive.translate_eq_overlong_iff, List.length_replicate]
    exact Nat.lt_irrefl _
  · rw [prints_iff asked' fetched' held', List.length_replicate]
    exact Nat.lt_irrefl _

end Trap

end AtariTos
