import AtariTos.Proofs.FileRefinement
import AtariTos.Proofs.GuestPaths

namespace AtariTos

theorem toList_byteArray (bytes : ByteArray) : bytes.toList = bytes.data.toList := by
  have loop (i : Nat) (seen : List UInt8) :
      ByteArray.toList.loop bytes i seen = seen.reverse ++ bytes.data.toList.drop i := by
    fun_induction ByteArray.toList.loop bytes i seen with
    | case1 i seen inside ih =>
      have inside' : i < bytes.data.toList.length := inside
      rw [ih, List.drop_eq_getElem_cons inside', List.reverse_cons, List.append_assoc]
      simp [ByteArray.get!, inside]
    | case2 i seen outside =>
      rw [List.drop_eq_nil_of_le (Nat.le_of_not_lt outside), List.append_nil]
  exact loop 0 []

theorem toList_toUTF8 (text : String) :
    text.toUTF8.toList = text.toList.flatMap String.utf8EncodeChar := by
  have encoded : text.toUTF8 = (text.toList.flatMap String.utf8EncodeChar).toByteArray := by
    conv_lhs => rw [← String.ofList_toList (s := text)]
    rfl
  rw [encoded, toList_byteArray, List.toList_data_toByteArray]

namespace GuestName

variable {name : GuestName} {names : List GuestName} {byte : UInt8}

/-- How a character is spelled in UTF-8, with one byte or with two. -/
def spelling (byte : UInt8) : List UInt8 :=
  if byte < 0x80 then [byte] else [0xc0 + byte / 64, 0x80 + byte % 64]

theorem utf8EncodeChar_eq (byte : UInt8) :
    String.utf8EncodeChar (Char.ofNat byte.toNat) = spelling byte := by
  have bound := byte.toNat_lt
  have number : (Char.ofNat byte.toNat).val.toNat = byte.toNat := by
    have valid : byte.toNat.isValidChar := .inl (by omega)
    rw [Char.ofNat, dif_pos valid]
    rfl
  rw [String.utf8EncodeChar, number]
  by_cases small : byte < 0x80
  · have low : byte.toNat ≤ 127 := Nat.le_of_lt_succ (UInt8.lt_iff_toNat_lt.mp small)
    rw [if_pos low, spelling, if_pos small, UInt8.ofNat_toNat]
  · have high : ¬byte.toNat ≤ 127 := fun low =>
      small (UInt8.lt_iff_toNat_lt.mpr (Nat.lt_succ_of_le low))
    have first : UInt8.ofNat (byte.toNat / 64 % 32 + 192) = 0xc0 + byte / 64 := by
      rw [← UInt8.toNat_inj, UInt8.toNat_ofNat', UInt8.toNat_add, UInt8.toNat_div]
      change _ % 2 ^ 8 = (192 + byte.toNat / 64) % 2 ^ 8
      omega
    have second : UInt8.ofNat (byte.toNat % 64 + 128) = 0x80 + byte % 64 := by
      rw [← UInt8.toNat_inj, UInt8.toNat_ofNat', UInt8.toNat_add, UInt8.toNat_mod]
      change _ % 2 ^ 8 = (128 + byte.toNat % 64) % 2 ^ 8
      omega
    rw [if_neg high, if_pos (by omega), spelling, if_neg small, first, second]

def utf8 (name : GuestName) : GuestName :=
  name.flatMap spelling

theorem toList_text (name : GuestName) : name.text.toUTF8.toList = name.utf8 := by
  rw [toList_toUTF8, text, String.toList_ofList, List.flatMap_map, utf8]
  exact List.flatMap_congr fun byte _ => utf8EncodeChar_eq byte

theorem spelling_of_small (small : byte < 0x80) : spelling byte = [byte] :=
  if_pos small

/-- Of the bytes that spell a character only that character itself can lie below 128. -/
theorem eq_of_mem_spelling {part : UInt8} (member : part ∈ spelling byte) (small : part < 0x80) :
    part = byte := by
  have bound := byte.toNat_lt
  have low := UInt8.lt_iff_toNat_lt.mp small
  change part.toNat < 128 at low
  unfold spelling at member
  split at member
  · exact List.mem_singleton.mp member
  next large =>
    have high : 128 ≤ byte.toNat := Nat.le_of_not_lt fun h => large (UInt8.lt_iff_toNat_lt.mpr h)
    rcases List.mem_pair.mp member with rfl | rfl
    · rw [UInt8.toNat_add, UInt8.toNat_div] at low
      change (192 + byte.toNat / 64) % 2 ^ 8 < 128 at low
      omega
    · rw [UInt8.toNat_add, UInt8.toNat_mod] at low
      change (128 + byte.toNat % 64) % 2 ^ 8 < 128 at low
      omega

theorem mem_of_mem_utf8 {part : UInt8} (member : part ∈ name.utf8) (small : part < 0x80) :
    part ∈ name := by
  obtain ⟨byte, inside, spells⟩ := List.mem_flatMap.mp member
  rwa [eq_of_mem_spelling spells small]

theorem length_le_utf8 (name : GuestName) : name.length ≤ name.utf8.length := by
  induction name with
  | nil => exact Nat.le_refl _
  | cons byte rest ih =>
    have one : 1 ≤ (spelling byte).length := by
      unfold spelling
      split
      · exact Nat.le_refl _
      · exact Nat.le_succ 1
    rw [utf8, List.flatMap_cons, List.length_append, List.length_cons]
    rw [utf8] at ih
    omega

def IsAscii (name : GuestName) : Prop :=
  ∀ byte ∈ name, byte < 0x80

instance (name : GuestName) : Decidable name.IsAscii :=
  List.decidableBAll (· < 0x80) name

theorem utf8_eq_self_iff : name.utf8 = name ↔ name.IsAscii := by
  induction name with
  | nil => exact ⟨fun _ _ h => absurd h List.not_mem_nil, fun _ => rfl⟩
  | cons byte rest ih =>
    have more : utf8 (byte :: rest) = spelling byte ++ utf8 rest := rfl
    rw [more, IsAscii, List.forall_mem_cons, ← IsAscii, ← ih]
    by_cases small : byte < 0x80
    · rw [spelling_of_small small, List.singleton_append, List.cons_inj_right]
      exact ⟨fun same => ⟨small, same⟩, fun h => h.2⟩
    · refine ⟨fun same => ?_, fun h => absurd h.1 small⟩
      have lengths := congrArg List.length same
      have longer := length_le_utf8 rest
      rw [spelling, if_neg small, List.length_append, List.length_cons] at lengths
      simp only [List.length_cons, List.length_nil] at lengths
      omega

theorem utf8_eq_self_of_isAscii (small : name.utf8.IsAscii) : name.utf8 = name := by
  refine utf8_eq_self_iff.mpr fun byte member => ?_
  by_contra large
  have spells : 0xc0 + byte / 64 ∈ spelling byte := by
    rw [spelling, if_neg large]
    exact List.mem_cons_self
  have part := small _ (List.mem_flatMap.mpr ⟨byte, member, spells⟩)
  have same := eq_of_mem_spelling spells part
  exact large (same ▸ part)

theorem IsProper.utf8 (proper : name.IsProper) : name.utf8.IsProper := by
  have ne_of_ne {word : GuestName} (ascii : word.IsAscii) (h : name ≠ word) :
      name.utf8 ≠ word := fun same => h (by
    subst same
    exact (utf8_eq_self_of_isAscii ascii).symm)
  refine ⟨⟨⟨ne_of_ne (by decide) proper.plain.1, ne_of_ne (by decide) proper.plain.2⟩,
    ne_of_ne (fun _ h => absurd h List.not_mem_nil) proper.filled, fun part member => ⟨?_, ?_⟩⟩,
    fun zero => proper.ended (mem_of_mem_utf8 zero (by decide))⟩
  -- Separators lie below 128, so that none comes up in the middle of a character.
  · rintro rfl
    exact (proper.whole _ (mem_of_mem_utf8 member (by decide))).1 rfl
  · rintro rfl
    exact (proper.whole _ (mem_of_mem_utf8 member (by decide))).2 rfl

end GuestName

open GuestName (utf8 IsAscii)

namespace Drive

variable {drive : Drive} {names : List GuestName}

theorem toList_directoryText (drive : Drive) :
    drive.directoryText.toUTF8.toList = spelled (drive.directory.map utf8) := by
  have spells (name : GuestName) :
      ("\\" ++ name.text).toList.flatMap String.utf8EncodeChar =
        GuestName.backslash :: utf8 name := by
    rw [String.toList_append, List.flatMap_append, ← toList_toUTF8 name.text,
      GuestName.toList_text]
    rfl
  rw [toList_toUTF8, directoryText, String.toList_join, List.flatMap_map, List.flatMap_assoc,
    spelled, List.flatMap_map]
  exact List.flatMap_congr fun name _ => spells name

theorem proper_map_utf8 (proper : ∀ name ∈ names, name.IsProper) :
    ∀ name ∈ names.map utf8, name.IsProper := by
  rw [List.forall_mem_map]
  exact fun name member => (proper name member).utf8

theorem map_utf8_eq_self_iff : names.map utf8 = names ↔ ∀ name ∈ names, name.IsAscii := by
  induction names with
  | nil => exact ⟨fun _ _ h => absurd h List.not_mem_nil, fun _ => rfl⟩
  | cons name more ih =>
    rw [List.map_cons, List.cons.injEq, List.forall_mem_cons, ih, GuestName.utf8_eq_self_iff]

theorem spelled_inj {other : List GuestName} (proper : ∀ name ∈ names, name.IsProper)
    (proper' : ∀ name ∈ other, name.IsProper) : spelled other = spelled names ↔ other = names := by
  refine ⟨fun same => ?_, congrArg spelled⟩
  have segments' := congrArg segments same
  rw [segments_spelled fun name member => (proper name member).undivided,
    segments_spelled fun name member => (proper' name member).undivided] at segments'
  exact (List.cons.inj segments').2

theorem zero_not_mem_spelled (proper : ∀ name ∈ names, name.IsProper) : 0 ∉ spelled names := by
  intro zero
  obtain ⟨name, member, inside⟩ := List.mem_flatMap.mp zero
  rcases List.mem_cons.mp inside with same | inside
  · exact absurd same (by decide)
  · exact (proper name member).ended inside

/-- The text of a directory that is still there leads back to it if and only if its names are
ASCII. -/
theorem changeDirectory_directoryText_iff {tree : HostTree}
    (proper : ∀ name ∈ drive.directory, name.IsProper)
    (short : drive.directoryText.toUTF8.toList.length ≤ pathMax)
    (enclosed : drive.encloses tree (drive.below drive.directory) = true)
    (there : tree.isDirectory (drive.below drive.directory) = true) :
    drive.changeDirectory tree drive.directoryText.toUTF8.toList = .ok drive ↔
      ∀ name ∈ drive.directory, name.IsAscii := by
  have proper' := proper_map_utf8 proper
  rw [toList_directoryText] at short ⊢
  -- The path is read back as the names that UTF-8 spells, whatever the directory is called.
  have read : drive.names (spelled (drive.directory.map utf8)) =
      .ok (drive.directory.map utf8) := by
    rw [names_spelled (fun name member => ⟨(proper' name member).filled, (proper' name member).plain⟩)
      (fun name member => (proper' name member).undivided) short]
    split
    next empty => rw [empty, List.map_eq_nil_iff.mp empty]
    · rfl
  rw [changeDirectory_eq_ok_iff, read, ← map_utf8_eq_self_iff]
  constructor
  · rintro ⟨names, same, _, _, kept⟩
    cases same
    exact (congrArg Drive.directory kept).symm
  · intro same
    rw [same]
    exact ⟨_, rfl, enclosed, there, rfl⟩

end Drive

namespace Service

variable {s t : System} {result : UInt32}

theorem exists_of_run_currentDirectory (ran : currentDirectory.run s = .ok result t) :
    ∃ buffer memory, s.arguments.long 2 = .ok buffer ∧
      s.kernel.drive.directoryText.toUTF8.toList.length < directoryBufferLen ∧
      s.memory.store buffer (s.kernel.drive.directoryText.toUTF8.toList ++ [0])
        s.registers.privilege = .ok memory ∧
      t = { s with memory } := by
  unfold currentDirectory at ran
  obtain ⟨buffer, given, ran⟩ := exists_long_of_run ran
  obtain ⟨drive, _, ran⟩ := exists_word_of_run ran
  dsimp only at ran
  split at ran
  · cases ran
  rw [run_get_bind] at ran
  split at ran
  · cases ran
  next fits =>
    obtain ⟨_, u, stores, ran⟩ := ok_of_bind ran
    cases ran
    rw [run_storeBuffer] at stores
    split at stores
    next memory stored =>
      cases stores
      rw [List.length_append, List.length_singleton] at fits
      exact ⟨buffer, memory, given, Nat.le_of_not_lt fits, stored, rfl⟩
    · cases stores

theorem run_setDirectory {addr : UInt32} {text : List UInt8}
    (given : s.arguments.long 2 = .ok addr)
    (held : s.memory.HoldsString addr text s.registers.privilege) (short : text.length < pathMax) :
    setDirectory.run s =
      match s.kernel.drive.changeDirectory s.host text with
      | .error cause => .error (.status cause.status) s
      | .ok drive => .ok 0 { s with kernel.drive := drive } := by
  have read : (pathAt addr).run s = .ok text s := by rw [run_pathAt held, if_pos short]
  unfold setDirectory
  rw [run_argumentLong_bind, given]
  dsimp only
  rw [run_bind_of_ok read, run_get_bind]
  cases s.kernel.drive.changeDirectory s.host text <;> rfl

end Service

namespace Session

variable {s t after start : Session} {vector : UInt8} {text : List UInt8} {root : HostPath}
  {ramTop : UInt32}

/-- A session is about to ask for the directory that a string leads to. -/
structure AsksDirectory (t : Session) (vector : UInt8) (text : List UInt8) : Prop where
  asked : Trap.routine t.system vector = .ok .setDirectory
  held : ∃ addr, t.system.arguments.long 2 = .ok addr ∧
    t.system.memory.HoldsString addr text t.system.registers.privilege

/-- Being asked for a directory, a session agrees and is in the same one as before. -/
def StaysWith (t : Session) (vector : UInt8) : Prop :=
  ∃ next, t.Succeeds vector .setDirectory next ∧
    next.system.kernel.drive.directory = t.system.kernel.drive.directory

theorem AsksDirectory.staysWith_iff (asks : t.AsksDirectory vector text)
    (short : text.length < pathMax) :
    t.StaysWith vector ↔ t.system.kernel.drive.changeDirectory t.system.host text =
      .ok t.system.kernel.drive := by
  obtain ⟨asked, addr, given, held⟩ := asks
  have ran := Service.run_setDirectory given held short
  constructor
  · rintro ⟨next, succeeds, same⟩
    obtain ⟨result, u, ran', after⟩ := succeeds.exists_answer rfl
    rw [ran'] at ran
    split at ran
    · cases ran
    next drive changed =>
      cases ran
      obtain ⟨names, _, _, _, rfl⟩ := Drive.changeDirectory_eq_ok_iff.mp changed
      rw [after] at same
      have names' : names = t.system.kernel.drive.directory := same
      rw [changed, names']
  · intro changed
    rw [changed] at ran
    have succeeds := succeeds_of_run asked rfl ran
    obtain ⟨result, u, ran', after⟩ := succeeds.exists_answer rfl
    cases ran.symm.trans ran'
    exact ⟨_, succeeds, by rw [after]; rfl⟩

theorem exists_told (ordered : s.system.memory.Ordered)
    (holds : s.system.memory.Each Area.HoldsWrites)
    (told : s.Succeeds vector .currentDirectory after) :
    ∃ buffer, s.system.arguments.long 2 = .ok buffer ∧
      after.system.memory.peekBytes buffer
        (s.system.kernel.drive.directoryText.toUTF8.toList.length + 1)
        s.system.registers.privilege =
          .ok (s.system.kernel.drive.directoryText.toUTF8.toList ++ [0]) ∧
      s.system.kernel.drive.directoryText.toUTF8.toList.length < Service.directoryBufferLen ∧
      after.system.kernel = s.system.kernel ∧ after.system.host = s.system.host := by
  obtain ⟨result, u, ran, same⟩ := told.exists_answer rfl
  obtain ⟨buffer, memory, given, fits, stored, rfl⟩ := Service.exists_of_run_currentDirectory ran
  have seen := ordered.peekBytes_of_store holds (List.append_ne_nil_of_right_ne_nil _ (by simp))
    stored
  rw [List.length_append, List.length_singleton] at seen
  rw [same]
  exact ⟨buffer, given, seen, fits, rfl, rfl⟩

/-- At any point of any run, a program that asks for the current directory is told the names in it,
each behind a backslash and a zero behind the last, and the names are spelled in UTF-8. They are the
names as guest paths spell them, one byte for each character, if and only if all characters lie
below 128. If the directory is still there, the very string that has been told, given back anywhere,
leads to the same directory under the same condition. -/
theorem currentDirectory_performAll {past : List Action} (created : Created ramTop root start)
    (reached : start.performAll past = s) (told : s.Succeeds vector .currentDirectory after) :
    let drive := s.system.kernel.drive
    ∃ buffer written, s.system.arguments.long 2 = .ok buffer ∧
      after.system.memory.peekBytes buffer (written.length + 1) s.system.registers.privilege =
        .ok (written ++ [0]) ∧
      0 ∉ written ∧ written.length < Service.directoryBufferLen ∧
      written = Drive.spelled (drive.directory.map utf8) ∧
      (written = Drive.spelled drive.directory ↔ ∀ name ∈ drive.directory, name.IsAscii) ∧
      after.system.kernel.drive = drive ∧
      (drive.encloses s.system.host (drive.below drive.directory) = true →
        s.system.host.isDirectory (drive.below drive.directory) = true →
        ∀ (t : Session) (vector : UInt8), t.system.kernel.drive = after.system.kernel.drive →
          t.system.host = after.system.host → t.AsksDirectory vector written →
          (t.StaysWith vector ↔ ∀ name ∈ drive.directory, name.IsAscii)) := by
  intro drive
  have proper : ∀ name ∈ drive.directory, name.IsProper := by
    have along := proper_performAll created past
    rwa [reached] at along
  have proper' := Drive.proper_map_utf8 proper
  have memory : s.system.memory.Sound ∧ s.system.memory.Each Area.HoldsWrites := by
    obtain ⟨host, rfl⟩ := exists_of_created created
    rw [← reached]
    exact ⟨sound_performAll GuestMemory.sound_empty past,
      holdsWrites_performAll (GuestMemory.each_empty _) past⟩
  obtain ⟨buffer, given, seen, fits, kernel, host⟩ :=
    exists_told memory.1.ordered memory.2 told
  have text := drive.toList_directoryText
  refine ⟨buffer, drive.directoryText.toUTF8.toList, given, seen, ?_, fits, text, ?_,
    by rw [kernel], fun enclosed there t vector same same' asks => ?_⟩
  · rw [text]
    exact Drive.zero_not_mem_spelled proper'
  · rw [text, Drive.spelled_inj proper proper', Drive.map_utf8_eq_self_iff]
  · have short : drive.directoryText.toUTF8.toList.length < pathMax := fits.trans (by decide)
    rw [asks.staysWith_iff short, same, same', kernel, host]
    exact Drive.changeDirectory_directoryText_iff proper short.le enclosed there

/-- The program creates a directory whose name is one character, makes it the current one and is
about to ask for its name. -/
def entering (character : UInt8) : List Action :=
  [.registers { address := #v[0, 0, 0, 0, 0, 0, 0, 0xb40] },
    .write 0xb40 [0, 0x39, 0, 0, 0x0b, 0x48, 0, 0, character, 0] .user, .trap Trap.gemdosVector,
    .write 0xb40 [0, 0x3b] .user, .trap Trap.gemdosVector,
    .write 0xb40 [0, 0x47, 0, 0, 0x0b, 0x50] .user]

def inDirectory (character : UInt8) : Session :=
  withInstruction.performAll (entering character)

def askedName (character : UInt8) : Session :=
  (inDirectory character).perform (.trap Trap.gemdosVector)

def passingBack (character : UInt8) : Session :=
  (askedName character).perform (.write 0xb40 [0, 0x3b] .user)

/-- The program is in a directory of that name, which is there, asks for the name, is told it as a
string, and is about to ask for the directory that the string leads to. -/
def PassesBack (character : UInt8) (text : List UInt8) : Prop :=
  let drive := (inDirectory character).system.kernel.drive
  drive.directory = [[character]] ∧
    drive.encloses (inDirectory character).system.host (drive.below drive.directory) = true ∧
    (inDirectory character).system.host.isDirectory (drive.below drive.directory) = true ∧
    (inDirectory character).Succeeds Trap.gemdosVector .currentDirectory (askedName character) ∧
    Trap.routine (passingBack character).system Trap.gemdosVector = .ok .setDirectory ∧
    (inDirectory character).system.arguments.long 2 = .ok 0xb50 ∧
    (inDirectory character).system.registers.privilege = .user ∧
    (passingBack character).system.arguments.long 2 = .ok 0xb50 ∧
    (askedName character).system.memory.peekBytes 0xb50 (text.length + 1) .user =
      .ok (text ++ [0]) ∧
    (passingBack character).system.memory.peekBytes 0xb50 (text.length + 1)
      (passingBack character).system.registers.privilege = .ok (text ++ [0])

instance (character : UInt8) (text : List UInt8) : Decidable (PassesBack character text) :=
  inferInstanceAs (Decidable (_ ∧ _ ∧ _ ∧
    (inDirectory character).Succeeds _ _ ((inDirectory character).perform (.trap _)) ∧ _))

set_option maxRecDepth 10000 in
theorem passesBack : PassesBack 0x44 [0x5c, 0x44] ∧ PassesBack 0xe4 [0x5c, 0xc3, 0xa4] := by
  unfold PassesBack passingBack askedName inDirectory
  rw [withInstruction, loadedAreas, LoadedProgram.areas, LoadedProgram.userArea_eq]
  exact ⟨by decide +kernel, by decide +kernel⟩

theorem reached_inDirectory (character : UInt8) :
    littleMemory.performAll (.load oneInstruction [] :: entering character) =
      inDirectory character :=
  performAll_oneInstruction _

theorem asksDirectory_passingBack {character : UInt8} (passes : PassesBack character text)
    (filled : 0 ∉ text) (short : text.length < pathMax) :
    (passingBack character).AsksDirectory Trap.gemdosVector text := by
  obtain ⟨_, _, _, _, asked, _, _, given, _, seen⟩ := passes
  have sound : (inDirectory character).system.memory.Sound := by
    rw [← reached_inDirectory]
    exact sound_performAll GuestMemory.sound_empty _
  have ordered : (passingBack character).system.memory.Ordered := by
    rw [passingBack, askedName]
    exact (sound_perform (sound_perform sound _) _).ordered
  refine ⟨asked, 0xb50, given, ordered.holdsString_of_peekBytes seen filled ?_⟩
  change 2896 + text.length < 4294967296
  have : pathMax = 256 := rfl
  omega

theorem drive_write (s : Session) (addr : UInt32) (data : List UInt8) (mode : Privilege) :
    (s.perform (.write addr data mode)).system.kernel.drive = s.system.kernel.drive ∧
      (s.perform (.write addr data mode)).system.host = s.system.host := by
  have keeps : (Action.write addr data mode).keepsProgram := rfl
  obtain ⟨host, _, kernel⟩ := kernel_perform (s := s) keeps fun _ same => by cases same
  exact ⟨by rw [kernel], host⟩

/-- A directory with an English name is found again by what the program is told. -/
theorem currentDirectory_performAll_ascii :
    Created 0x1300 [] littleMemory ∧
      littleMemory.performAll (.load oneInstruction [] :: entering 0x44) = inDirectory 0x44 ∧
      (inDirectory 0x44).Succeeds Trap.gemdosVector .currentDirectory (askedName 0x44) ∧
      (askedName 0x44).system.memory.peekBytes 0xb50 3 .user = .ok [0x5c, 0x44, 0] ∧
      (passingBack 0x44).StaysWith Trap.gemdosVector := by
  have passes := passesBack.1
  obtain ⟨directory, enclosed, there, told, _, given, privilege, _, seen, _⟩ := passes
  have created := created_littleMemory
  have reached := reached_inDirectory 0x44
  obtain ⟨buffer, written, given', _, _, _, spells, _, _, stays⟩ :=
    currentDirectory_performAll created reached told
  -- The text is that of the one name, which is its own spelling.
  obtain rfl : written = [0x5c, 0x44] := by
    rw [spells, directory]
    decide
  obtain ⟨drive, host⟩ := drive_write (askedName 0x44) _ _ _
  have asks := asksDirectory_passingBack passesBack.1 (by decide) (by decide)
  refine ⟨created, reached, told, seen, (stays enclosed there _ _ drive host asks).mpr ?_⟩
  rw [directory]
  decide

/-- A program in the directory `ä` is told a name of two characters, and no directory of that name
is found. -/
theorem not_staysWith_umlaut :
    Created 0x1300 [] littleMemory ∧
      littleMemory.performAll (.load oneInstruction [] :: entering 0xe4) = inDirectory 0xe4 ∧
      (let drive := (inDirectory 0xe4).system.kernel.drive
      drive.directory = [[0xe4]] ∧
        drive.encloses (inDirectory 0xe4).system.host (drive.below drive.directory) = true ∧
        (inDirectory 0xe4).system.host.isDirectory (drive.below drive.directory) = true) ∧
      (inDirectory 0xe4).Succeeds Trap.gemdosVector .currentDirectory (askedName 0xe4) ∧
      (askedName 0xe4).system.memory.peekBytes 0xb50 4 .user = .ok [0x5c, 0xc3, 0xa4, 0] ∧
      Drive.spelled [[0xe4]] ++ [0] = [0x5c, 0xe4, 0] ∧
      (passingBack 0xe4).AsksDirectory Trap.gemdosVector [0x5c, 0xc3, 0xa4] ∧
      ¬(passingBack 0xe4).StaysWith Trap.gemdosVector := by
  obtain ⟨directory, enclosed, there, told, _, _, _, _, seen, _⟩ := passesBack.2
  have asks := asksDirectory_passingBack passesBack.2 (by decide) (by decide)
  refine ⟨created_littleMemory, reached_inDirectory 0xe4, ⟨directory, enclosed, there⟩, told, seen,
    rfl, asks, fun stays => ?_⟩
  obtain ⟨names, read, _, _, kept⟩ :=
    Drive.changeDirectory_eq_ok_iff.mp ((asks.staysWith_iff (by decide)).mp stays)
  have drive : (passingBack 0xe4).system.kernel.drive = (inDirectory 0xe4).system.kernel.drive := by
    rw [passingBack, (drive_write _ _ _ _).1, askedName, drive_perform]
    intro vector same asked
    cases same
    cases told.asked.symm.trans asked
  have found : names = [[0xe4]] := by
    rw [← directory, ← drive]
    exact (congrArg Drive.directory kept).symm
  have read' : (passingBack 0xe4).system.kernel.drive.names [0x5c, 0xc3, 0xa4] =
      .ok [[0xc3, 0xa4]] := rfl
  cases found.symm.trans (Except.ok.inj (read.symm.trans read'))

end Session

end AtariTos
