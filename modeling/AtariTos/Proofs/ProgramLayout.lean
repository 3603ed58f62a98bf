import AtariTos.Program.Loaded
import AtariTos.Proofs.AreaChanges
import AtariTos.Proofs.MemoryBytes

namespace AtariTos

namespace Fixups

variable {base : UInt32} {image fixed : Bytes} {offset : Nat}

theorem size_fix (h : fix base image offset = some fixed) : fixed.size = image.size := by
  obtain ⟨value, _, stored⟩ := Option.bind_eq_some_iff.mp h
  unfold Bytes.setLong? Bytes.store? at stored
  split at stored
  · cases stored
    exact Bytes.size_overwrite _ _ _
  · cases stored

theorem size_follow (cursor count : Nat) (steps : List UInt8) :
    (follow base cursor count image steps).2.size = image.size := by
  induction steps generalizing cursor count image with
  | nil => rfl
  | cons step rest ih =>
    rw [follow]
    split
    · rfl
    · split
      · exact ih _ _
      · split
        next fixed found => rw [ih, size_fix found]
        · rfl

theorem size_apply (image : Bytes) (table : List UInt8) (base : UInt32) :
    (apply image table base).2.size = image.size := by
  unfold apply
  dsimp only
  split
  · rfl
  · split
    next fixed found => rw [size_follow, size_fix found]
    · rfl

end Fixups

namespace GuestMemory

variable {memory next : GuestMemory} {areas : List Area}

theorem Ordered.addAll (ordered : memory.Ordered) (h : memory.addAll areas = .ok next) :
    next.Ordered ∧ ∀ a, a ∈ next.areas ↔ a ∈ areas ∨ a ∈ memory.areas := by
  induction areas generalizing memory with
  | nil =>
    cases h
    exact ⟨ordered, fun a => by simp⟩
  | cons area rest ih =>
    rw [GuestMemory.addAll, List.foldlM_cons] at h
    cases added : memory.add area with
    | error fault =>
      rw [added] at h
      cases h
    | ok grown =>
      rw [added] at h
      obtain ⟨ordered', member⟩ := ih (ordered.add added) h
      obtain ⟨_, _, rfl⟩ := ordered.add_eq_ok_iff.mp added
      refine ⟨ordered', fun a => ?_⟩
      rw [member, mem_insertSorted, List.mem_cons]
      tauto

end GuestMemory

namespace MemoryMap

theorem toNat_userLen (top : UInt32) : (userLen top).toNat = top.toNat - 0x900 := by
  have start : userStart.toNat = 0x900 := rfl
  unfold userLen
  split
  next low =>
    have := UInt32.le_iff_toNat_le.mp low
    rw [start] at this
    change 0 = _
    omega
  next high =>
    have := UInt32.le_of_lt (UInt32.not_le.mp high)
    rw [UInt32.toNat_sub_of_le _ _ this, start]

end MemoryMap

namespace LoadedProgram

theorem exists_of_bind {ε α β : Type} {outcome : Except ε α} {f : α → Except ε β} {value : β}
    (h : outcome >>= f = .ok value) : ∃ a, outcome = .ok a ∧ f a = .ok value := by
  cases outcome with
  | error failure => cases h
  | ok a => exact ⟨a, rfl, h⟩

theorem exists_of_mapError_bind {ε δ α β : Type} {outcome : Except δ α} {cause : δ → ε}
    {f : α → Except ε β} {value : β} (h : outcome.mapError cause >>= f = .ok value) :
    ∃ a, outcome = .ok a ∧ f a = .ok value := by
  cases outcome with
  | error failure => cases h
  | ok a => exact ⟨a, rfl, h⟩

theorem ok_bind {ε α β : Type} {f : α → Except ε β} (a : α) :
    (Except.ok a : Except ε α) >>= f = f a :=
  rfl

theorem mapError_ok_bind {ε δ α β : Type} {cause : δ → ε} {f : α → Except ε β} (a : α) :
    (Except.ok a : Except δ α).mapError cause >>= f = f a :=
  rfl

variable {file : Bytes} {args : List String} {ramTop : UInt32} {program : LoadedProgram}
  {memory : GuestMemory}

theorem size_segments {header : Header} {stored : Bytes} {count : Nat}
    (long : header.loadLength ≤ file.size - headerLen)
    (h : segments file header = .ok (stored, count)) : stored.size = header.loadLength := by
  have cut : (file.extract headerLen (headerLen + header.loadLength)).size = header.loadLength := by
    rw [Array.size_extract]
    omega
  unfold segments at h
  dsimp only at h
  split at h
  · split at h
    next fixedCount fixed applied =>
      cases h
      have := Fixups.size_apply (file.extract headerLen (headerLen + header.loadLength))
        (file.extract header.tableStart file.size).toList MemoryMap.userStart
      rw [applied] at this
      exact this.trans cut
    · cases h
  · cases h
    exact cut

/-- A file can be loaded if its header is good, text and data are all there, the program leaves
enough room, every fixup lies inside, and the areas fit next to each other. -/
theorem ofFile_eq_ok_iff : ofFile file args ramTop = .ok (program, memory) ↔
    ∃ stored, Header.parse file = .ok program.header ∧
      program.header.loadLength ≤ file.size - headerLen ∧
      program.header.imageLength ≤ (MemoryMap.userLen (MemoryMap.userLen ramTop)).toNat ∧
      segments file program.header = .ok (stored, program.fixups) ∧
      GuestMemory.empty.addAll (areas program.basepage stored ramTop) = .ok memory ∧
      program.basepage = initialBasepage program.header args ramTop ∧
      program.heap = heapSpan program.basepage (MemoryMap.userLen ramTop) ∧
      program.ramTop = ramTop := by
  constructor
  · intro h
    unfold ofFile at h
    obtain ⟨header, parsed, h⟩ := exists_of_mapError_bind h
    dsimp only at h
    split at h
    · cases h
    next long =>
      split at h
      · cases h
      next fits =>
        obtain ⟨⟨stored, count⟩, cut, h⟩ := exists_of_bind h
        obtain ⟨memory', added, h⟩ := exists_of_mapError_bind h
        cases h
        exact ⟨stored, parsed, Nat.not_lt.mp long, Nat.not_lt.mp fits, cut, added, rfl, rfl, rfl⟩
  · obtain ⟨header, page, heap, top, count⟩ := program
    rintro ⟨stored, parsed, long, fits, cut, added, page_eq, heap_eq, top_eq⟩
    dsimp only at parsed long fits cut added page_eq heap_eq top_eq
    subst page_eq heap_eq top_eq
    unfold ofFile
    rw [parsed, mapError_ok_bind]
    dsimp only
    rw [if_neg (Nat.not_lt.mpr long), if_neg (Nat.not_lt.mpr fits), cut]
    refine Eq.trans (ok_bind (stored, count)) ?_
    rw [added, mapError_ok_bind]
    rfl

theorem toNat_and_add (x mask : UInt32) :
    (x &&& ~~~mask).toNat + (x &&& mask).toNat = x.toNat := by
  have apart : (x.toBitVec &&& ~~~mask.toBitVec) &&& (x.toBitVec &&& mask.toBitVec) = 0#32 := by
    ext i hi
    simp only [BitVec.getElem_and, BitVec.getElem_not, BitVec.getElem_zero]
    cases x.toBitVec[i] <;> cases mask.toBitVec[i] <;> rfl
  have joined : (x.toBitVec &&& ~~~mask.toBitVec) ||| (x.toBitVec &&& mask.toBitVec) =
      x.toBitVec := by
    ext i hi
    simp only [BitVec.getElem_and, BitVec.getElem_or, BitVec.getElem_not]
    cases x.toBitVec[i] <;> cases mask.toBitVec[i] <;> rfl
  have sum := BitVec.toNat_add_of_and_eq_zero apart
  rw [BitVec.add_eq_or_of_and_eq_zero _ _ apart, joined] at sum
  exact sum.symm

theorem le_alignUp {addr : UInt32} (h : addr.toNat ≤ 0xfffffff0) : addr ≤ alignUp addr := by
  have small : ¬(0xffffffff - 15 : UInt32) < addr := by
    have top : (0xffffffff - 15 : UInt32).toNat = 0xfffffff0 := by decide
    rw [UInt32.lt_iff_toNat_lt, top]
    omega
  have padded : (addr + 15).toNat = addr.toNat + 15 := by
    rw [UInt32.toNat_add]
    have fifteen : (15 : UInt32).toNat = 15 := rfl
    omega
  have cut := toNat_and_add (addr + 15) 15
  have cleared : ((addr + 15) &&& 15).toNat ≤ 15 := by
    rw [UInt32.toNat_and]
    exact Nat.and_le_right
  rw [alignUp, if_neg small, UInt32.le_iff_toNat_le]
  omega

theorem floor_heapSpan (basepage : Basepage) (top : UInt32)
    (h : (basepage.bssBase + basepage.bssLen).toNat ≤ 0xfffffff0) :
    (heapSpan basepage top).floor = top ∨
      basepage.bssBase + basepage.bssLen ≤ (heapSpan basepage top).floor := by
  have aligned := le_alignUp h
  have max_eq (a b : UInt32) : max a b = if a ≤ b then b else a := rfl
  have min_eq (a b : UInt32) : min a b = if a ≤ b then a else b := rfl
  rw [heapSpan, min_eq]
  split
  · right
    rw [max_eq]
    split
    next high => exact UInt32.le_trans aligned high
    · exact aligned
  · exact .inl rfl

/-- One past the last address of text, data and bss. -/
def imageEnd (program : LoadedProgram) : Nat :=
  MemoryMap.userStart.toNat + program.header.imageLength

/-- What holds of a loaded program and of the memory it starts in. -/
structure Placed (program : LoadedProgram) (memory : GuestMemory) : Prop where
  ordered : memory.Ordered
  steady : ∀ a ∈ memory.areas, a.storage.IsSteady
  room : MemoryMap.userStart.toNat < program.ramTop.toNat
  user : ∃ a ∈ memory.areas, a.base = MemoryMap.userStart ∧ a.stop = program.ramTop.toNat ∧
    a.rights = .readWrite
  textBase : program.basepage.textBase.toNat = MemoryMap.userStart.toNat
  dataBase : program.basepage.dataBase.toNat =
    MemoryMap.userStart.toNat + program.header.text.toNat
  bssBase : program.basepage.bssBase.toNat =
    MemoryMap.userStart.toNat + program.header.text.toNat + program.header.data.toNat
  bssStop : (program.basepage.bssBase + program.basepage.bssLen).toNat = program.imageEnd
  heapTop : program.heap.top.toNat = program.ramTop.toNat - MemoryMap.userStart.toNat
  heapFloor : program.heap.floor = program.heap.top ∨ program.imageEnd ≤ program.heap.floor.toNat

theorem isSteady_areas (basepage : Basepage) (stored : Bytes) (ramTop : UInt32) :
    ∀ a ∈ areas basepage stored ramTop, a.storage.IsSteady := by
  intro a ha
  simp only [areas, List.mem_cons, List.not_mem_nil, or_false] at ha
  rcases ha with rfl | rfl | rfl | rfl | rfl | rfl
  · trivial
  · exact Device.trampoline_isSteady
  · trivial
  · trivial
  · trivial
  · trivial

theorem userArea_eq (stored : Bytes) (ramTop : UInt32) :
    userArea stored ramTop = .ofBuffer "user ram" MemoryMap.userStart
      (stored.toList ++ List.replicate ((MemoryMap.userLen ramTop).toNat - stored.size) 0).toArray
      .readWrite := by
  have joined : stored ++ zeros ((MemoryMap.userLen ramTop).toNat - stored.size) =
      (stored.toList ++
        List.replicate ((MemoryMap.userLen ramTop).toNat - stored.size) 0).toArray := by
    apply Array.ext'
    rw [Array.toList_append, zeros, Array.toList_replicate]
  rw [userArea, joined]

theorem size_zeros (len : Nat) : (zeros len).size = len :=
  Array.size_replicate

theorem size_userMemory {stored : Bytes} {ramTop : UInt32}
    (h : stored.size ≤ (MemoryMap.userLen ramTop).toNat) :
    (stored ++ zeros ((MemoryMap.userLen ramTop).toNat - stored.size)).size =
      (MemoryMap.userLen ramTop).toNat := by
  rw [Array.size_append, size_zeros]
  omega

theorem stop_userArea {stored : Bytes} {ramTop : UInt32}
    (h : stored.size ≤ (MemoryMap.userLen ramTop).toNat) :
    (userArea stored ramTop).stop =
      MemoryMap.userStart.toNat + (MemoryMap.userLen ramTop).toNat := by
  have size := size_userMemory h
  have small : (stored ++ zeros ((MemoryMap.userLen ramTop).toNat - stored.size)).size <
      UInt32.size := by
    rw [size]
    exact (MemoryMap.userLen ramTop).toNat_lt_size
  rw [userArea, Area.stop_ofBuffer small, size]

theorem bases_initialBasepage (header : Header) (args : List String) (ramTop : UInt32)
    (fits : MemoryMap.userStart.toNat + header.text.toNat + header.data.toNat +
      header.bss.toNat < UInt32.size) :
    (initialBasepage header args ramTop).textBase.toNat = MemoryMap.userStart.toNat ∧
    (initialBasepage header args ramTop).dataBase.toNat =
      MemoryMap.userStart.toNat + header.text.toNat ∧
    (initialBasepage header args ramTop).bssBase.toNat =
      MemoryMap.userStart.toNat + header.text.toNat + header.data.toNat ∧
    ((initialBasepage header args ramTop).bssBase +
      (initialBasepage header args ramTop).bssLen).toNat =
      MemoryMap.userStart.toNat + header.text.toNat + header.data.toNat + header.bss.toNat := by
  let page := initialBasepage header args ramTop
  have large : UInt32.size = 4294967296 := rfl
  have textBase : page.textBase.toNat = MemoryMap.userStart.toNat := rfl
  have dataBase : page.dataBase.toNat = MemoryMap.userStart.toNat + header.text.toNat := by
    change (page.textBase + header.text).toNat = _
    rw [UInt32.toNat_add, textBase]
    omega
  have bssBase : page.bssBase.toNat =
      MemoryMap.userStart.toNat + header.text.toNat + header.data.toNat := by
    change (page.dataBase + header.data).toNat = _
    rw [UInt32.toNat_add, dataBase]
    omega
  refine ⟨textBase, dataBase, bssBase, ?_⟩
  change (page.bssBase + header.bss).toNat = _
  rw [UInt32.toNat_add, bssBase]
  omega

theorem placed_of_ofFile (h : ofFile file args ramTop = .ok (program, memory)) :
    program.Placed memory ∧ Header.parse file = .ok program.header ∧ program.ramTop = ramTop := by
  obtain ⟨stored, parsed, long, fits, cut, added, page, heap, top⟩ := ofFile_eq_ok_iff.mp h
  have size := size_segments long cut
  obtain ⟨ordered, member⟩ := GuestMemory.ordered_empty.addAll added
  have start : MemoryMap.userStart.toNat = 0x900 := rfl
  have room := MemoryMap.toNat_userLen ramTop
  have spare := MemoryMap.toNat_userLen (MemoryMap.userLen ramTop)
  have image : program.header.imageLength =
    program.header.text.toNat + program.header.data.toNat + program.header.bss.toNat := rfl
  have load : program.header.loadLength =
    program.header.text.toNat + program.header.data.toNat := rfl
  have bounded := ramTop.toNat_lt_size
  have large : UInt32.size = 4294967296 := rfl
  have user : userArea stored ramTop ∈ memory.areas := (member _).mpr (.inl (by simp [areas]))
  have short : stored.size ≤ (MemoryMap.userLen ramTop).toNat := by omega
  have stop := stop_userArea short
  have filled := Area.base_lt_stop (ordered.filled _ user)
  have base : (userArea stored ramTop).base = MemoryMap.userStart := rfl
  rw [base, stop] at filled
  have placed := bases_initialBasepage program.header args ramTop (by omega)
  rw [← page] at placed
  obtain ⟨textBase, dataBase, bssBase, behindBss⟩ := placed
  have bssStop : (program.basepage.bssBase + program.basepage.bssLen).toNat = program.imageEnd := by
    rw [behindBss, imageEnd, image]
    omega
  refine ⟨⟨ordered, fun a ha => ?_, ?_, ⟨_, user, base, ?_, rfl⟩, textBase, dataBase, bssBase,
    bssStop, ?_, ?_⟩, parsed, top⟩
  · refine isSteady_areas program.basepage stored ramTop a (((member a).mp ha).resolve_right ?_)
    exact List.not_mem_nil
  · rw [top]
    omega
  · rw [stop, top]
    omega
  · rw [heap, top]
    exact room
  · rw [heap]
    have low : (program.basepage.bssBase + program.basepage.bssLen).toNat ≤ 0xfffffff0 := by
      rw [bssStop, imageEnd, start]
      omega
    rcases floor_heapSpan program.basepage (MemoryMap.userLen ramTop) low with empty | behind
    · exact .inl empty
    · right
      rw [← bssStop]
      exact UInt32.le_iff_toNat_le.mp behind

end LoadedProgram

end AtariTos
