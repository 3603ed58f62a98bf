import AtariTos.Proofs.FlatMemory
import AtariTos.Proofs.GuestStrings

namespace AtariTos

theorem Width.encode_byte (byte : UInt8) : Width.byte.encode byte.toUInt32 = [byte] := by
  simp [encode, bytesOfLong, bytes]

theorem Width.encode_eq (width : Width) (value : UInt32) :
    width.encode value = (List.range width.bytes).map (width.byteOf value) := by
  refine List.ext_getElem? fun i => ?_
  by_cases inside : i < width.bytes
  · rw [getElem?_encode value inside, List.getElem?_map, List.getElem?_range inside]
    rfl
  · have length := width.encode_length value
    rw [List.getElem?_eq_none (by omega), List.getElem?_eq_none (by simpa using inside)]

namespace Storage

theorem load_succ (storage : Storage) (offset count : Nat) :
    storage.load offset (count + 1) =
      ((storage.load offset 1).1 ++ ((storage.load offset 1).2.load (offset + 1) count).1,
        ((storage.load offset 1).2.load (offset + 1) count).2) := by
  cases storage with
  | buffer bytes =>
    rw [Nat.add_comm]
    exact congrArg (·, buffer bytes) (Bytes.extract_add bytes offset 1 count)
  | device len d => rfl

theorem store_cons (storage : Storage) (offset : Nat) (byte : UInt8) (rest : List UInt8) :
    storage.store offset (byte :: rest) = (storage.store offset [byte]).store (offset + 1) rest := by
  cases storage <;> rfl

end Storage

namespace Area

variable {a : Area} {addr : UInt32}

theorem load_snd_of_isBuffer (buffer : a.isBuffer = true) (addr : UInt32) (count : Nat) :
    (a.load addr count).2 = a := by
  obtain ⟨name, base, bytes, rights, rfl⟩ := exists_of_isBuffer buffer
  rfl

theorem load_eq (a : Area) (addr : UInt32) (count : Nat) :
    a.load addr count =
      ((a.storage.load (a.offset addr) count).1,
        { a with storage := (a.storage.load (a.offset addr) count).2 }) :=
  rfl

theorem load_succ (inside : addr.toNat ∈ a.addresses) (h : addr ≠ 0xffffffff) (count : Nat) :
    a.load addr (count + 1) =
      ((a.load addr 1).1 ++ ((a.load addr 1).2.load (addr + 1) count).1,
        ((a.load addr 1).2.load (addr + 1) count).2) := by
  rw [load_eq, Storage.load_succ, ← offset_succ inside h]
  rfl

theorem store_cons (inside : addr.toNat ∈ a.addresses) (h : addr ≠ 0xffffffff) (byte : UInt8)
    (rest : List UInt8) :
    a.store addr (byte :: rest) = (a.store addr [byte]).store (addr + 1) rest := by
  rw [store, Storage.store_cons, ← offset_succ inside h]
  rfl

end Area

namespace GuestMemory

/-- Bytes read one at a time, in ascending order. -/
def readEach (mode : Privilege) :
    Nat → UInt32 → GuestMemory → Except Fault (List UInt8 × GuestMemory)
  | 0, _, memory => .ok ([], memory)
  | count + 1, addr, memory => do
    let (value, next) ← memory.read addr .byte mode
    let (rest, last) ← readEach mode count (addr + 1) next
    return (value.toUInt8 :: rest, last)

def writeEach (mode : Privilege) : List UInt8 → UInt32 → GuestMemory → Except Fault GuestMemory
  | [], _, memory => .ok memory
  | byte :: rest, addr, memory => do
    let next ← memory.write addr .byte byte.toUInt32 mode
    writeEach mode rest (addr + 1) next

def peekEach (memory : GuestMemory) (mode : Privilege) :
    Nat → UInt32 → Except Fault (List UInt8)
  | 0, _ => .ok []
  | count + 1, addr => do
    let value ← memory.peek addr .byte mode
    let rest ← peekEach memory mode count (addr + 1)
    return value.toUInt8 :: rest

/-- What an access fails with: its bytes do not all lie in one area, or that area does not grant
the right. -/
inductive Refused (memory : GuestMemory) (addr : UInt32) (count : Nat) (access : Access)
    (mode : Privilege) : Fault → Prop
  | unmapped (outside : ¬memory.Grants addr count fun _ => true) :
      memory.Refused addr count access mode (.unmapped addr)
  | denied (inside : memory.Grants addr count fun _ => true) :
      memory.Refused addr count access mode (.denied addr access mode)

variable {memory next last : GuestMemory} {area : Area} {addr base : UInt32} {count : Nat}
  {access : Access} {mode : Privilege} {byte : UInt8} {bytes data rest : List UInt8}

theorem modify_modify {first second : Area → Area} (kept : ∀ a, (first a).base = a.base) :
    (memory.modify base first).modify base second = memory.modify base (second ∘ first) := by
  rw [modify, modify, modify, List.map_map]
  refine congrArg GuestMemory.mk (List.map_congr_left fun a _ => ?_)
  by_cases here : a.base = base
  · simp [here, kept]
  · simp [here]

theorem Ordered.modify_congr (ordered : memory.Ordered) (member : area ∈ memory.areas)
    (change other : Area → Area) (same : change area = other area) :
    memory.modify area.base change = memory.modify area.base other := by
  rw [modify, modify]
  refine congrArg GuestMemory.mk (List.map_congr_left fun a ha => ?_)
  split
  next here => rw [ordered.eq_of_base ha member here, same]
  · rfl

theorem modify_id (memory : GuestMemory) (base : UInt32) : memory.modify base id = memory := by
  rw [modify]
  refine congrArg GuestMemory.mk ((List.map_congr_left fun a _ => ?_).trans (List.map_id _))
  split <;> rfl

theorem Ordered.locate_first (ordered : memory.Ordered)
    (located : memory.locate addr (count + 1) access mode = .ok area) :
    memory.locate addr 1 access mode = .ok area := by
  obtain ⟨member, inside, fits, allowed⟩ := ordered.locate_eq_ok_iff.mp located
  exact ordered.locate_eq_ok_iff.mpr ⟨member, inside, by omega, allowed⟩

theorem Ordered.locate_rest (ordered : memory.Ordered) (positive : 0 < count)
    (inner : addr ≠ 0xffffffff)
    (located : memory.locate addr (count + 1) access mode = .ok area) :
    memory.locate (addr + 1) count access mode = .ok area := by
  obtain ⟨member, inside, fits, allowed⟩ := ordered.locate_eq_ok_iff.mp located
  have next := Area.toNat_succ_of_ne_last inner
  have low := inside.1
  exact ordered.locate_eq_ok_iff.mpr
    ⟨member, ⟨by omega, by omega⟩, by omega, allowed⟩

/-- A changed area serves what it served before. -/
theorem locate_changed {change : Area → Area}
    (kept : ∀ a, (change a).outline = a.outline)
    (located : memory.locate addr count access mode = .ok area) :
    (memory.modify area.base change).locate addr count access mode = .ok (change area) := by
  rw [locate_modify_eq kept, located, Except.map, if_pos rfl]

theorem Ordered.locate_of_not_grants (ordered : memory.Ordered) (positive : 0 < count)
    (missing : ¬memory.Grants addr count (·.permits access mode)) :
    ∃ fault, memory.Refused addr count access mode fault ∧
      memory.locate addr count access mode = .error fault := by
  by_cases inside : memory.Grants addr count fun _ => true
  · obtain ⟨area, member, within, _⟩ := inside
    refine ⟨_, .denied ⟨area, member, within, rfl⟩, ?_⟩
    have forbidden : ¬area.rights.permits access mode = true := fun allowed =>
      missing ⟨area, member, within, allowed⟩
    obtain ⟨first, fits⟩ := fits_of_subset positive within
    rw [ordered.locate_of_covers member first fits, if_neg forbidden]
  · refine ⟨_, .unmapped inside, ordered.locate_of_uncovered fun a ha first fits => inside ?_⟩
    exact ⟨a, ha, fun n hn => ⟨Nat.le_trans first.1 hn.1, Nat.lt_of_lt_of_le hn.2 fits⟩, rfl⟩

theorem Ordered.load_of_locate (ordered : memory.Ordered) (positive : 0 < count)
    (located : memory.locate addr count .read mode = .ok area) :
    memory.load addr count mode =
      .ok ((area.load addr count).1, memory.modify area.base fun a => (a.load addr count).2) := by
  have member := (ordered.locate_eq_ok_iff.mp located).1
  rw [load_eq positive, located, Except.map]
  by_cases buffer : area.isBuffer = true
  · have same := Area.load_snd_of_isBuffer buffer addr count
    rw [if_pos buffer, ordered.modify_congr member _ id same, modify_id]
  · rw [if_neg buffer]
    exact congrArg (fun memory => Except.ok (_, memory)) (ordered.modify_congr member _ _ rfl)

theorem readEach_succ (first : memory.load addr 1 mode = .ok ([byte], next)) (count : Nat) :
    memory.readEach mode (count + 1) addr =
      (next.readEach mode count (addr + 1)).map fun (rest, last) => (byte :: rest, last) := by
  have read : memory.read addr .byte mode = .ok (longOfBytes [byte], next) := by
    rw [GuestMemory.read, Width.bytes, first]
    rfl
  rw [readEach, read]
  change (next.readEach mode count (addr + 1) >>= fun (rest, last) =>
    pure ((longOfBytes [byte]).toUInt8 :: rest, last)) = _
  rw [toUInt8_longOfBytes_singleton]
  cases next.readEach mode count (addr + 1) <;> rfl

theorem Ordered.exists_load_one (ordered : memory.Ordered)
    (located : memory.locate addr 1 .read mode = .ok area) :
    ∃ byte, (area.load addr 1).1 = [byte] ∧
      memory.load addr 1 mode =
        .ok ([byte], memory.modify area.base fun a => (a.load addr 1).2) := by
  obtain ⟨_, inside, fits, _⟩ := ordered.locate_eq_ok_iff.mp located
  obtain ⟨byte, single⟩ := List.length_eq_one_iff.mp (Area.length_load inside fits)
  refine ⟨byte, single, ?_⟩
  rw [ordered.load_of_locate Nat.one_pos located, single]

/-- Reading several bytes is reading the first one and then the others. -/
theorem Ordered.load_succ (ordered : memory.Ordered) (positive : 0 < count)
    (inner : addr ≠ 0xffffffff)
    (located : memory.locate addr (count + 1) .read mode = .ok area) :
    ∃ byte next rest last, memory.load addr 1 mode = .ok ([byte], next) ∧ next.Ordered ∧
      (∃ area', next.locate (addr + 1) count .read mode = .ok area') ∧
      next.load (addr + 1) count mode = .ok (rest, last) ∧
      memory.load addr (count + 1) mode = .ok (byte :: rest, last) := by
  have kept (a : Area) : (a.load addr 1).2.outline = a.outline := a.outline_load addr 1
  obtain ⟨byte, single, first⟩ := ordered.exists_load_one (ordered.locate_first located)
  have ordered' := ordered.of_layout (ordered.layout_load first)
  have located' := locate_changed kept (ordered.locate_rest positive inner located)
  have loaded' := ordered'.load_of_locate positive located'
  obtain ⟨member, inside, _⟩ := ordered.locate_eq_ok_iff.mp located
  refine ⟨byte, _, _, _, first, ordered', ⟨_, located'⟩, loaded', ?_⟩
  have whole := Area.load_succ inside inner count
  have base : (area.load addr 1).2.base = area.base := rfl
  rw [ordered.load_of_locate (Nat.succ_pos count) located, base,
    modify_modify fun a => Area.base_eq_of_outline (kept a), whole, single]
  have same : (area.load addr (count + 1)).2 = ((area.load addr 1).2.load (addr + 1) count).2 := by
    rw [whole]
  exact congrArg (fun memory => Except.ok (byte :: _, memory))
    (ordered.modify_congr member _ _ same)

theorem Ordered.readEach_eq_load (ordered : memory.Ordered)
    (reached : addr.toNat + count ≤ UInt32.size)
    (located : 0 < count → ∃ area, memory.locate addr count .read mode = .ok area) :
    memory.readEach mode count addr = memory.load addr count mode := by
  induction count generalizing memory addr with
  | zero => rfl
  | succ count ih =>
    obtain ⟨area, located⟩ := located (Nat.succ_pos count)
    rcases Nat.eq_zero_or_pos count with rfl | positive
    · obtain ⟨byte, _, first⟩ := ordered.exists_load_one located
      rw [readEach_succ first, first]
      rfl
    · have inner : addr ≠ 0xffffffff := Area.ne_last_of_lt (by omega)
      obtain ⟨byte, next, rest, last, first, ordered', located', loaded', loaded⟩ :=
        ordered.load_succ positive inner located
      have reached' : (addr + 1).toNat + count ≤ UInt32.size := by
        rw [Area.toNat_succ_of_ne_last inner]
        omega
      rw [readEach_succ first, ih ordered' reached' fun _ => located', loaded', loaded]
      rfl

theorem store_of_locate (filled : data ≠ [])
    (located : memory.locate addr data.length .write mode = .ok area) :
    memory.store addr data mode = .ok (memory.modify area.base (·.store addr data)) := by
  rw [store_eq filled, located]
  rfl

theorem writeEach_cons (byte : UInt8) (rest : List UInt8) :
    memory.writeEach mode (byte :: rest) addr =
      (memory.store addr [byte] mode).bind fun next => next.writeEach mode rest (addr + 1) := by
  rw [writeEach, write, Width.encode_byte]
  rfl

theorem Ordered.store_cons (ordered : memory.Ordered) (filled : rest ≠ [])
    (inner : addr ≠ 0xffffffff)
    (located : memory.locate addr (rest.length + 1) .write mode = .ok area) :
    ∃ next last, memory.store addr [byte] mode = .ok next ∧ next.Ordered ∧
      (∃ area', next.locate (addr + 1) rest.length .write mode = .ok area') ∧
      next.store (addr + 1) rest mode = .ok last ∧
      memory.store addr (byte :: rest) mode = .ok last := by
  have kept (a : Area) : (a.store addr [byte]).outline = a.outline := a.outline_store addr [byte]
  have first := store_of_locate (List.cons_ne_nil byte []) (ordered.locate_first located)
  have ordered' := ordered.of_layout (ordered.layout_store first)
  have located' := locate_changed kept
    (ordered.locate_rest (List.length_pos_iff.mpr filled) inner located)
  obtain ⟨member, inside, _⟩ := ordered.locate_eq_ok_iff.mp located
  refine ⟨_, _, first, ordered', ⟨_, located'⟩, store_of_locate filled located', ?_⟩
  have base : (area.store addr [byte]).base = area.base := rfl
  rw [store_of_locate (List.cons_ne_nil byte rest) located, base,
    modify_modify fun a => Area.base_eq_of_outline (kept a)]
  exact congrArg Except.ok
    (ordered.modify_congr member _ _ (Area.store_cons inside inner byte rest))

theorem Ordered.writeEach_eq_store (ordered : memory.Ordered)
    (reached : addr.toNat + data.length ≤ UInt32.size)
    (located : data ≠ [] → ∃ area, memory.locate addr data.length .write mode = .ok area) :
    memory.writeEach mode data addr = memory.store addr data mode := by
  induction data generalizing memory addr with
  | nil => rfl
  | cons byte rest ih =>
    obtain ⟨area, located⟩ := located (List.cons_ne_nil byte rest)
    rw [List.length_cons] at reached located
    rw [writeEach_cons]
    by_cases filled : rest = []
    · subst filled
      rw [store_of_locate (List.cons_ne_nil byte []) located]
      rfl
    · have positive := List.length_pos_iff.mpr filled
      have inner : addr ≠ 0xffffffff := Area.ne_last_of_lt (by omega)
      obtain ⟨next, last, first, ordered', located', stored', stored⟩ :=
        ordered.store_cons filled inner located
      have reached' : (addr + 1).toNat + rest.length ≤ UInt32.size := by
        rw [Area.toNat_succ_of_ne_last inner]
        omega
      rw [first, stored, ← stored', ← ih ordered' reached' fun _ => located']
      rfl

theorem peekEach_succ (first : memory.peekBytes addr 1 mode = .ok [byte]) (count : Nat) :
    memory.peekEach mode (count + 1) addr =
      (memory.peekEach mode count (addr + 1)).map (byte :: ·) := by
  have seen : memory.peek addr .byte mode = .ok (longOfBytes [byte]) := by
    rw [peek, Width.bytes, first]
    rfl
  rw [peekEach, seen]
  change (memory.peekEach mode count (addr + 1) >>= fun rest =>
    pure ((longOfBytes [byte]).toUInt8 :: rest)) = _
  rw [toUInt8_longOfBytes_singleton]
  cases memory.peekEach mode count (addr + 1) <;> rfl

theorem Ordered.peekEach_eq_peekBytes (ordered : memory.Ordered) (positive : 0 < count)
    (reached : addr.toNat + count ≤ UInt32.size)
    (located : memory.locate addr count .peek mode = .ok area) :
    memory.peekEach mode count addr = memory.peekBytes addr count mode := by
  induction count generalizing addr with
  | zero => exact absurd positive (Nat.lt_irrefl 0)
  | succ count ih =>
    obtain ⟨_, inside, _⟩ := ordered.locate_eq_ok_iff.mp located
    obtain ⟨byte, single⟩ := List.length_eq_one_iff.mp (Area.length_peek inside inside.2)
    have first := peekBytes_of_locate (ordered.locate_first located)
    rw [single] at first
    rw [peekEach_succ first, peekBytes_of_locate located]
    rcases Nat.eq_zero_or_pos count with rfl | more
    · rw [single]
      rfl
    · have inner : addr ≠ 0xffffffff := Area.ne_last_of_lt (by omega)
      have located' := ordered.locate_rest more inner located
      have reached' : (addr + 1).toNat + count ≤ UInt32.size := by
        rw [Area.toNat_succ_of_ne_last inner]
        omega
      rw [ih more reached' located', peekBytes_of_locate located',
        Area.peek_succ inside inner, single]
      rfl

theorem Ordered.exists_readEach (ordered : memory.Ordered)
    (granted : memory.Grants addr count (·.permits .read mode))
    (reached : addr.toNat + count ≤ UInt32.size) :
    ∃ bytes next, bytes.length = count ∧ memory.load addr count mode = .ok (bytes, next) ∧
      memory.readEach mode count addr = .ok (bytes, next) := by
  rcases Nat.eq_zero_or_pos count with rfl | positive
  · exact ⟨[], memory, rfl, rfl, rfl⟩
  obtain ⟨area, located⟩ := (ordered.exists_locate_iff positive).mpr granted
  have loaded := ordered.load_of_locate positive located
  refine ⟨_, _, ordered.length_load loaded, loaded, ?_⟩
  rw [ordered.readEach_eq_load reached fun _ => ⟨area, located⟩, loaded]

theorem Ordered.exists_writeEach (ordered : memory.Ordered)
    (granted : memory.Grants addr data.length (·.permits .write mode))
    (reached : addr.toNat + data.length ≤ UInt32.size) :
    ∃ next, memory.store addr data mode = .ok next ∧
      memory.writeEach mode data addr = .ok next := by
  by_cases empty : data = []
  · subst empty
    exact ⟨memory, rfl, rfl⟩
  have filled : 0 < data.length := List.length_pos_iff.mpr empty
  obtain ⟨area, located⟩ := (ordered.exists_locate_iff filled).mpr granted
  have stored := store_of_locate empty located
  refine ⟨_, stored, ?_⟩
  rw [ordered.writeEach_eq_store reached fun _ => ⟨area, located⟩, stored]

theorem Ordered.exists_peekEach (ordered : memory.Ordered) (positive : 0 < count)
    (granted : memory.Grants addr count (·.permits .peek mode))
    (reached : addr.toNat + count ≤ UInt32.size) :
    ∃ bytes, bytes.length = count ∧ memory.peekBytes addr count mode = .ok bytes ∧
      memory.peekEach mode count addr = .ok bytes := by
  obtain ⟨area, located⟩ := (ordered.exists_locate_iff positive).mpr granted
  obtain ⟨_, inside, fits, _⟩ := ordered.locate_eq_ok_iff.mp located
  have seen := peekBytes_of_locate located
  refine ⟨_, Area.length_peek inside fits, seen, ?_⟩
  rw [ordered.peekEach_eq_peekBytes positive reached located, seen]

theorem Ordered.load_of_not_grants (ordered : memory.Ordered) (positive : 0 < count)
    (missing : ¬memory.Grants addr count (·.permits .read mode)) :
    ∃ fault, memory.Refused addr count .read mode fault ∧
      memory.load addr count mode = .error fault := by
  obtain ⟨fault, refused, located⟩ := ordered.locate_of_not_grants positive missing
  refine ⟨fault, refused, ?_⟩
  rw [load_eq positive, located]
  rfl

theorem Ordered.store_of_not_grants (ordered : memory.Ordered) (filled : data ≠ [])
    (missing : ¬memory.Grants addr data.length (·.permits .write mode)) :
    ∃ fault, memory.Refused addr data.length .write mode fault ∧
      memory.store addr data mode = .error fault := by
  have positive : 0 < data.length := List.length_pos_iff.mpr filled
  obtain ⟨fault, refused, located⟩ := ordered.locate_of_not_grants positive missing
  refine ⟨fault, refused, ?_⟩
  rw [store_eq filled, located]
  rfl

theorem Ordered.peekBytes_of_not_grants (ordered : memory.Ordered) (positive : 0 < count)
    (missing : ¬memory.Grants addr count (·.permits .peek mode)) :
    ∃ fault, memory.Refused addr count .peek mode fault ∧
      memory.peekBytes addr count mode = .error fault := by
  obtain ⟨fault, refused, located⟩ := ordered.locate_of_not_grants positive missing
  refine ⟨fault, refused, ?_⟩
  rw [peekBytes_eq, located]
  rfl

theorem change_load_of_load {fault : Fault} (h : memory.load addr count mode = .error fault) :
    memory.change (.load addr count mode) = memory := by
  rw [change, tryLoad_eq, h]

theorem change_store_of_store {fault : Fault} (h : memory.store addr data mode = .error fault) :
    memory.change (.store addr data mode) = memory := by
  rw [change, tryStore_eq, h]

/-- Whatever has been done to an empty table of areas, an access to bytes that one area holds, and
grants, comes to as many accesses to single bytes in ascending order: it answers the same bytes, or
the number that they spell, and leaves the same memory and the same devices. An access to bytes that
no area holds together, or without the right, is refused and changes nothing. -/
theorem accesses_bytewise (changes : List TableChange) :
    let memory := empty.changeAll changes
    (∀ addr count mode, addr.toNat + count ≤ UInt32.size →
      memory.Grants addr count (·.mayRead mode) →
      ∃ bytes next, bytes.length = count ∧ memory.load addr count mode = .ok (bytes, next) ∧
        memory.readEach mode count addr = .ok (bytes, next)) ∧
    (∀ addr data mode, addr.toNat + data.length ≤ UInt32.size →
      memory.Grants addr data.length (·.mayWrite mode) →
      ∃ next, memory.store addr data mode = .ok next ∧
        memory.writeEach mode data addr = .ok next) ∧
    (∀ addr width mode, addr.toNat + width.bytes ≤ UInt32.size →
      (memory.Grants addr width.bytes (·.mayRead mode) → ∃ bytes next value,
        memory.readEach mode width.bytes addr = .ok (bytes, next) ∧
        memory.read addr width mode = .ok (value, next) ∧ value.toNat = bigEndian bytes) ∧
      (memory.Grants addr width.bytes (·.mayWrite mode) → ∀ value, ∃ next,
        memory.writeEach mode ((List.range width.bytes).map (width.byteOf value)) addr =
          .ok next ∧
        memory.write addr width value mode = .ok next) ∧
      (memory.Grants addr width.bytes (·.mayPeek mode) → ∃ bytes value,
        memory.peekEach mode width.bytes addr = .ok bytes ∧
        memory.peek addr width mode = .ok value ∧ value.toNat = bigEndian bytes)) ∧
    (∀ addr count mode, 0 < count → ¬memory.Grants addr count (·.mayRead mode) →
      ∃ fault, memory.Refused addr count .read mode fault ∧
        memory.load addr count mode = .error fault ∧
        memory.change (.load addr count mode) = memory) ∧
    (∀ addr data mode, data ≠ [] → ¬memory.Grants addr data.length (·.mayWrite mode) →
      ∃ fault, memory.Refused addr data.length .write mode fault ∧
        memory.store addr data mode = .error fault ∧
        memory.change (.store addr data mode) = memory) ∧
    ∀ addr width mode,
      (¬memory.Grants addr width.bytes (·.mayRead mode) →
        ∃ fault, memory.Refused addr width.bytes .read mode fault ∧
          memory.read addr width mode = .error fault ∧
          memory.change (.load addr width.bytes mode) = memory) ∧
      (¬memory.Grants addr width.bytes (·.mayWrite mode) → ∀ value,
        ∃ fault, memory.Refused addr width.bytes .write mode fault ∧
          memory.write addr width value mode = .error fault ∧
          memory.change (.store addr (width.encode value) mode) = memory) ∧
      (¬memory.Grants addr width.bytes (·.mayPeek mode) →
        ∃ fault, memory.Refused addr width.bytes .peek mode fault ∧
          memory.peek addr width mode = .error fault) := by
  intro memory
  have ordered : memory.Ordered := ordered_empty.changeAll changes
  refine ⟨fun addr count mode reached granted => ordered.exists_readEach granted reached,
    fun addr data mode reached granted => ordered.exists_writeEach granted reached,
    fun addr width mode reached => ⟨fun granted => ?_, fun granted value => ?_, fun granted => ?_⟩,
    fun addr count mode positive missing => ?_, fun addr data mode filled missing => ?_,
    fun addr width mode => ⟨fun missing => ?_, fun missing value => ?_, fun missing => ?_⟩⟩
  · obtain ⟨bytes, next, length, loaded, each⟩ := ordered.exists_readEach granted reached
    refine ⟨bytes, next, longOfBytes bytes, each, ?_, ?_⟩
    · rw [read, loaded]
      rfl
    · exact toNat_longOfBytes (length ▸ width.bytes_le_four)
  · have length := width.encode_length value
    rw [← length] at granted reached
    obtain ⟨next, stored, each⟩ := ordered.exists_writeEach granted reached
    rw [width.encode_eq] at each
    exact ⟨next, each, stored⟩
  · obtain ⟨bytes, length, seen, each⟩ := ordered.exists_peekEach width.bytes_pos granted reached
    refine ⟨bytes, longOfBytes bytes, each, ?_, ?_⟩
    · rw [peek, seen]
      rfl
    · exact toNat_longOfBytes (length ▸ width.bytes_le_four)
  · obtain ⟨fault, refused, failed⟩ := ordered.load_of_not_grants positive missing
    exact ⟨fault, refused, failed, change_load_of_load failed⟩
  · obtain ⟨fault, refused, failed⟩ := ordered.store_of_not_grants filled missing
    exact ⟨fault, refused, failed, change_store_of_store failed⟩
  · obtain ⟨fault, refused, failed⟩ := ordered.load_of_not_grants width.bytes_pos missing
    refine ⟨fault, refused, ?_, change_load_of_load failed⟩
    rw [read, failed]
    rfl
  · have length := width.encode_length value
    rw [← length] at missing
    obtain ⟨fault, refused, failed⟩ :=
      ordered.store_of_not_grants (encode_ne_nil width value) missing
    rw [length] at refused
    exact ⟨fault, refused, failed, change_store_of_store failed⟩
  · obtain ⟨fault, refused, failed⟩ := ordered.peekBytes_of_not_grants width.bytes_pos missing
    refine ⟨fault, refused, ?_⟩
    rw [peek, failed]
    rfl

/-- A device that answers how often it has been read. -/
def counter : Device where
  name := "counter"
  state := [0]
  onRead state _ := ((state.headD 0).toUInt8, [state.headD 0 + 1])
  onWrite _ _ value := [value.toNat]
  onPeek state _ := (state.headD 0).toUInt8

-- three bytes come in ascending order, however they are read, and a fourth one behind them
example :
    let memory : GuestMemory := ⟨[⟨"counter", 0x100, .readWrite, .device 4 counter⟩]⟩
    (memory.load 0x100 3 .user).map (·.1) = .ok [0, 1, 2] ∧
      (memory.readEach .user 3 0x100).map (·.1) = .ok [0, 1, 2] ∧
      ((memory.load 0x100 3 .user).bind (·.2.load 0x100 1 .user)).map (·.1) = .ok [3] :=
  ⟨rfl, rfl, rfl⟩

end GuestMemory

end AtariTos
