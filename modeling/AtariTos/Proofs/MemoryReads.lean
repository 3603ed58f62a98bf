import AtariTos.Proofs.LastingAreas

namespace AtariTos

theorem longOfBytes_encode (value : UInt32) : longOfBytes (Width.long.encode value) = value := by
  have opened : longOfBytes (Width.long.encode value) =
      ((((0 : UInt32) <<< 8 ||| (value >>> 24).toUInt8.toUInt32) <<< 8 |||
        (value >>> 16).toUInt8.toUInt32) <<< 8 ||| (value >>> 8).toUInt8.toUInt32) <<< 8 |||
        value.toUInt8.toUInt32 := rfl
  rw [opened, ← UInt32.toBitVec_inj]
  simp only [UInt32.toBitVec_or, UInt32.toBitVec_shiftLeft, UInt8.toBitVec_toUInt32,
    UInt32.toBitVec_toUInt8, UInt32.toBitVec_shiftRight]
  ext i hi
  rw [← BitVec.getLsbD_eq_getElem, ← BitVec.getLsbD_eq_getElem]
  -- which of the four bytes a bit belongs to
  by_cases first : i < 8
  · simp [first, hi]
  by_cases second : i - 8 < 8
  · have place : 8 + (i - 8) = i := by omega
    simp [first, second, hi, place]
  by_cases third : i - 8 - 8 < 8
  · have place : 16 + (i - 8 - 8) = i := by omega
    simp [first, second, third, hi, place]
  · have fourth : i - 8 - 8 - 8 < 8 := by omega
    have place : 24 + (i - 8 - 8 - 8) = i := by omega
    simp [first, second, third, fourth, hi, place]

namespace Bytes

theorem getElem?_overwrite_add {buffer : Bytes} {offset i : Nat} {data : List UInt8}
    (fits : offset + data.length ≤ buffer.size) (inside : i < data.length) :
    (overwrite buffer offset data)[offset + i]? = data[i]? := by
  induction data generalizing buffer offset i with
  | nil => exact absurd inside (Nat.not_lt_zero i)
  | cons byte rest ih =>
    rw [List.length_cons] at fits inside
    rw [overwrite]
    cases i with
    | zero =>
      have here : offset < buffer.size := by omega
      have kept : (overwrite (buffer.setIfInBounds offset byte) (offset + 1) rest)[offset]? =
          (buffer.setIfInBounds offset byte)[offset]? :=
        getElem?_overwrite (.inl (Nat.lt_succ_self offset))
      refine kept.trans ?_
      simp [here]
    | succ i =>
      have fits' : offset + 1 + rest.length ≤ (buffer.setIfInBounds offset byte).size := by
        rw [Array.size_setIfInBounds]
        omega
      have next : offset + (i + 1) = offset + 1 + i := by omega
      rw [next, ih fits' (by omega)]
      rfl

theorem length_extract {buffer : Bytes} {offset count : Nat} (fits : offset + count ≤ buffer.size) :
    (buffer.extract offset (offset + count)).toList.length = count := by
  rw [Array.length_toList, Array.size_extract]
  omega

theorem getElem?_extract {buffer : Bytes} {offset count i : Nat}
    (fits : offset + count ≤ buffer.size) (inside : i < count) :
    (buffer.extract offset (offset + count)).toList[i]? = buffer[offset + i]? := by
  rw [Array.getElem?_toList, Array.getElem?_extract]
  split
  · rfl
  · omega

theorem extract_add (buffer : Bytes) (offset first rest : Nat) :
    (buffer.extract offset (offset + (first + rest))).toList =
      (buffer.extract offset (offset + first)).toList ++
        (buffer.extract (offset + first) (offset + first + rest)).toList := by
  rw [← Array.toList_append, Array.extract_append_extract, Nat.min_eq_left (by omega),
    Nat.max_eq_right (by omega), Nat.add_assoc]

theorem extract_overwrite {buffer : Bytes} {offset : Nat} {data : List UInt8}
    (fits : offset + data.length ≤ buffer.size) :
    ((overwrite buffer offset data).extract offset (offset + data.length)).toList = data := by
  have fits' : offset + data.length ≤ (overwrite buffer offset data).size := by
    rwa [size_overwrite]
  have length := length_extract fits'
  refine List.ext_getElem? fun i => ?_
  by_cases inside : i < data.length
  · rw [getElem?_extract fits' inside, getElem?_overwrite_add fits inside]
  · rw [List.getElem?_eq_none (by omega), List.getElem?_eq_none (by omega)]

theorem extract_overwrite_of_apart {buffer : Bytes} {offset count start : Nat}
    {data : List UInt8} (fits : offset + count ≤ buffer.size)
    (apart : offset + count ≤ start ∨ start + data.length ≤ offset) :
    ((overwrite buffer start data).extract offset (offset + count)).toList =
      (buffer.extract offset (offset + count)).toList := by
  have fits' : offset + count ≤ (overwrite buffer start data).size := by rwa [size_overwrite]
  have length := length_extract fits'
  have length' := length_extract fits
  refine List.ext_getElem? fun i => ?_
  by_cases inside : i < count
  · have elsewhere : offset + i < start ∨ start + data.length ≤ offset + i := by omega
    rw [getElem?_extract fits' inside, getElem?_extract fits inside, getElem?_overwrite elsewhere]
  · rw [List.getElem?_eq_none (by omega), List.getElem?_eq_none (by omega)]

end Bytes

theorem Device.length_load (d : Device) (offset count : Nat) :
    (d.load offset count).1.length = count := by
  induction count generalizing d offset with
  | zero => rfl
  | succ count ih =>
    rw [load, List.length_cons]
    exact congrArg Nat.succ (ih _ _)

namespace Area

variable {a : Area} {addr : UInt32} {count : Nat} {data : List UInt8}

theorem fits_of_buffer {name : String} {base : UInt32} {rights : Rights} {bytes : Bytes}
    (inside : addr.toNat ∈ (ofBuffer name base bytes rights).addresses)
    (fits : addr.toNat + count ≤ (ofBuffer name base bytes rights).stop) :
    (ofBuffer name base bytes rights).offset addr + count ≤ bytes.size := by
  have low : base.toNat ≤ addr.toNat := inside.1
  have high : addr.toNat + count ≤ base.toNat + (ofBuffer name base bytes rights).len.toNat := fits
  have short : (ofBuffer name base bytes rights).len.toNat ≤ bytes.size := by
    change (min bytes.size 0xffffffff).toUInt32.toNat ≤ bytes.size
    have bound : min bytes.size 0xffffffff < UInt32.size := by
      have : UInt32.size = 4294967296 := rfl
      omega
    rw [Nat.toUInt32_eq, UInt32.toNat_ofNat_of_lt' bound]
    exact Nat.min_le_left _ _
  change addr.toNat - base.toNat + count ≤ bytes.size
  omega

theorem exists_of_isBuffer (buffer : a.isBuffer = true) :
    ∃ name base bytes rights, a = ofBuffer name base bytes rights := by
  obtain ⟨name, base, rights, storage⟩ := a
  cases storage with
  | buffer bytes => exact ⟨name, base, bytes, rights, rfl⟩
  | device len d => cases buffer

theorem load_of_isBuffer (buffer : a.isBuffer = true) (addr : UInt32) (count : Nat) :
    (a.load addr count).1 = a.peek addr count := by
  obtain ⟨name, base, bytes, rights, rfl⟩ := exists_of_isBuffer buffer
  rfl

theorem length_load (inside : addr.toNat ∈ a.addresses) (fits : addr.toNat + count ≤ a.stop) :
    (a.load addr count).1.length = count := by
  obtain ⟨name, base, rights, storage⟩ := a
  cases storage with
  | buffer bytes =>
    exact Bytes.length_extract (fits_of_buffer inside fits)
  | device len d => exact d.length_load _ count

theorem peek_store (buffer : a.isBuffer = true) (inside : addr.toNat ∈ a.addresses)
    (fits : addr.toNat + data.length ≤ a.stop) :
    (a.store addr data).peek addr data.length = data := by
  obtain ⟨name, base, bytes, rights, rfl⟩ := exists_of_isBuffer buffer
  exact Bytes.extract_overwrite (fits_of_buffer inside fits)

theorem peek_store_of_apart {start : UInt32} (buffer : a.isBuffer = true)
    (inside : addr.toNat ∈ a.addresses) (fits : addr.toNat + count ≤ a.stop)
    (inside' : start.toNat ∈ a.addresses)
    (apart : addr.toNat + count ≤ start.toNat ∨ start.toNat + data.length ≤ addr.toNat) :
    (a.store start data).peek addr count = a.peek addr count := by
  obtain ⟨name, base, bytes, rights, rfl⟩ := exists_of_isBuffer buffer
  have low : base.toNat ≤ addr.toNat := inside.1
  have low' : base.toNat ≤ start.toNat := inside'.1
  refine Bytes.extract_overwrite_of_apart (fits_of_buffer inside fits) ?_
  change addr.toNat - base.toNat + count ≤ start.toNat - base.toNat ∨
    start.toNat - base.toNat + data.length ≤ addr.toNat - base.toNat
  omega

end Area

namespace GuestMemory

variable {memory next : GuestMemory} {area : Area} {addr : UInt32} {count : Nat}
  {mode : Privilege} {access : Access} {data : List UInt8}

theorem Ordered.exists_locate (ordered : memory.Ordered) (same : next.layout = memory.layout)
    (located : memory.locate addr count access mode = .ok area) :
    ∃ b ∈ next.areas, b.outline = area.outline ∧ next.locate addr count access mode = .ok b := by
  have ordered' := ordered.of_layout same
  obtain ⟨member, inside, fits, allowed⟩ := ordered.locate_eq_ok_iff.mp located
  obtain ⟨b, hb, outline⟩ := exists_of_layout same member
  refine ⟨b, hb, outline, ordered'.locate_eq_ok_iff.mpr ⟨hb, ?_, ?_, ?_⟩⟩
  · rwa [Area.addresses_eq_of_outline outline]
  · rwa [Area.stop_eq_of_outline outline]
  · rwa [Area.rights_eq_of_outline outline]

theorem locate_of_store (filled : data ≠ []) (h : memory.store addr data mode = .ok next) :
    ∃ area, memory.locate addr data.length .write mode = .ok area ∧
      next = memory.modify area.base (·.store addr data) := by
  rw [store_cases] at h
  rw [if_neg (by rwa [List.isEmpty_iff])] at h
  cases located : memory.locate addr data.length .write mode with
  | error fault =>
    rw [located] at h
    cases h
  | ok area =>
    rw [located] at h
    cases h
    exact ⟨area, rfl, rfl⟩

theorem Ordered.of_locate_write (ordered : memory.Ordered) (holds : memory.Each Area.HoldsWrites)
    (located : memory.locate addr count .write mode = .ok area) :
    area.isBuffer = true ∧ memory.locate addr count .peek mode = .ok area ∧
      memory.locate addr count .read .supervisor = .ok area := by
  obtain ⟨member, inside, fits, allowed⟩ := ordered.locate_eq_ok_iff.mp located
  have allowed' : area.rights.mayWrite .supervisor = true := by
    cases mode with
    | user => exact Rights.permits_supervisor allowed
    | supervisor => exact allowed
  obtain ⟨buffer, readable⟩ := holds area member allowed'
  have mayPeek : area.rights.permits .peek mode = true := by
    rw [Rights.permits, Rights.mayPeek]
    exact Bool.or_eq_true_iff.mpr (.inr allowed)
  exact ⟨buffer, ordered.locate_eq_ok_iff.mpr ⟨member, inside, fits, mayPeek⟩,
    ordered.locate_eq_ok_iff.mpr ⟨member, inside, fits, readable⟩⟩

theorem peekBytes_of_locate (located : memory.locate addr count .peek mode = .ok area) :
    memory.peekBytes addr count mode = .ok (area.peek addr count) := by
  rw [peekBytes, located]

theorem Ordered.locate_modify (ordered : memory.Ordered)
    (located : memory.locate addr count access mode = .ok area) (start : UInt32)
    (data : List UInt8) :
    (memory.modify area.base (·.store start data)).locate addr count access mode =
      .ok (area.store start data) := by
  obtain ⟨member, inside, fits, allowed⟩ := ordered.locate_eq_ok_iff.mp located
  have layout : (memory.modify area.base (·.store start data)).layout = memory.layout :=
    layout_modify fun a _ _ => a.outline_store start data
  have stored : area.store start data ∈ (memory.modify area.base (·.store start data)).areas :=
    List.mem_map.mpr ⟨area, member, if_pos rfl⟩
  have outline := area.outline_store start data
  refine (ordered.of_layout layout).locate_eq_ok_iff.mpr ⟨stored, ?_, ?_, allowed⟩
  · rwa [Area.addresses_eq_of_outline outline]
  · rwa [Area.stop_eq_of_outline outline]

theorem Ordered.length_load (ordered : memory.Ordered)
    (h : memory.load addr count mode = .ok (data, next)) : data.length = count := by
  rcases ordered.load_eq_ok h with ⟨rfl, rfl, _⟩ | ⟨area, _, inside, fits, _, rfl, _⟩
  · rfl
  · exact Area.length_load inside fits

theorem Ordered.peekBytes_of_load (ordered : memory.Ordered) (some : count ≠ 0)
    (found : memory.find? addr = .some area) (buffer : area.isBuffer = true)
    (h : memory.load addr count mode = .ok (data, next)) :
    memory.peekBytes addr count mode = .ok data := by
  obtain ⟨member, inside⟩ := ordered.find?_eq_some_iff.mp found
  rcases ordered.load_eq_ok h with ⟨none, _⟩ | ⟨a, ha, inside', fits, allowed, rfl, _⟩
  · exact absurd none some
  obtain rfl := ordered.eq_of_mem_addresses member ha inside inside'
  have mayPeek : area.rights.permits .peek mode = true := by
    rw [Rights.permits, Rights.mayPeek, allowed, Bool.true_or]
  have located := ordered.locate_eq_ok_iff.mpr ⟨member, inside, fits, mayPeek⟩
  rw [peekBytes_of_locate located, Area.load_of_isBuffer buffer]

theorem Ordered.peekBytes_of_store (ordered : memory.Ordered)
    (holds : memory.Each Area.HoldsWrites) (filled : data ≠ [])
    (h : memory.store addr data mode = .ok next) :
    next.peekBytes addr data.length mode = .ok data := by
  obtain ⟨area, located, rfl⟩ := locate_of_store filled h
  obtain ⟨buffer, seen, _⟩ := ordered.of_locate_write holds located
  obtain ⟨_, inside, fits, _⟩ := ordered.locate_eq_ok_iff.mp seen
  rw [peekBytes_of_locate (ordered.locate_modify seen addr data),
    Area.peek_store buffer inside fits]

theorem Ordered.peekBytes_of_apart (ordered : memory.Ordered) {start : UInt32}
    {mode' : Privilege} (seen : memory.locate addr count .peek mode = .ok area)
    (buffer : area.isBuffer = true) (h : memory.store start data mode' = .ok next)
    (apart : addr.toNat + count ≤ start.toNat ∨ start.toNat + data.length ≤ addr.toNat) :
    next.peekBytes addr count mode = .ok (area.peek addr count) := by
  obtain ⟨member, inside, fits, allowed⟩ := ordered.locate_eq_ok_iff.mp seen
  rcases ordered.store_eq_ok h with ⟨_, rfl⟩ | ⟨changed, member', inside', _, _, rfl⟩
  · exact peekBytes_of_locate seen
  by_cases here : area.base = changed.base
  · obtain rfl := ordered.eq_of_base member member' here
    rw [peekBytes_of_locate (ordered.locate_modify seen start data),
      Area.peek_store_of_apart buffer inside fits inside' apart]
  · have layout : (memory.modify changed.base (·.store start data)).layout = memory.layout :=
      layout_modify fun a _ _ => a.outline_store start data
    have kept : area ∈ (memory.modify changed.base (·.store start data)).areas :=
      List.mem_map.mpr ⟨area, member, if_neg here⟩
    exact peekBytes_of_locate
      ((ordered.of_layout layout).locate_eq_ok_iff.mpr ⟨kept, inside, fits, allowed⟩)

theorem Ordered.read_of_peek (ordered : memory.Ordered) (holds : memory.Each Area.HoldsWrites)
    {width : Width} (located : memory.locate addr width.bytes .write .supervisor = .ok area)
    {value : UInt32} (seen : memory.peek addr width .supervisor = .ok value) :
    memory.read addr width .supervisor = .ok (value, memory) := by
  obtain ⟨buffer, seen', readable⟩ := ordered.of_locate_write holds located
  rw [peek, peekBytes_of_locate seen'] at seen
  cases seen
  have some : width.bytes ≠ 0 := by cases width <;> decide
  have loaded : memory.load addr width.bytes .supervisor =
      .ok (area.peek addr width.bytes, memory) := by
    rw [load_cases, if_neg some, readable]
    dsimp only
    rw [if_pos buffer, Area.load_of_isBuffer buffer]
  rw [read, loaded]
  rfl

end GuestMemory

end AtariTos
